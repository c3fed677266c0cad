import ServerPages.Page.Stage

/-!
# Scripts

A script is a page given as a list of steps, each of which does one thing that page code may do.
-/

namespace ServerPages

/-- One step of a script. -/
inductive Step where
  /-- Writes values. -/
  | write (values : List Value)
  /-- Writes a field of the request, nothing without one. -/
  | field (name : Text)
  | raise (f : Fault)
  /-- Writes the text of a file that lies within the page's directory. -/
  | file (name : Text)
  /-- Writes the directory in which the page runs. -/
  | directory
  /-- Sends an event. -/
  | send (event : Except Fault Signal)
  | close

namespace Step

/-- Whether a name is one of the fields of a request. -/
def noField (name : Text) : Fault :=
  Fault.of "AttributeError" ("'RequestData' object has no attribute ".toList ++ Quoted.encode name)

/-- What a step does. -/
def act (around : Surroundings) (request : Option Request) : Step → Act Unit
  | .write vs => Act.writeValues vs
  | .field name =>
    match request with
    | none => Act.writeValues [.none]
    | some r =>
      match r.field? around.cwd.path name with
      | some v => Act.writeValues [v]
      | none => Act.raise (noField name)
  | .raise f => Act.raise f
  | .file name =>
    let base := request.bind (·.baseDir? around.cwd.path)
    match Guarded.openFile around.tree around.cwd name ['r'] base {} with
    | (_, .error e) => Act.raise e.fault
    | (_, .ok f) =>
      match f.read with
      | .error e => Act.raise e.fault
      | .ok (.text s) => Act.writeValues [.text s]
      | .ok (.bytes b) => Act.writeValues [.bytes b]
  | .directory => Act.writeValues [.text around.cwd.path]
  | .send event => Act.ofExcept event >>= Act.send
  | .close => Act.close

end Step

/-- The page that takes the steps of a script. -/
def Generator.ofScript (steps : List Step) : Generator := fun around request =>
  steps.forM (Step.act around request)

end ServerPages
