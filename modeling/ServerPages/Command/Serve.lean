import ServerPages.Command.Compile

/-!
# The serving command

The command loads one page and answers requests with it: the one that is stored in a file, or
none at all.  What runs the command decides whether it can listen on a socket.
-/

namespace ServerPages

namespace Command

open CommandLine

namespace Serve

/-- The name of the command. -/
def name : Text := "gosp-server".toList

/-- What the command is asked to do. -/
structure Request where
  /-- The page, once it has been named. -/
  page : Option Text := none
  /-- The socket to listen on; empty for none. -/
  socket : Text := []
  /-- Whether a socket has been named. -/
  hasSocket : Bool := false
  /-- The file that holds a request; empty for none. -/
  file : Text := []
  /-- Whether a file has been named. -/
  hasFile : Bool := false
  maxIdle : Binary64
  header : Text
  verbosity : Nat := 1
  deriving DecidableEq, Repr

/-- What is asked for when the command line is empty. -/
def Request.ofSettings (s : Settings) : Request :=
  { maxIdle := s.maxIdle, header := s.httpHeaders }

def helpSwitch : Switch := ⟨["-h".toList, "--help".toList], false⟩
def pageSwitch : Switch := ⟨["--plugin".toList], true⟩
def socketSwitch : Switch := ⟨["--socket".toList], true⟩
def fileSwitch : Switch := ⟨["--file".toList], true⟩
def idleSwitch : Switch := ⟨["--max-idle".toList], true⟩
def headerSwitch : Switch := ⟨["-H".toList, "--http-headers".toList], true⟩
def verbositySwitch : Switch := ⟨["-v".toList, "--verbosity".toList], false⟩
def versionSwitch : Switch := ⟨["-V".toList, "--version".toList], false⟩

/-- The stop at a switch that does not go with another one. -/
def conflict (s other : Switch) : Stop :=
  .atSwitch s ("not allowed with argument ".toList ++ other.title)

/-- Takes a switch of the command line. -/
def take (help : Text) (r : Request) (s : Switch) (value : Option Text) : Except Stop Request :=
  let value := value.getD []
  if s = helpSwitch then .error (.shown help)
  else if s = versionSwitch then .error (.shown (name ++ ' ' :: version ++ ['\n']))
  else if s = pageSwitch then .ok { r with page := some value }
  else if s = socketSwitch then
    if value ≠ [] ∧ r.hasFile then .error (conflict s fileSwitch)
    else .ok { r with socket := value, hasSocket := r.hasSocket || !value.isEmpty }
  else if s = fileSwitch then
    if value ≠ [] ∧ r.hasSocket then .error (conflict s socketSwitch)
    else .ok { r with file := value, hasFile := r.hasFile || !value.isEmpty }
  else if s = idleSwitch then (takeReal s value).map fun n => { r with maxIdle := n }
  else if s = headerSwitch then (takeChoice s value).map fun h => { r with header := h }
  else .ok { r with verbosity := r.verbosity + 1 }

/-- The command line of the command. -/
def grammar (help : Text) : Grammar Request :=
  { switches := [helpSwitch, pageSwitch, socketSwitch, fileSwitch, idleSwitch, headerSwitch,
      verbositySwitch, versionSwitch]
    take := take help
    takeArgument := none }

/-- The stop of a command line that names no page. -/
def pageMissing : Stop :=
  .misuse ("the following arguments are required: ".toList ++ pageSwitch.title)

/-- Whether a command line is complete: it names a page. -/
def complete (r : Request) : Except Stop Unit :=
  if r.page.isSome then .ok () else .error pageMissing

/-- Loads the page. -/
def load (s : Session) (path : Text) : Noted Trouble Generator := do
  let allowed ← .of ((AllowList.parse s.settings.allowedImports).mapError fun e =>
    Trouble.reported e.message)
  let policy : Policy :=
    { maxTop := s.settings.maxTop,
      includeDir := Path.parent (Path.absolute s.around.cwd.path path),
      maxIncludeDepth := s.settings.maxIncludeDepth }
  let loader ← .of ((Loader.ofPath s.around (some policy) allowed path).mapError
    (Compile.loadTrouble ∘ .unresolved))
  let page ← (loader.load s.around).mapError Compile.loadTrouble
  .leave 2 ("Loaded ".toList ++ path)
  return page

/-- The trouble that a single request makes. -/
def singleTrouble : Service.SingleError → Trouble
  | .file .nullCharacter => .broken (.file .nullCharacter)
  | .file e => .reported e.message
  | .message f => if f.isRefusal then .reported f.text else .broken (.message f)
  | .dispatch e => if e.isSystem then .reported e.message else .broken (.dispatch e)

/-- Does what is asked for. -/
def perform (s : Session) (r : Request) : Noted Trouble Outcome := do
  let page ← load s (r.page.getD [])
  let d : Dispatcher :=
    { page, format := headerForm r.header, capacity := s.settings.metadataCapacity.toNat,
      changeDirectory := s.settings.changeDirectory }
  if r.socket ≠ [] then .of (throw (.reported ("cannot listen on ".toList ++ r.socket)))
  let response ← .of (if r.file = [] then .ok (Service.serveOnce d s.around)
    else (Service.serveFile d s.pid s.around r.file).mapError singleTrouble)
  match response.broken with
  | some f => .of (throw (.broken (.encoding f)))
  | none => ⟨.ok { out := response.content, tree := s.around.tree }, response.notes⟩

/-- What a command line asks for. -/
def request (s : Settings) (line : List Text) : Except Stop Request :=
  parse (grammar (Help.serve s)) (Request.ofSettings s) complete line

/-- Runs the command. -/
def run (s : Session) (line : List Text) : Noted Breakdown Outcome :=
  carryOut name s.around.tree (request s.settings line) (·.verbosity) (perform s)

end Serve

end Command

end ServerPages
