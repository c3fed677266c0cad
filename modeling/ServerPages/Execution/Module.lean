import ServerPages.Code.Placement
import ServerPages.Code.Program
import ServerPages.Digest.Sha1
import ServerPages.Execution.Evaluation

/-!
# Modules as pages

A module is run once from top to bottom.  The function that it defines under the name of the
entry point is then the page: it is called with the request, the body and the channel.
-/

namespace ServerPages

namespace Module

open Code Execution

/-- The name of the function that writes the page. -/
def entryPoint : Text := "gosp_generate_page".toList

/-- The name that a module goes by, made from where it comes from. -/
def nameOf (origin : Text) : Text :=
  "gosp_page_".toList ++ (Sha1.hexDigest (Utf8.encode origin)).take 12

/-- Why a module is no page. -/
inductive Defect where
  /-- It holds a null character. -/
  | nullCharacter
  /-- It is no program. -/
  | notCompiling
  /-- Running it ends in a fault. -/
  | failing (f : Fault)
  | noEntry
  /-- Its entry point is no function but a thing of another kind. -/
  | noFunction (kind : Text)
  deriving DecidableEq, Repr

/-- How deep the runs of a program nest. -/
def depth (program : Tree) : Nat := program.size + 100

/-- The program that a module's text is. -/
def program (text : Text) : Except Defect Tree :=
  match Program.parse text with
  | .error .nullCharacter => .error .nullCharacter
  | .error _ => .error .notCompiling
  | .ok tree => if tree.isPlaced {} then .ok tree else .error .notCompiling

/-- What the names of a module stand for after its statements have been run. -/
def bindings (program : Tree) : Except Defect Bindings :=
  match (inTurn (run (depth program)) program.parts).run.run {} with
  | (.ok _, w) => .ok w.scope.bound
  | (.error f, _) => .error (.failing f)

/-- The page that calling a function of a module is. -/
def page (depth : Nat) (globals : Bindings) (entry : Thing) : Generator := fun around request =>
  let visit : Thing := match request with
    | none => .value .none
    | some r => .request r
  fun stage =>
    let world : World := { stage, scope := { bound := globals }, directory := around.cwd.path }
    let (result, world) := (call depth entry ⟨[visit, .output, .channel], []⟩).run.run world
    (result.map fun _ => (), world.stage)

/-- The page that the text of a module defines. -/
def load (text : Text) : Except Defect Generator := do
  let program ← program text
  let globals ← bindings program
  match globals.lookup entryPoint with
  | none | some (.value .none) => throw .noEntry
  | some entry =>
    if entry.isCallable then return page (depth program) globals entry
    else throw (.noFunction entry.kindName)

end Module

end ServerPages
