import ServerPages.Code.Program
import ServerPages.Imports.AllowList

/-!
# Checking imports

What a program mentions of other modules is read off its tree: the modules it imports, by
statement or by a call that imports, and the members of the page library that it uses.  A program
passes under an allow list if the list lets everything in that it mentions.

The check looks at the syntax.  It keeps honest pages to an agreed set of modules.
-/

namespace ServerPages

namespace Imports

open Code

/-- A module, or a member of the page library, that a program mentions, and the line. -/
structure Mention where
  name : Text
  line : Nat
  deriving DecidableEq, Repr

/-- The name of the function that a call imports by, if it does. -/
def importer? : Tree → Option Text
  | .node (.name id) _ _ =>
    if id = "__import__".toList ∨ id = "import_module".toList then some id else none
  | .node (.attribute a) _ [.node (.name id) _ _] =>
    if a = "import_module".toList ∧ id = "importlib".toList then
      some "importlib.import_module".toList
    else none
  | _ => none

/-- The text that is the first argument of a call, if one is. -/
def firstText? : List Tree → Option Text
  | .node (.constant (.text s)) _ _ :: _ => some s
  | _ => none

/-- The modules that a node imports; a call whose first argument is no text counts under the name
of its function. -/
def imported : Tree → List Mention
  | .node (.importModules names) line _ => names.map (⟨·, line⟩)
  | .node (.importFrom level module _) line _ =>
    [⟨List.replicate level '.' ++ module.getD [], line⟩]
  | .node .call line (callee :: args) =>
    match importer? callee with
    | some function => [⟨(firstText? args).getD function, line⟩]
    | none => []
  | _ => []

/-- A member of the page library by its full name. -/
def member (name : Text) : Text := AllowList.pagePackage ++ '.' :: name

/-- The members of the page library that a node uses. -/
def used : Tree → List Mention
  | .node (.attribute a) line [.node (.name id) _ _] =>
    if id = AllowList.pagePackage then [⟨member a, line⟩] else []
  | .node (.importFrom level module names) line _ =>
    if level = 0 ∧ module = some AllowList.pagePackage then names.map fun n => ⟨member n, line⟩
    else []
  | _ => []

/-- The modules that a program imports, by levels of its tree. -/
def find (program : Tree) : List Mention := program.walk.flatMap imported

/-- The members of the page library that a program uses, by levels of its tree. -/
def references (program : Tree) : List Mention := program.walk.flatMap used

/-- All that a program mentions, in the order of the lines. -/
def mentions (program : Tree) : List Mention :=
  (find program ++ references program).mergeSort fun a b => a.line ≤ b.line

/-- Whether an allow list lets a mention in; a name that begins with a dot is never let in. -/
def permits (l : AllowList) (m : Mention) : Bool :=
  !Text.beginsWith ['.'] m.name && l.allows m.name

/-- Why a program does not pass. -/
inductive CheckError where
  | program (e : ProgramError)
  /-- A mention is not let in by a list; the place is the name of the page. -/
  | rejected (name : Text) (allowed : AllowList) (place : Text)
  deriving DecidableEq, Repr

/-- The message about a rejected mention. -/
def rejection (name : Text) (allowed : AllowList) (place : Text) : Text :=
  Quoted.encode name ++ " is not in the list of approved modules for ".toList ++ place ++
    " (".toList ++ Quoted.encode allowed.spec ++ [')']

/-- Checks the text of a program under an allow list. -/
def check (source : Text) (allowed : AllowList) (place : Text) : Except CheckError Unit :=
  if allowed.isUniversal then .ok ()
  else
    match Program.parse source with
    | .error e => .error (.program e)
    | .ok program =>
      match (mentions program).find? (!permits allowed ·) with
      | some m => .error (.rejected m.name allowed place)
      | none => .ok ()

end Imports

end ServerPages
