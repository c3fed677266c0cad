import ServerPages.Command.CommandLine
import ServerPages.Config.Settings
import ServerPages.Page.Loading
import ServerPages.Server.Service

/-!
# Commands

A command is given a command line and a session: the files, what stands on its standard input,
and the settings.  It ends with an exit status and with what it has written.  What goes wrong in
a way that it knows about is reported in one line; anything else breaks it off.  On the way it leaves
notes for the log, as many as its verbosity asks for.
-/

namespace ServerPages

namespace Command

/-- A limit of the interpreter that is reached. -/
inductive Exhaustion where
  /-- Too many calls are open. -/
  | recursion (message : Text)
  | memory
  deriving DecidableEq, Repr

/-- The limit in words; there are none for the memory. -/
def Exhaustion.text : Exhaustion → Text
  | .recursion message => message
  | .memory => []

/-- The stages that take a page to a module. -/
inductive Stage where
  /-- The list of modules that may be imported is read. -/
  | allowing
  /-- The page is read. -/
  | reading
  | compiling
  /-- The imports of the module are checked. -/
  | checking
  deriving DecidableEq, Repr

/-- How texts are set in the colours of a terminal. -/
structure Painter where
  page : Text → Text := id
  code : Text → Text := id

/-- What a command works with. -/
structure Session where
  around : Surroundings
  /-- What stands on standard input. -/
  input : Bytes := []
  settings : Settings := {}
  /-- The process number. -/
  pid : Text := []
  /-- The limit of the interpreter, if one is reached in a stage.  What the stages need, and what
  there is of it, depends on the machine. -/
  limits : Stage → Option Exhaustion := fun _ => none
  painter : Painter := {}

/-- How a command ends. -/
structure Outcome where
  exit : Nat := 0
  out : Bytes := []
  /-- What it reports on standard error. -/
  err : Text := []
  /-- The files afterwards. -/
  tree : FileTree

/-- What breaks a command off. -/
inductive Breakdown where
  | inclusion (e : IncludeError)
  | load (e : LoadError)
  | file (e : PathError)
  | message (f : Message.Failure)
  | dispatch (e : DispatchError)
  /-- The response cannot be encoded.  What has been written of it by then is left out. -/
  | encoding (f : Letter.Fault)
  | misplaced (m : Layout.Misplaced)
  | exhausted (e : Exhaustion)

namespace Breakdown

/-- A breakdown in words. -/
def text : Breakdown → Text
  | .inclusion e => e.message
  | .load e => e.message
  | .file e => e.message
  | .message f => f.text
  | .dispatch e => e.message
  | .encoding f => f.message
  | .misplaced m => m.message
  | .exhausted e => e.text

end Breakdown

/-- Why a command does not do its work. -/
inductive Trouble where
  /-- The command line stops it. -/
  | stop (s : CommandLine.Stop)
  /-- Something that it reports goes wrong. -/
  | reported (message : Text)
  | broken (b : Breakdown)

/-- The version of the commands. -/
def version : Text := "1.0.0".toList

/-- The form of a header for a name on the list of forms. -/
def headerForm (name : Text) : Format := (Format.ofName? name).getD .structured

/-- The names of the forms of a header in the order in which they are listed. -/
def headerChoices : List Text := ["mod_gosp", "none", "raw", "structured"].map String.toList

open CommandLine

/-- The name of a header's form among the choices. -/
def takeChoice (s : Switch) (name : Text) : Except Stop Text :=
  if headerChoices.contains name then .ok name
  else
    .error (.atSwitch s ("invalid choice: ".toList ++ Quoted.encode name ++
      " (choose from ".toList ++ Text.joinWith ", ".toList (headerChoices.map Quoted.encode) ++
      [')']))

/-- The integer that a switch is given. -/
def takeInteger (s : Switch) (value : Text) : Except Stop Int :=
  match Event.integerOfText value [] with
  | .ok n => .ok n
  | .error _ =>
    .error (.atSwitch s ("invalid int value: ".toList ++ Quoted.encode value))

/-- The digits of a numeral as ASCII writes them; other characters stay. -/
def plainDigits (s : Text) : Text :=
  s.map fun c => match Decimal.anyDigit? c with
    | some d => Char.ofNat (48 + d)
    | none => c

/-- Whether underscores stand between digits only. -/
def isGrouped : Text → Bool
  | c :: '_' :: d :: s => Decimal.isDigit c && Decimal.isDigit d && isGrouped (d :: s)
  | [_, '_'] => false
  | '_' :: _ => false
  | _ :: s => isGrouped s
  | [] => true

/-- The number that a switch is given. -/
def takeReal (s : Switch) (value : Text) : Except Stop Binary64 :=
  let numeral := plainDigits (Text.trimMargins value)
  match (if isGrouped numeral then Written.plainReal? (numeral.filter (· ≠ '_')) else none) with
  | some r => .ok r
  | none => .error (.atSwitch s ("invalid float value: ".toList ++ Quoted.encode value))

/-- How a command that goes by a name ends. -/
def conclude (name : Text) (tree : FileTree) (result : Except Trouble Outcome) :
    Except Breakdown Outcome :=
  match result with
  | .ok o => .ok o
  | .error (.stop (.misuse message)) =>
    .ok { exit := 2, err := "error: ".toList ++ message ++ ['\n'], tree }
  | .error (.stop (.shown text)) => .ok { out := Utf8.encode text, tree }
  | .error (.reported message) =>
    .ok { exit := 1, err := name ++ ": ".toList ++ message ++ ['\n'], tree }
  | .error (.broken b) => .error b

/-- A command that does its work once it knows what it is asked for: how it ends, and the notes that
pass under the verbosity that it is asked for. -/
def carryOut {ρ : Type} (name : Text) (tree : FileTree) (request : Except Stop ρ)
    (verbosity : ρ → Nat) (perform : ρ → Noted Trouble Outcome) : Noted Breakdown Outcome :=
  match request with
  | .error stop => ⟨conclude name tree (.error (.stop stop)), []⟩
  | .ok r =>
    let done := perform r
    ⟨conclude name tree done.result, done.notes.filter (Note.passes (some (verbosity r)))⟩

end Command

end ServerPages
