import ServerPages.Code.Bindings
import ServerPages.Page.Stage

/-!
# What the code of a page deals with

A name in the code of a page stands for a thing: a value, a part of the page library, what the
page is given to work with, or a function.  A scope says what names stand for in the code at
work.  Each function has names of its own, which stand for nothing until they are bound.
-/

namespace ServerPages

namespace Execution

open Code

/-- What a name in the code of a page stands for. -/
inductive Thing where
  | value (v : Value)
  /-- A string that is no text. -/
  | letters (s : List Letter)
  /-- The page library. -/
  | library
  /-- A function of the page library. -/
  | service (name : Text)
  /-- A module other than the page library. -/
  | module (name : Text)
  /-- A kind of fault. -/
  | kind (name : Text)
  | fault (f : Fault)
  /-- The function that makes ranges. -/
  | counting
  | range (items : List Int)
  /-- The page's body. -/
  | output
  /-- The channel on which the page sends events. -/
  | channel
  /-- What closes the channel. -/
  | closing
  | request (r : Request)
  /-- A function: its name, its parameters, the values of the last of them, its statements, and
  what the names around it stood for when it was made. -/
  | function (name : Text) (parameters : List Text) (defaults : List Thing) (body : List Tree)
      (around : List (Text × Thing))
  deriving Inhabited

/-- A string. -/
def Thing.ofLetters (s : List Letter) : Thing :=
  ((Letter.text? s).map fun t => .value (.text t)).getD (.letters s)

/-- What names stand for, the latest binding of a name first. -/
abbrev Bindings := List (Text × Thing)

/-- What names stand for in the code at work. -/
structure Scope where
  /-- The name of the function at work. -/
  function : Text := []
  /-- The names that belong to the function at work; none outside functions. -/
  own : Option (List Text) := none
  /-- What they stand for. -/
  bound : Bindings := []
  /-- What the names of the functions around stand for. -/
  around : Bindings := []
  /-- What the names of the module stand for. -/
  globals : Bindings := []
  deriving Inhabited

/-- The kinds of fault that every page knows by name. -/
def kindNames : List Text :=
  ["ArithmeticError", "AssertionError", "AttributeError", "BaseException", "BlockingIOError",
   "BrokenPipeError", "BufferError", "ChildProcessError", "ConnectionAbortedError",
   "ConnectionError", "ConnectionRefusedError", "ConnectionResetError", "EOFError",
   "EnvironmentError", "Exception", "FileExistsError", "FileNotFoundError", "FloatingPointError",
   "GeneratorExit", "IOError", "ImportError", "IndentationError", "IndexError",
   "InterruptedError", "IsADirectoryError", "KeyError", "KeyboardInterrupt", "LookupError",
   "MemoryError", "ModuleNotFoundError", "NameError", "NotADirectoryError",
   "NotImplementedError", "OSError", "OverflowError", "PermissionError", "ProcessLookupError",
   "RecursionError", "ReferenceError", "RuntimeError", "StopAsyncIteration", "StopIteration",
   "SyntaxError", "SystemError", "SystemExit", "TabError", "TimeoutError", "TypeError",
   "UnboundLocalError", "UnicodeDecodeError", "UnicodeEncodeError", "UnicodeError",
   "UnicodeTranslateError", "ValueError", "Warning", "ZeroDivisionError"].map
    String.toList

/-- What a name stands for in every module. -/
def builtin? (name : Text) : Option Thing :=
  if name = "range".toList then some .counting
  else if kindNames.contains name then some (.kind name)
  else none

namespace Scope

/-- The most bytes of an undefined name that a fault shows. -/
def nameRoom : Nat := 200

/-- What a name stands for. -/
def find (s : Scope) (name : Text) : Except Fault Thing :=
  let unknown := Fault.of "NameError" ("name '".toList ++ Utf8.clip nameRoom name ++
    "' is not defined".toList)
  let wider (inner : Bindings) : Except Fault Thing :=
    match (inner.lookup name <|> s.globals.lookup name <|> builtin? name) with
    | some t => .ok t
    | none => .error unknown
  match s.own with
  | none => wider s.bound
  | some own =>
    if own.contains name then
      match s.bound.lookup name with
      | some t => .ok t
      | none => .error (Fault.of "UnboundLocalError" ("cannot access local variable ".toList ++
          Quoted.encode name ++ " where it is not associated with a value".toList))
    else wider s.around

/-- The scope with a name bound. -/
def bind (s : Scope) (name : Text) (t : Thing) : Scope := { s with bound := (name, t) :: s.bound }

/-- The bindings that a function made here keeps. -/
def captured (s : Scope) : Bindings := if s.own.isSome then s.bound ++ s.around else []

/-- The bindings of the module. -/
def moduleBindings (s : Scope) : Bindings := if s.own.isSome then s.globals else s.bound

/-- The full name of a function made here. -/
def fullName (s : Scope) (name : Text) : Text :=
  if s.own.isSome then s.function ++ ".<locals>.".toList ++ name else name

end Scope

/-! ### Arguments -/

/-- What a call is given: things by place, and things by name. -/
structure Arguments where
  placed : List Thing := []
  named : Bindings := []

/-- Quoted names in a list of words. -/
def enumerate (names : List Text) : Text :=
  match names.map Quoted.encode with
  | [a, b] => a ++ " and ".toList ++ b
  | quoted =>
    match quoted.reverse with
    | last :: before@(_ :: _ :: _) =>
      Text.joinWith ", ".toList before.reverse ++ ", and ".toList ++ last
    | _ => quoted.flatten

/-- The fault of a call that is given too much. -/
def tooMany (function : Text) (least most given : Nat) : Fault :=
  let bounds := if least = most then Decimal.ofNat most
    else "from ".toList ++ Decimal.ofNat least ++ " to ".toList ++ Decimal.ofNat most
  Fault.of "TypeError" (function ++ "() takes ".toList ++ bounds ++ " positional argument".toList ++
    (if most = 1 then [] else ['s']) ++ " but ".toList ++ Decimal.ofNat given ++
    (if given = 1 then " was given".toList else " were given".toList))

/-- The fault of a call that is given too little. -/
def missing (function : Text) (names : List Text) : Fault :=
  Fault.of "TypeError" (function ++ "() missing ".toList ++ Decimal.ofNat names.length ++
    " required positional argument".toList ++ (if names.length = 1 then [] else ['s']) ++
    ": ".toList ++ enumerate names)

/-- Gives one more thing to a parameter by its name. -/
def giveNamed (function : Text) (parameters : List Text) (given : Bindings) (arg : Text × Thing) :
    Except Fault Bindings :=
  if (given.lookup arg.1).isSome then
    .error (Fault.of "TypeError" (function ++ "() got multiple values for argument ".toList ++
      Quoted.encode arg.1))
  else if parameters.contains arg.1 then .ok (arg :: given)
  else
    .error (Fault.of "TypeError" (function ++ "() got an unexpected keyword argument ".toList ++
      Quoted.encode arg.1))

/-- What parameters stand for in a call; the last parameters have values of their own. -/
def Arguments.assign (function : Text) (parameters : List Text) (defaults : List Thing)
    (args : Arguments) : Except Fault Bindings := do
  let needed := parameters.length - defaults.length
  if parameters.length < args.placed.length then
    throw (tooMany function needed parameters.length args.placed.length)
  let given ← args.named.foldlM (giveNamed function parameters) (parameters.zip args.placed)
  let absent := (parameters.take needed).filter fun p => (given.lookup p).isNone
  if absent.isEmpty then return given ++ (parameters.drop needed).zip defaults
  else throw (missing function absent)

end Execution

end ServerPages
