import ServerPages.Text.Letter
import ServerPages.Text.Value

/-!
# Faults

A fault is what ends a page before its time.  It has a kind, by the name under which pages know
it, what it says, and a trace.  Putting a fault in words is work that may itself fail; nothing can
be had then of what the fault says.
-/

namespace ServerPages

/-- What ends a page before its time. -/
structure Fault where
  kind : Text
  /-- What it says, if it can be put in words. -/
  text : Option (List Letter)
  /-- The pieces that make up a trace of it, each of one line or several. -/
  trace : List (List Letter)
  deriving DecidableEq, Repr

namespace Fault

/-- The trace of a fault that has been raised, by its name and what is said of it, if anything is.
The places in the program are left out. -/
def traceOf (name : Text) (detail : List Letter) : List (List Letter) :=
  [Letter.ofText "Traceback (most recent call last):\n".toList,
    Letter.ofText name ++
      (if detail.isEmpty then [] else Letter.ofText ": ".toList ++ detail) ++ [.char '\n']]

/-- A fault of a kind that says something. -/
def saying (kind : Text) (text : List Letter) : Fault := ⟨kind, some text, traceOf kind text⟩

/-- A fault of a kind of the page library that says something. -/
def ofLibrary (kind : Text) (text : List Letter) : Fault :=
  ⟨kind, some text, traceOf ("gosp.lib.errors.".toList ++ kind) text⟩

/-- A fault of a kind with a text. -/
def of (kind : String) (text : Text) : Fault := saying kind.toList (Letter.ofText text)

/-- A fault of the page library with a text. -/
def library (kind : String) (text : Text) : Fault := ofLibrary kind.toList (Letter.ofText text)

/-- The fault that it ends in to put a fault in words that has none. -/
def wordless : Fault :=
  of "SystemError" "a function returned a result with an exception set".toList

/-- What a fault says as it is shown. -/
def words (f : Fault) : Text := (f.text.map Letter.printed).getD []

/-- Whether a fault is one that a program recovers from, and none that ends it as a whole. -/
def isOrdinary (f : Fault) : Bool :=
  ["BaseException", "GeneratorExit", "KeyboardInterrupt", "SystemExit"].all (f.kind ≠ ·.toList)

/-! ### Faults by name -/

/-- The kinds of the page library whose text is what they are given. -/
def plainLibraryKinds : List Text :=
  ["GospError", "DecodeError", "IncompleteRequest", "MetadataClosed", "PageLoadError"].map
    String.toList

/-- The kinds of system errors. -/
def systemKinds : List Text :=
  ["OSError", "BlockingIOError", "ChildProcessError", "ConnectionError", "BrokenPipeError",
   "ConnectionAbortedError", "ConnectionRefusedError", "ConnectionResetError", "FileExistsError",
   "FileNotFoundError", "InterruptedError", "IsADirectoryError", "NotADirectoryError",
   "PermissionError", "ProcessLookupError", "TimeoutError"].map String.toList

/-- The kind of a system error by its number. -/
def systemKind? (number : Int) : Option String :=
  if number = 11 ∨ number = 114 ∨ number = 115 then some "BlockingIOError"
  else if number = 32 ∨ number = 108 then some "BrokenPipeError"
  else if number = 10 then some "ChildProcessError"
  else if number = 103 then some "ConnectionAbortedError"
  else if number = 111 then some "ConnectionRefusedError"
  else if number = 104 then some "ConnectionResetError"
  else if number = 17 then some "FileExistsError"
  else if number = 2 then some "FileNotFoundError"
  else if number = 21 then some "IsADirectoryError"
  else if number = 20 then some "NotADirectoryError"
  else if number = 4 then some "InterruptedError"
  else if number = 13 ∨ number = 1 then some "PermissionError"
  else if number = 3 then some "ProcessLookupError"
  else if number = 110 then some "TimeoutError"
  else none

/-- The text of what a fault is given: nothing, one value, or several in round brackets. -/
def argumentsText : List Value → Text
  | [] => []
  | [v] => v.shown
  | vs => '(' :: Value.quotedItems vs ++ [')']

/-- The number that a system error is given. -/
def errorNumber? : Value → Option Int
  | .int n => some n
  | .bool b => some (if b then 1 else 0)
  | .real r => r.toInt?
  | _ => none

/-- What a system error of a kind is given, as far as its text shows it: a count in the place of
a file's name stays out. -/
def systemShown (kind : Text) : List Value → List Value
  | number :: text :: .int n :: rest =>
    if kind = "BlockingIOError".toList then [number, text] else number :: text :: .int n :: rest
  | number :: text :: .bool b :: rest =>
    if kind = "BlockingIOError".toList then [number, text] else number :: text :: .bool b :: rest
  | args => args

/-- The text of a system error. -/
def systemText : List Value → Text
  | [number, text] => "[Errno ".toList ++ number.shown ++ "] ".toList ++ text.shown
  | number :: text :: file :: _ =>
    let message := "[Errno ".toList ++ number.shown ++ "] ".toList ++ text.shown
    match file with
    | .none => message
    | _ => message ++ ": ".toList ++ file.quoted
  | args => argumentsText args

/-- A fault that says that a kind of fault takes other values than those given. -/
def misused (kind : String) (missing : List String) : Fault :=
  let names := missing.map fun n => '\'' :: n.toList ++ ['\'']
  let listed := match names with
    | [a] => a
    | [a, b] => a ++ " and ".toList ++ b
    | _ => names.flatten
  of "TypeError" (kind.toList ++ ".__init__() missing ".toList ++ Decimal.ofNat missing.length ++
    " required positional argument".toList ++ (if missing.length = 1 then [] else ['s']) ++
    ": ".toList ++ listed)

/-- A fault that says that a kind of fault takes fewer values than those given: `least` to
`most`, itself counted. -/
def overfed (kind : String) (least most given : Nat) : Fault :=
  of "TypeError" (kind.toList ++ ".__init__() takes ".toList ++
    (if least = most then Decimal.ofNat most
    else "from ".toList ++ Decimal.ofNat least ++ " to ".toList ++ Decimal.ofNat most) ++
    " positional arguments but ".toList ++ Decimal.ofNat (given + 1) ++ " were given".toList)

/-- The fault of a module that may not be imported at a place. -/
def rejected (name allowed : Value) (place : Text) : Fault :=
  library "ImportRejected" (name.quoted ++ " is not in the list of approved modules for ".toList ++
    place ++ " (".toList ++ Quoted.encode allowed.shown ++ [')'])

/-! ### Faults of codecs -/

/-- The kinds of faults of codecs. -/
def codecKinds : List Text :=
  ["UnicodeDecodeError", "UnicodeEncodeError", "UnicodeTranslateError"].map String.toList

/-- The fault that says that a kind of fault takes another number of values. -/
def miscounted (needed given : Nat) : Fault :=
  of "TypeError" ("function takes exactly ".toList ++ Decimal.ofNat needed ++ " arguments (".toList ++
    Decimal.ofNat given ++ " given)".toList)

/-- A text that a fault is given in some place. -/
def textArgument (place : Nat) : Value → Except Fault Text
  | .text s => .ok s
  | v =>
    let kind := match v with
      | .none => "None".toList
      | v => v.kindName
    .error (of "TypeError" ("argument ".toList ++ Decimal.ofNat place ++ " must be str, not ".toList ++
      kind))

/-- A place in a text that a fault is given. -/
def integerArgument : Value → Except Fault Int
  | .int n =>
    if -9223372036854775808 ≤ n ∧ n ≤ 9223372036854775807 then .ok n
    else .error (of "OverflowError" "Python int too large to convert to C ssize_t".toList)
  | .bool b => .ok (if b then 1 else 0)
  | v =>
    .error (of "TypeError" (Quoted.encode v.kindName ++
      " object cannot be interpreted as an integer".toList))

/-- Bytes that a fault is given. -/
def bytesArgument : Value → Except Fault Bytes
  | .bytes b => .ok b
  | v =>
    .error (of "TypeError" ("a bytes-like object is required, not ".toList ++
      Quoted.encode v.kindName))

/-- A character of a text by its code; there is none before the text. -/
def characterAt? (s : Text) (place : Int) : Option Text :=
  if place < 0 then none
  else
    let code := ((s[place.toNat]?).getD '\x00').toNat
    let escape :=
      if code ≤ 0xFF then 'x' :: Quoted.hex 2 code
      else if code ≤ 0xFFFF then 'u' :: Quoted.hex 4 code
      else 'U' :: Quoted.hex 8 code
    some ('\'' :: '\\' :: escape ++ ['\''])

/-- A byte by its code.  What stands before the bytes is not known. -/
def byteAt (b : Bytes) (place : Int) : Text :=
  '0' :: 'x' :: Quoted.hex 2 ((b[place.toNat]?).getD 0).toNat

/-- The fault of a codec that attempts something with the items from one place to another, which
fails for some reason.  A single item is shown; where that cannot be done, nothing can be said. -/
def ofCodec (kind attempt : Text) (length : Nat) (item? : Int → Option Text) (start stop : Int)
    (reason : Text) : Fault :=
  let text? :=
    if start < length ∧ stop = start + 1 then
      (item? start).map fun item => ' ' :: item ++ " in position ".toList ++ Decimal.ofInt start
    else
      some ("s in position ".toList ++ Decimal.ofInt start ++ ['-'] ++ Decimal.ofInt (stop - 1))
  match text? with
  | some found => saying kind (Letter.ofText (attempt ++ found ++ ": ".toList ++ reason))
  | none => ⟨kind, none, traceOf kind (Letter.ofText "<exception str() failed>".toList)⟩

/-- The fault of a codec that is given some values. -/
def ofCodecArguments (kind : Text) (args : List Value) : Except Fault Fault :=
  let attempt (codec does : Text) : Text := '\'' :: codec ++ "' codec can't ".toList ++ does
  match args with
  | [subject, start, stop, reason] => do
    if kind ≠ "UnicodeTranslateError".toList then throw (miscounted 5 4)
    let subject ← textArgument 1 subject
    let start ← integerArgument start
    let stop ← integerArgument stop
    let reason ← textArgument 4 reason
    return ofCodec kind "can't translate character".toList subject.length (characterAt? subject)
      start stop reason
  | [codec, subject, start, stop, reason] => do
    if kind = "UnicodeTranslateError".toList then throw (miscounted 4 5)
    let codec ← textArgument 1 codec
    if kind = "UnicodeEncodeError".toList then
      let subject ← textArgument 2 subject
      let start ← integerArgument start
      let stop ← integerArgument stop
      let reason ← textArgument 5 reason
      return ofCodec kind (attempt codec "encode character".toList) subject.length
        (characterAt? subject) start stop reason
    else
      let start ← integerArgument start
      let stop ← integerArgument stop
      let reason ← textArgument 5 reason
      let subject ← bytesArgument subject
      return ofCodec kind (attempt codec "decode byte".toList) subject.length
        (some ∘ byteAt subject) start stop reason
  | _ => .error (miscounted (if kind = "UnicodeTranslateError".toList then 4 else 5) args.length)

/-- The fault of a kind that is given some values; the error says why the kind does not take
them. -/
def ofName (kind : Text) (args : List Value) : Except Fault Fault :=
  let named (k : String) : Bool := kind = k.toList
  if named "SandboxViolation" then
    match args with
    | [] => .error (misused "SandboxViolation" ["path", "base"])
    | [_] => .error (misused "SandboxViolation" ["base"])
    | [path, base] =>
      .ok (library "SandboxViolation" (path.shown ++ " lies outside of ".toList ++ base.shown))
    | _ => .error (overfed "SandboxViolation" 3 3 args.length)
  else if named "IncludeDepthExceeded" then
    match args with
    | [] => .error (misused "IncludeDepthExceeded" ["maximum"])
    | [maximum] => .ok (library "IncludeDepthExceeded"
        ("Inclusion depth exceeded the maximum of ".toList ++ maximum.shown))
    | _ => .error (overfed "IncludeDepthExceeded" 2 2 args.length)
  else if named "TooManyTopBlocks" then
    match args with
    | [] => .error (misused "TooManyTopBlocks" ["count", "maximum"])
    | [_] => .error (misused "TooManyTopBlocks" ["maximum"])
    | [count, maximum] => .ok (library "TooManyTopBlocks" ("Too many go:top blocks (".toList ++
        count.shown ++ " versus a maximum of ".toList ++ maximum.shown ++ [')']))
    | _ => .error (overfed "TooManyTopBlocks" 3 3 args.length)
  else if named "ImportRejected" then
    match args with
    | [] => .error (misused "ImportRejected" ["name", "allowed"])
    | [_] => .error (misused "ImportRejected" ["allowed"])
    | [name, allowed] => .ok (rejected name allowed "<page>".toList)
    | [name, allowed, place] => .ok (rejected name allowed place.shown)
    | _ => .error (overfed "ImportRejected" 3 4 args.length)
  else if plainLibraryKinds.contains kind then
    .ok (ofLibrary kind (Letter.ofText (argumentsText args)))
  else if named "KeyError" then
    let text := match args with
      | [v] => v.quoted
      | _ => argumentsText args
    .ok (of "KeyError" text)
  else if systemKinds.contains kind ∨ named "IOError" ∨ named "EnvironmentError" then
    let own := if systemKinds.contains kind then kind else "OSError".toList
    let kind := match args with
      | number :: _ :: _ =>
        if own = "OSError".toList then
          (((errorNumber? number).bind systemKind?).map String.toList).getD own
        else own
      | _ => own
    .ok (saying kind (Letter.ofText (systemText (systemShown kind args))))
  else if named "SyntaxError" ∨ named "IndentationError" ∨ named "TabError" then
    let noDetail := traceOf kind (Letter.ofText "<no detail available>".toList)
    match args with
    | [] => .ok ⟨kind, some (Letter.ofText "None".toList), noDetail⟩
    | message :: _ =>
      let text := Letter.ofText message.shown
      .ok ⟨kind, some text, if message.isTrue then traceOf kind text else noDetail⟩
  else if codecKinds.contains kind then ofCodecArguments kind args
  else .ok (saying kind (Letter.ofText (argumentsText args)))

/-- What raising a fault of a kind with some values ends in. -/
def raisedAs (kind : Text) (args : List Value) : Fault :=
  match ofName kind args with
  | .ok f => f
  | .error f => f

end Fault

end ServerPages
