import ServerPages.Metadata.Fault

/-!
# Events

What a page tells the web server besides its body goes out as events, each a key with a value.
This module holds the events of the page library.  The signals that are sent may hold letters that
are no characters; those that do not are the events.
-/

namespace ServerPages

/-- One message from a page. -/
structure Event where
  key : Text
  value : Text
  deriving DecidableEq, Repr

/-- An event as it is sent. -/
structure Signal where
  key : List Letter
  value : List Letter
  deriving DecidableEq, Repr

namespace Event

/-- The signal of an event. -/
def signal (e : Event) : Signal := ⟨Letter.ofText e.key, Letter.ofText e.value⟩

/-- The status of a response that has nothing to report. -/
def statusOk : Text := "200".toList

/-- The status of a response whose page has failed. -/
def statusFailed : Text := "500".toList

/-- An event with a key and any value. -/
def of (key : String) (value : Value) : Event := ⟨key.toList, value.shown⟩

/-- The fault of a text that writes no integer; it shows no more than 200 characters of it. -/
def noInteger (quoted : Text) : Fault :=
  Fault.of "ValueError" ("invalid literal for int() with base 10: ".toList ++ quoted.take 200)

/-- The fault of a text that writes too many digits. -/
def longInteger (digits : Nat) : Fault :=
  Fault.of "ValueError" ("Exceeds the limit (4300 digits) for integer string conversion: ".toList ++
    "value has ".toList ++ Decimal.ofNat digits ++
    " digits; use sys.set_int_max_str_digits() to increase the limit".toList)

/-- The integer that a text writes. -/
def integerOfText (s quoted : Text) : Except Fault Int :=
  let digits := Decimal.leadingDigits s
  if Decimal.digitLimit < digits then .error (longInteger digits)
  else (Decimal.ofText? s).elim (.error (noInteger quoted)) .ok

/-- The integer that bytes write in ASCII. -/
def integerOfBytes (b : Bytes) : Except Fault Int :=
  integerOfText (b.map fun x => if x < 0x80 then Char.ofNat x.toNat else '?')
    (Quoted.encodeBytes (b.take 200))

/-- A value as an integer. -/
def integer : Value → Except Fault Int
  | .int n => .ok n
  | .bool b => .ok (if b then 1 else 0)
  | .real r =>
    match r with
    | .nan => .error (Fault.of "ValueError" "cannot convert float NaN to integer".toList)
    | .infinite _ =>
      .error (Fault.of "OverflowError" "cannot convert float infinity to integer".toList)
    | .finite .. => .ok (r.truncate?.getD 0)
  | .text s => integerOfText s (Quoted.encode s)
  | .bytes b => integerOfBytes b
  | v =>
    .error (Fault.of "TypeError"
      ("int() argument must be a string, a bytes-like object or a real number, not '".toList ++
        v.kindName ++ ['\'']))

/-- The event that sets the status of the response, which is an integer. -/
def httpStatus (status : Value) : Except Fault Event :=
  (integer status).map fun n => of "http-status" (.int n)

/-- The event that sets the type of the body. -/
def mimeType (type : Value) : Event := of "mime-type" type

/-- The word for a truth value. -/
def truthWord (b : Bool) : Text := if b then "true".toList else "false".toList

/-- The event that adds a header field, or puts it in the place of the fields of its name. -/
def headerField (name value replace : Value) : Event :=
  ⟨"header-field".toList, truthWord replace.isTrue ++ ' ' :: name.shown ++ ' ' :: value.shown⟩

/-- The event that asks to keep the connection open, or to close it. -/
def keepAlive (keep : Value) : Event := ⟨"keep-alive".toList, truthWord keep.isTrue⟩

/-- The event that reports an error. -/
def errorMessage (message : Value) : Event := of "error-message" message

/-- The event that helps to find errors. -/
def debugMessage (message : Value) : Event := of "debug-message" message

end Event

namespace Signal

/-- Whether a signal has a key. -/
def hasKey (key : String) (s : Signal) : Bool := s.key = Letter.ofText key.toList

/-- The signal that sets a status. -/
def status (status : Text) : Signal :=
  ⟨Letter.ofText "http-status".toList, Letter.ofText status⟩

/-- The signal that reports a line of an error. -/
def error (line : List Letter) : Signal := ⟨Letter.ofText "error-message".toList, line⟩

/-- The line around a trace. -/
def separator : List Letter := List.replicate 60 (.char '-')

/-- The line that tells a fault that says something. -/
def title (f : Fault) (text : List Letter) : List Letter :=
  Letter.ofText (f.kind ++ ": ".toList) ++ text

/-- The signals that report a fault that says something: the status of a failed page, the fault, and
its trace. -/
def failure (f : Fault) (text : List Letter) : List Signal :=
  let traced := (f.trace.flatMap Letter.lines).map (Letter.ofText "  | ".toList ++ ·)
  status Event.statusFailed ::
    (title f text :: separator :: traced ++ [separator]).map error

/-- The report of a fault that escapes a page: none if it cannot be put in words. -/
def report (f : Fault) : List Signal := (f.text.map (failure f)).getD []

end Signal

end ServerPages
