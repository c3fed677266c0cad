import ServerPages.Json.Reader
import ServerPages.Request.Check

/-!
# Messages

A message is the bytes of one envelope: UTF-8, white space, one JSON object.  What follows the
object is ignored.  A message that stops too early is told from one that is wrong, because a
connection is read on for the first and given up for the second.
-/

namespace ServerPages

/-- A place in a text, as complaints name it. -/
structure TextPlace where
  line : Nat
  column : Nat
  offset : Nat
  deriving DecidableEq, Repr

/-- The place in a text at which `rest` begins. -/
def TextPlace.of (whole rest : Text) : TextPlace :=
  let offset := whole.length - rest.length
  let before := whole.take offset
  ⟨before.count '\n' + 1, (Text.lastPiece '\n' before).length + 1, offset⟩

/-- A place in words. -/
def TextPlace.text (p : TextPlace) : Text :=
  "line ".toList ++ Decimal.ofNat p.line ++ " column ".toList ++ Decimal.ofNat p.column ++
    " (char ".toList ++ Decimal.ofNat p.offset ++ [')']

namespace Message

/-- What a decoding error says about the bytes. -/
inductive Cause where
  | bytes (fault : Utf8.Fault)
  | json (complaint : Json.Complaint) (place : TextPlace)
  deriving DecidableEq, Repr

/-- A cause in words. -/
def Cause.text : Cause → Text
  | .bytes fault => fault.message
  | .json complaint place => complaint.text ++ ": ".toList ++ place.text

/-- Why bytes are no message. -/
inductive Failure where
  /-- They stop before the JSON value is complete. -/
  | incomplete (cause : Cause)
  /-- They can never become a message. -/
  | malformed (cause : Cause)
  /-- They hold a JSON value of the wrong shape. -/
  | misshapen (issues : List ShapeIssue)
  /-- Their containers nest beyond the bound. -/
  | tooDeep
  /-- They hold an integer with too many digits. -/
  | tooManyDigits (count : Nat)
  deriving DecidableEq, Repr

/-- Whether the failure is one of decoding: all are, but for nesting and digits beyond the
bounds. -/
def Failure.isRefusal : Failure → Bool
  | .incomplete _ | .malformed _ | .misshapen _ => true
  | .tooDeep | .tooManyDigits _ => false

/-- An integer with too many digits, in words. -/
def digitsMessage (count : Nat) : Text :=
  "Exceeds the limit (4300 digits) for integer string conversion: value has ".toList ++
    Decimal.ofNat count ++ " digits; use sys.set_int_max_str_digits() to increase the limit".toList

/-- A failure in words. -/
def Failure.text : Failure → Text
  | .incomplete cause => "Incomplete service request: ".toList ++ cause.text
  | .malformed cause => "Malformed service request: ".toList ++ cause.text
  | .misshapen _ => "Malformed service request".toList
  | .tooDeep => "maximum recursion depth exceeded".toList
  | .tooManyDigits count => digitsMessage count

/-- Whether a text is all that a number may still be waiting for: a sign, a point, or an exponent
mark with or without its sign. -/
def isNumberTail : Text → Bool
  | ['-'] | ['.'] | ['e'] | ['E'] | ['e', '+'] | ['e', '-'] | ['E', '+'] | ['E', '-'] => true
  | _ => false

/-- The constants a message may be cut inside of. -/
def literals : List Text := ["true".toList, "false".toList, "null".toList]

/-- Whether a complaint only says that the text stops too early; `rest` is the text from its
place on. -/
def isTruncated (complaint : Json.Complaint) (rest : Text) : Bool :=
  if rest.isEmpty || complaint = .openString then true
  else if complaint = .badUnicodeEscape then rest.length < 6
  else literals.any (Text.beginsWith rest ·) || isNumberTail rest

/-- The envelope that bytes begin with. -/
def decode (bytes : Bytes) : Except Failure Envelope :=
  match Utf8.decode bytes with
  | .error fault =>
    .error (if fault.reason = .unexpectedEnd then .incomplete (.bytes fault)
      else .malformed (.bytes fault))
  | .ok whole =>
    let text := Text.trimLeft whole
    match Json.read text with
    | .error .tooDeep => .error .tooDeep
    | .error (.tooManyDigits count) => .error (.tooManyDigits count)
    | .error (.refused complaint rest) =>
      let cause := Cause.json complaint (.of text rest)
      .error (if isTruncated complaint rest then .incomplete cause else .malformed cause)
    | .ok (json, _) =>
      match (Shape.envelope json).toExcept with
      | .error issues => .error (.misshapen issues)
      | .ok envelope => .ok envelope

end Message

end ServerPages
