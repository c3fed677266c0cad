import ServerPages.Text.Blank

/-!
# Decimal numerals

Integers as decimal text.  `ofText?` reads the forms that a page may pass where an integer is
wanted: blanks around, a sign, digits of any script, single underscores between digits.
-/

namespace ServerPages

namespace Decimal

/-- The decimal digits of a natural number. -/
def ofNat (n : Nat) : Text := Nat.toDigits 10 n

/-- The decimal text of an integer. -/
def ofInt : Int → Text
  | .ofNat n => ofNat n
  | .negSucc n => '-' :: ofNat (n + 1)

/-- Whether a character is a decimal digit of ASCII. -/
def isDigit (c : Char) : Bool := '0' ≤ c && c ≤ '9'

/-- The value of an ASCII digit. -/
def digitValue (c : Char) : Nat := c.toNat - '0'.toNat

/-- The number that a row of ASCII digits writes. -/
def value (s : Text) : Nat := s.foldl (fun n c => 10 * n + digitValue c) 0

/-- An integer with the sign of a numeral. -/
def signed (negative : Bool) (n : Nat) : Int := if negative then -(n : Int) else n

/-- The longest numeral, in digits, that is read as an integer. -/
def digitLimit : Nat := 4300

/-- The first code points of the rows of ten decimal digits, one row per script. -/
def digitRows : List Nat :=
  [0x30, 0x660, 0x6F0, 0x7C0, 0x966, 0x9E6, 0xA66, 0xAE6, 0xB66, 0xBE6, 0xC66, 0xCE6, 0xD66,
   0xDE6, 0xE50, 0xED0, 0xF20, 0x1040, 0x1090, 0x17E0, 0x1810, 0x1946, 0x19D0, 0x1A80, 0x1A90,
   0x1B50, 0x1BB0, 0x1C40, 0x1C50, 0xA620, 0xA8D0, 0xA900, 0xA9D0, 0xA9F0, 0xAA50, 0xABF0,
   0xFF10, 0x104A0, 0x10D30, 0x11066, 0x110F0, 0x11136, 0x111D0, 0x112F0, 0x11450, 0x114D0,
   0x11650, 0x116C0, 0x11730, 0x118E0, 0x11950, 0x11C50, 0x11D50, 0x11DA0, 0x16A60, 0x16AC0,
   0x16B50, 0x1D7CE, 0x1D7D8, 0x1D7E2, 0x1D7EC, 0x1D7F6, 0x1E140, 0x1E2F0, 0x1E950, 0x1FBF0]

/-- The value of a decimal digit of any script. -/
def anyDigit? (c : Char) : Option Nat :=
  (digitRows.find? fun row => row ≤ c.toNat && c.toNat < row + 10).map (c.toNat - ·)

/-- The value of a row of digits with single underscores between them. -/
def groupedDigits? (digit? : Char → Option Nat) : Text → Option Nat
  | [] => none
  | c :: s => (digit? c).bind (go s)
where
  /-- Continues after a digit. -/
  go : Text → Nat → Option Nat
    | [], n => some n
    | ['_'], _ => none
    | '_' :: c :: s, n => (digit? c).bind fun d => go s (10 * n + d)
    | c :: s, n => (digit? c).bind fun d => go s (10 * n + d)

/-- How many digits a text begins with, single underscores between them left out; `isOpen` says
that a digit must come next.  Nothing if an underscore stands elsewhere among the digits. -/
def countDigits? (digit? : Char → Option Nat) (isOpen : Bool) (n : Nat) : Text → Option Nat
  | [] => if isOpen then none else some n
  | c :: s =>
    if c = '_' then if isOpen then none else countDigits? digit? true n s
    else if (digit? c).isSome then countDigits? digit? false (n + 1) s
    else if isOpen then none
    else some n

/-- A sign, if a numeral begins with one, and what follows it. -/
def sign : Text → Bool × Text
  | '-' :: s => (true, s)
  | '+' :: s => (false, s)
  | s => (false, s)

/-- How many digits the numeral in a text begins with, as far as they are well grouped. -/
def leadingDigits (s : Text) : Nat :=
  (countDigits? anyDigit? true 0 (sign (Text.trimMargins s)).2).getD 0

/-- The integer a text writes: blanks around it, a sign, digits of any script, single
underscores between digits. -/
def ofText? (s : Text) : Option Int :=
  let (negative, digits) := sign (Text.trimMargins s)
  (groupedDigits? anyDigit? digits).map (signed negative)

end Decimal

end ServerPages
