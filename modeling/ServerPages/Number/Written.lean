import ServerPages.Number.Binary64

/-!
# Numbers and flags in writing

Messages and settings may give a number or a flag as text.  Margins around a number do not count,
single underscores may stand between digits, and a flag has several words.
-/

namespace ServerPages

namespace Written

/-- A numeral without a fraction of zeros. -/
def dropZeroFraction (s : Text) : Text :=
  match Text.cut '.' s with
  | (whole, some fraction) => if fraction.all (· = '0') then whole else s
  | (_, none) => s

/-- The value of an ASCII digit, if it is one. -/
def digit? (c : Char) : Option Nat :=
  if Decimal.isDigit c then some (Decimal.digitValue c) else none

/-- Why a text writes no integer. -/
inductive IntegerFault where
  | malformed
  | tooLong
  deriving DecidableEq, Repr

/-- The integer that a text writes: margins around it, a sign, digits with single underscores
between them, a fraction of zeros. -/
def integer (s : Text) : Except IntegerFault Int :=
  let numeral := dropZeroFraction (Text.trimMargins s)
  let (negative, digits) := Decimal.sign numeral
  match Decimal.groupedDigits? digit? digits with
  | none => .error .malformed
  | some n =>
    if Decimal.digitLimit < numeral.length then .error .tooLong
    else .ok (Decimal.signed negative n)

/-- A letter of ASCII in lower case. -/
def lowerPlain (c : Char) : Char := c.toLower

/-- The flag that a text writes. -/
def flag? (s : Text) : Option Bool :=
  let word := s.map lowerPlain
  if ["0", "off", "f", "false", "n", "no"].any (·.toList = word) then some false
  else if ["1", "on", "t", "true", "y", "yes"].any (·.toList = word) then some true
  else none

/-! ### Reals -/

/-- The exponent that ends a numeral: nothing, or a mark, a sign and digits. -/
def exponent? : Text → Option Int
  | [] => some 0
  | c :: s =>
    let (negative, digits) := Decimal.sign s
    if (c = 'e' ∨ c = 'E') ∧ digits ≠ [] ∧ digits.all Decimal.isDigit then
      some (Decimal.signed negative (Decimal.value digits))
    else none

/-- The number that a numeral without a sign writes: digits with a point among them, at one end
or nowhere, and an exponent. -/
def magnitude? (negative : Bool) (s : Text) : Option Binary64 :=
  let word := s.map lowerPlain
  if word = "inf".toList ∨ word = "infinity".toList then some (.infinite negative)
  else if word = "nan".toList then some .nan
  else
    let whole := s.takeWhile Decimal.isDigit
    let rest := s.dropWhile Decimal.isDigit
    let (fraction, rest) := match rest with
      | '.' :: t => (t.takeWhile Decimal.isDigit, t.dropWhile Decimal.isDigit)
      | t => ([], t)
    if whole = [] ∧ fraction = [] then none
    else
      (exponent? rest).map fun e =>
        Binary64.ofDecimal negative (Decimal.value (whole ++ fraction)) (e - fraction.length)

/-- The number that a text without margins writes. -/
def plainReal? (s : Text) : Option Binary64 :=
  let (negative, numeral) := Decimal.sign s
  magnitude? negative numeral

/-- A text without its underscores, if it holds some, each of them between other characters. -/
def withoutUnderscores? (s : Text) : Option Text :=
  if Text.beginsWith ['_'] s ∨ Text.endsWith ['_'] s ∨ '_' ∉ s ∨
      Text.contains ['_', '_'] s then none
  else some (s.filter (· ≠ '_'))

/-- The number that a text writes. -/
def real? (s : Text) : Option Binary64 :=
  match plainReal? (Text.trimMargins s) with
  | some r => some r
  | none => (withoutUnderscores? s).bind plainReal?

end Written

end ServerPages
