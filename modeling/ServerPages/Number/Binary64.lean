import ServerPages.Number.Decimal

/-!
# Double-precision numbers

A double-precision number is kept exactly, as a whole number times a power of two.  `nearest`
rounds a quotient to the nearest such number, a tie going to the even one, and `shortest` gives
the fewest decimal digits that read back as the number, the nearest of those.
-/

namespace ServerPages

/-- A double-precision number; a finite one is `± mantissa · 2 ^ exponent`. -/
inductive Binary64 where
  | nan
  | infinite (negative : Bool)
  | finite (negative : Bool) (mantissa : Nat) (exponent : Int)
  deriving DecidableEq, Repr

namespace Binary64

/-- The least exponent of a finite number. -/
def leastExponent : Int := -1074

/-- `num / den` rounded to a whole number, a tie going to the even one. -/
def roundDiv (num den : Nat) : Nat :=
  let q := num / den
  let r := num % den
  if 2 * r < den then q else if den < 2 * r then q + 1 else q + q % 2

/-- The least mantissa of full width: `2 ^ 52`. -/
def fullMantissa : Nat := 0x10000000000000

/-- `n · base ^ e` as a quotient of natural numbers. -/
def scaled (n base : Nat) (e : Int) : Nat × Nat :=
  if 0 ≤ e then (n * Nat.pow base e.toNat, 1) else (n, Nat.pow base (-e).toNat)

/-- The number nearest to `± num / den`, a tie going to the even one. -/
def nearest (negative : Bool) (num den : Nat) : Binary64 :=
  if num = 0 then .finite negative 0 leastExponent
  else
    let guess : Int := (Nat.log2 num : Int) - (Nat.log2 den : Int) - 52
    let quotient (e : Int) : Nat × Nat :=
      if 0 ≤ e then (num, den * Nat.pow 2 e.toNat) else (num * Nat.pow 2 (-e).toNat, den)
    let (n, d) := quotient guess
    let e := if n < fullMantissa * d then guess - 1 else guess
    let e := if e < leastExponent then leastExponent else e
    let (n, d) := quotient e
    let m := roundDiv n d
    let (m, e) := if m = 2 * fullMantissa then (fullMantissa, e + 1) else (m, e)
    if fullMantissa ≤ m && 971 < e then .infinite negative else .finite negative m e

/-- The number nearest to `± digits · 10 ^ exponent`.  Exponents far outside the range are
decided by the size of the numeral alone. -/
def ofDecimal (negative : Bool) (digits : Nat) (exponent : Int) : Binary64 :=
  if digits = 0 then .finite negative 0 leastExponent
  else
    let size : Int := (Nat.toDigits 10 digits).length + exponent
    if 400 < size then .infinite negative
    else if size < -400 then .finite negative 0 leastExponent
    else
      let (num, den) := scaled digits 10 exponent
      nearest negative num den

/-- The number nearest to an integer. -/
def ofInt (n : Int) : Binary64 := nearest (n < 0) n.natAbs 1

/-- The integer a finite number is, if it is one. -/
def toInt? : Binary64 → Option Int
  | .finite negative m e =>
    let (num, den) := scaled m 2 e
    if num % den = 0 then some (Decimal.signed negative (num / den)) else none
  | _ => none

/-- The integer towards zero from a finite number. -/
def truncate? : Binary64 → Option Int
  | .finite negative m e =>
    let (num, den) := scaled m 2 e
    some (Decimal.signed negative (num / den))
  | _ => none

/-- Whether a number is below zero. -/
def isNegative : Binary64 → Bool
  | .nan => false
  | .infinite negative => negative
  | .finite negative m _ => negative && m != 0

/-- Whether a number is zero. -/
def isZero : Binary64 → Bool
  | .finite _ m _ => m == 0
  | _ => false

/-! ### Shortest decimals -/

/-- The number of decimal digits before the point of `num / den`: the `k` with
`10 ^ (k - 1) ≤ num / den < 10 ^ k`. -/
def decimalSize (num den : Nat) : Int :=
  let digits (n : Nat) : Int := (Nat.toDigits 10 n).length
  let guess := digits num - digits den
  let (p, q) := scaled 1 10 guess
  if num * q < p * den then guess else guess + 1

/-- The decimal of fewest digits that rounds to `m · 2 ^ e`, as digits and a decimal exponent:
the first grid of decimals with a point in the interval that rounds there, and the nearer of the
two neighbours on it, or the even one if both are as near.  The interval is measured in quarters
of a unit in the last place; its ends belong to it when the mantissa is even. -/
def shortest (m : Nat) (e : Int) : Nat × Int :=
  let (quarter, den) := scaled 1 2 (e - 2)
  let below := if m = fullMantissa && leastExponent < e then 1 else 2
  let low := (4 * m - below) * quarter
  let value := 4 * m * quarter
  let high := (4 * m + 2) * quarter
  let size := decimalSize value den
  let rec search : Nat → Nat → Nat × Int
    | 0, digits => (value, size - digits)
    | tries + 1, digits =>
      let (p, q) := scaled 1 10 (size - digits)
      let floor := value * q / (p * den)
      let fits (n : Nat) : Bool :=
        let point := n * p * den
        if m % 2 = 0 then low * q ≤ point && point ≤ high * q
        else low * q < point && point < high * q
      let down := fits floor && floor != 0
      let up := fits (floor + 1)
      let middle := (2 * floor + 1) * p * den
      let downNearer := 2 * value * q < middle || (2 * value * q = middle && floor % 2 = 0)
      if down && (!up || downNearer) then (floor, size - digits)
      else if up then (floor + 1, size - digits)
      else search tries (digits + 1)
  search 17 1

/-- How a double-precision number is written: digits as far as needed, positional between
`10 ^ -4` and `10 ^ 16`, always with a point or an exponent of at least two digits. -/
def text : Binary64 → Text
  | .nan => "nan".toList
  | .infinite negative => (if negative then "-inf" else "inf").toList
  | .finite negative m e =>
    let minus : Text := if negative then ['-'] else []
    if m = 0 then minus ++ "0.0".toList
    else
      let (digits, exponent) := shortest m e
      let ds := (Text.dropTrailing '0' (Decimal.ofNat digits))
      let size : Int := (Decimal.ofNat digits).length + exponent
      -- the value is 0.ds · 10 ^ size
      if -4 < size && size ≤ 16 then
        if size ≤ 0 then
          minus ++ "0.".toList ++ List.replicate (-size).toNat '0' ++ ds
        else
          let whole := ds.take size.toNat
          let padded := whole ++ List.replicate (size.toNat - whole.length) '0'
          let rest := ds.drop size.toNat
          minus ++ padded ++ ['.'] ++ (if rest.isEmpty then ['0'] else rest)
      else
        let shown := size - 1
        let magnitude := Decimal.ofNat shown.natAbs
        let padded := if magnitude.length < 2 then '0' :: magnitude else magnitude
        let head := ds.take 1
        let rest := ds.drop 1
        minus ++ head ++ (if rest.isEmpty then [] else '.' :: rest) ++ ['e'] ++
          [if shown < 0 then '-' else '+'] ++ padded

end Binary64

end ServerPages
