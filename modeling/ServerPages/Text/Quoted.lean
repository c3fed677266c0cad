import ServerPages.Text.Printable

/-!
# Quoted texts

A quoted text is written between quotation marks on one line, so that a reader of string
literals gives back exactly the text.  Apostrophes serve as marks unless the text holds
apostrophes and no quotation marks.  What is not printable is escaped by its code.
-/

namespace ServerPages

namespace Quoted

/-- The mark around a text: an apostrophe, unless the text holds apostrophes and no quotation
marks. -/
def mark (s : Text) : Char := if '\'' ∈ s ∧ '"' ∉ s then '"' else '\''

/-- A number in hexadecimal, padded with zeros to a width. -/
def hex (width n : Nat) : Text :=
  let digits := Nat.toDigits 16 n
  List.replicate (width - digits.length) '0' ++ digits

/-- A character as it stands between marks. -/
def encodeChar (mark c : Char) : Text :=
  if c = mark || c = '\\' then ['\\', c]
  else if c = '\t' then ['\\', 't']
  else if c = '\n' then ['\\', 'n']
  else if c = '\r' then ['\\', 'r']
  else if Text.isPrintable c then [c]
  else if c.toNat ≤ 0xFF then '\\' :: 'x' :: hex 2 c.toNat
  else if c.toNat ≤ 0xFFFF then '\\' :: 'u' :: hex 4 c.toNat
  else '\\' :: 'U' :: hex 8 c.toNat

/-- A text between quotation marks. -/
def encode (s : Text) : Text :=
  mark s :: s.flatMap (encodeChar (mark s)) ++ [mark s]

/-- A byte as it stands between marks: ASCII as in a text, all else by its code. -/
def encodeByte (mark : Char) (b : UInt8) : Text :=
  if b < 0x80 then encodeChar mark (Char.ofNat b.toNat) else '\\' :: 'x' :: hex 2 b.toNat

/-- Bytes between quotation marks, marked as bytes. -/
def encodeBytes (s : Bytes) : Text :=
  let m := mark (s.map fun b => Char.ofNat b.toNat)
  'b' :: m :: s.flatMap (encodeByte m) ++ [m]

end Quoted

end ServerPages
