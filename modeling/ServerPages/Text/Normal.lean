import ServerPages.Text.CombiningClass
import ServerPages.Text.Decomposition

/-!
# Normal form of names

Two spellings of a name are the same name if they agree in normal form: characters are decomposed
without regard to differences of form, marks are put in the order of their classes, and what can
be composed is composed again.
-/

namespace ServerPages

namespace Text

/-! ### Hangul -/

/-- The first syllable, and the characters before the first leading consonant, vowel and trailing
consonant that syllables are made of. -/
def firstSyllable : Nat := 0xAC00
def firstLead : Nat := 0x1100
def firstVowel : Nat := 0x1161
def beforeTail : Nat := 0x11A7

/-- The parts of a syllable. -/
def syllableParts (c : Char) : List Char :=
  let n := c.toNat - firstSyllable
  let tail := n % 28
  [Char.ofNat (firstLead + n / 588), Char.ofNat (firstVowel + n % 588 / 28)] ++
    if tail = 0 then [] else [Char.ofNat (beforeTail + tail)]

/-- Whether a character is a syllable. -/
def isSyllable (c : Char) : Bool := firstSyllable ≤ c.toNat && c.toNat ≤ 0xD7A3

/-- The syllable that two characters make: a consonant with a vowel, or a syllable that ends in
its vowel with a consonant. -/
def syllable? (a b : Char) : Option Char :=
  let (m, n) := (a.toNat, b.toNat)
  if firstLead ≤ m ∧ m < firstLead + 19 ∧ firstVowel ≤ n ∧ n < firstVowel + 21 then
    some (Char.ofNat (firstSyllable + (m - firstLead) * 588 + (n - firstVowel) * 28))
  else if isSyllable a ∧ (m - firstSyllable) % 28 = 0 ∧ beforeTail < n ∧ n < beforeTail + 28 then
    some (Char.ofNat (m + (n - beforeTail)))
  else none

/-! ### Tables -/

/-- The words in lines of text. -/
def wordsOfLines (lines : List String) : List (List Char) :=
  lines.flatMap fun line => splitOn ' ' line.toList

/-- The characters that are listed with what they stand for. -/
def decompositionTable : List (Char × List Char) :=
  (wordsOfLines variantPairs ++ wordsOfLines sequences).filterMap fun
    | c :: s => some (c, s)
    | [] => none

/-- The pairs of characters that make one. -/
def compositionTable : List ((Char × Char) × Char) :=
  (wordsOfLines compositions).filterMap fun
    | [a, b, c] => some ((a, b), c)
    | _ => none

/-! ### The form -/

/-- What a character decomposes into. -/
def decompose (c : Char) : List Char :=
  if c.toNat < 0x80 then [c]
  else if isSyllable c then syllableParts c
  else
    match variantRuns.find? fun (low, high, _) => low ≤ c.toNat && c.toNat ≤ high with
    | some (low, _, target) => [Char.ofNat (target + (c.toNat - low))]
    | none => (decompositionTable.lookup c).getD [c]

/-- Puts a mark before the marks of higher classes at the beginning of a text. -/
def insertMark (c : Char) : List Char → List Char
  | [] => [c]
  | d :: s =>
    if combiningClass d ≠ 0 ∧ combiningClass d < combiningClass c then d :: insertMark c s
    else c :: d :: s

/-- A text with its marks in order. -/
def orderMarks (s : List Char) : List Char :=
  s.foldr (fun c rest => if combiningClass c = 0 then c :: rest else insertMark c rest) []

/-- The character that two characters make. -/
def compose? (a b : Char) : Option Char := syllable? a b <|> compositionTable.lookup (a, b)

/-- Composes text behind the letter `base`.  `marks` holds what stands between, the latest first;
a mark is out of reach of the letter if one of its own class or higher stands before it. -/
def composeFrom (base : Char) (marks : List Char) : List Char → List Char
  | [] => base :: marks.reverse
  | c :: s =>
    let reached := match marks with
      | [] => true
      | m :: _ => combiningClass m < combiningClass c
    match (if reached then compose? base c else none) with
    | some d => composeFrom d marks s
    | none =>
      if combiningClass c = 0 then base :: marks.reverse ++ composeFrom c [] s
      else composeFrom base (c :: marks) s

/-- A text with all composed that can be. -/
def composeAll : List Char → List Char
  | [] => []
  | c :: s => if combiningClass c = 0 then composeFrom c [] s else c :: composeAll s

/-- The normal form of a name. -/
def normalForm (s : Text) : Text :=
  if s.all fun c => c.toNat < 0x80 then s else composeAll (orderMarks (s.flatMap decompose))

end Text

end ServerPages
