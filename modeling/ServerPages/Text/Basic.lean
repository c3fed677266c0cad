/-!
# Text and bytes

A text is a list of characters and a message on the wire is a list of bytes, so that every
operation of the library is a function on lists.  This module holds the operations that split,
join and compare texts; white space is in `Text.Blank`.

The main statements are that splitting at a separator loses nothing (`joinWith_splitOn`) and
that the part after a beginning is what its name says (`after?_eq_some_iff`).
-/

namespace ServerPages

/-- A text: its characters in order. -/
abbrev Text := List Char

/-- A sequence of bytes. -/
abbrev Bytes := List UInt8

namespace Text

/-! ### Beginnings -/

/-- What follows the beginning `p` in a text, if the text begins with it. -/
def after? : Text → Text → Option Text
  | [], s => some s
  | _ :: _, [] => none
  | c :: p, d :: s => if c = d then after? p s else none

theorem after?_eq_some_iff {p s r : Text} : after? p s = some r ↔ s = p ++ r := by
  induction p generalizing s with
  | nil => simp [after?, eq_comm]
  | cons c p ih =>
    cases s with
    | nil => simp [after?]
    | cons d s => by_cases h : c = d <;> simp_all [after?, eq_comm]

/-- Whether a text begins with `p`. -/
def beginsWith (p s : Text) : Bool := (after? p s).isSome

/-- Whether a text ends with `q`. -/
def endsWith (q s : Text) : Bool := beginsWith q.reverse s.reverse

/-- Whether `p` stands somewhere in a text. -/
def contains (p : Text) : Text → Bool
  | [] => p.isEmpty
  | c :: s => beginsWith p (c :: s) || contains p s

/-! ### Separators -/

/-- The pieces of a text between the occurrences of a separator: one more than there are
occurrences. -/
def splitOn (sep : Char) : Text → List Text
  | [] => [[]]
  | c :: s =>
    if c = sep then [] :: splitOn sep s
    else match splitOn sep s with
      | [] => [[c]]
      | piece :: pieces => (c :: piece) :: pieces

/-- Texts in order, with a separator between neighbours. -/
def joinWith (sep : Text) : List Text → Text
  | [] => []
  | [s] => s
  | s :: t :: rest => s ++ sep ++ joinWith sep (t :: rest)

theorem splitOn_ne_nil (sep : Char) (s : Text) : splitOn sep s ≠ [] := by
  cases s with
  | nil => simp [splitOn]
  | cons c s =>
    unfold splitOn
    split
    · simp
    · split <;> simp

/-- Splitting loses nothing. -/
theorem joinWith_splitOn (sep : Char) (s : Text) : joinWith [sep] (splitOn sep s) = s := by
  induction s with
  | nil => rfl
  | cons c s ih =>
    have hne := splitOn_ne_nil sep s
    unfold splitOn
    split
    · next h =>
      cases hs : splitOn sep s with
      | nil => exact absurd hs hne
      | cons p ps => rw [hs] at ih; simp [joinWith, ih, h]
    · cases hs : splitOn sep s with
      | nil => exact absurd hs hne
      | cons p ps =>
        rw [hs] at ih
        cases ps with
        | nil => simp_all [joinWith]
        | cons q qs => simpa [joinWith] using ih

/-- A text cut at the first occurrence of a separator: the part before it, and the part after
it if it occurs. -/
def cut (sep : Char) : Text → Text × Option Text
  | [] => ([], none)
  | c :: s =>
    if c = sep then ([], some s)
    else
      let (before, after) := cut sep s
      (c :: before, after)

/-- The characters after the last occurrence of a separator, the whole text if there is none. -/
def lastPiece (sep : Char) (s : Text) : Text := (splitOn sep s).getLastD []

/-- The text without the trailing occurrences of a character. -/
def dropTrailing (c : Char) (s : Text) : Text := (s.reverse.dropWhile (· = c)).reverse

/-- The text without the leading occurrences of a character. -/
def dropLeading (c : Char) (s : Text) : Text := s.dropWhile (· = c)

/-! ### Line ends -/

/-- Line ends made uniform: a carriage return, alone or before a newline, becomes a newline. -/
def unifyNewlines : Text → Text
  | [] => []
  | '\r' :: '\n' :: s => '\n' :: unifyNewlines s
  | c :: s => (if c = '\r' then '\n' else c) :: unifyNewlines s

/-- A text cut into lines, each with its newline; only the last line may lack one. -/
def lines : Text → List Text
  | [] => []
  | c :: s =>
    if c = '\n' then [c] :: lines s
    else match lines s with
      | [] => [[c]]
      | line :: rest => (c :: line) :: rest

/-- Texts in the order of their code points: the first characters that differ decide, and a text
stands before those that it begins. -/
def codePointLE : Text → Text → Bool
  | [], _ => true
  | _ :: _, [] => false
  | c :: s, d :: t => if c = d then codePointLE s t else c < d

end Text

end ServerPages
