import ServerPages.Text.Blank
import ServerPages.Text.Case
import ServerPages.Text.Quoted
import ServerPages.Text.Utf8

/-!
# Letters

A string of a program may hold half of a surrogate pair, which an escape can write and which is no
character.  Its units are letters.  Letters spell a text if all of them are characters, and just
then can they be encoded.

The main statements are that the letters of a text spell that text and no other letters do
(`text?_eq_some_iff`), and that letters spell no text exactly if a fault is found in them
(`fault?_eq_none_iff`).
-/

namespace ServerPages

/-- A unit of a string. -/
inductive Letter where
  | char (c : Char)
  /-- Half of a surrogate pair, standing alone. -/
  | half (unit : Nat)
  deriving DecidableEq, Repr

namespace Letter

/-- The character a unit is, if it is one. -/
def char? : Letter → Option Char
  | .char c => some c
  | .half _ => none

/-- The text that units spell, if each of them is a character. -/
def text? (s : List Letter) : Option Text := s.mapM char?

/-- The units of a text. -/
def ofText (s : Text) : List Letter := s.map .char

/-- The text that units spell, with a replacement character for each half of a pair. -/
def shown (s : List Letter) : Text := s.map fun l => l.char?.getD '\uFFFD'

/-- The text that units spell, with an escape for each half of a pair. -/
def printed (s : List Letter) : Text :=
  s.flatMap fun
    | .char c => [c]
    | .half unit => '\\' :: 'u' :: Quoted.hex 4 unit

/-- Letters between quotation marks. -/
def quoted (s : List Letter) : Text :=
  let mark := Quoted.mark (s.filterMap char?)
  mark :: s.flatMap (fun
    | .char c => Quoted.encodeChar mark c
    | .half unit => '\\' :: 'u' :: Quoted.hex 4 unit) ++ [mark]

/-! ### Letters and texts -/

theorem ofText_append (s t : Text) : ofText (s ++ t) = ofText s ++ ofText t := List.map_append

theorem text?_append (s t : List Letter) :
    text? (s ++ t) = (text? s).bind fun a => (text? t).map (a ++ ·) := by
  simp only [text?, List.mapM_append, Option.map_eq_bind]
  rfl

/-- Only the letters of a text spell it. -/
theorem text?_eq_some_iff {s : List Letter} {t : Text} : text? s = some t ↔ s = ofText t := by
  induction s generalizing t with
  | nil => cases t <;> simp [text?, ofText]
  | cons l s ih =>
    cases l with
    | half n => cases t <;> simp [text?, ofText, char?]
    | char c =>
      have hcons : text? (.char c :: s) = (text? s).map (c :: ·) := by
        rw [text?, List.mapM_cons, Option.map_eq_bind]
        rfl
      rw [hcons, Option.map_eq_some_iff]
      cases t with
      | nil => simp [ofText]
      | cons d t =>
        simp only [ih, ofText, List.cons.injEq, List.map_cons, char.injEq]
        exact ⟨fun ⟨_, hs, hc, ht⟩ => ⟨hc, ht ▸ hs⟩, fun ⟨hc, hs⟩ => ⟨t, hs, hc, rfl⟩⟩

@[simp]
theorem text?_ofText (s : Text) : text? (ofText s) = some s := text?_eq_some_iff.mpr rfl

theorem ofText_inj {s t : Text} : ofText s = ofText t ↔ s = t := by
  rw [← text?_eq_some_iff, text?_ofText, Option.some_inj]

/-! ### Encoding -/

/-- Letters that cannot be encoded. -/
structure Fault where
  /-- How many letters stand before them. -/
  position : Nat
  /-- The first of them. -/
  unit : Nat
  /-- How many of them stand in a row. -/
  width : Nat
  deriving DecidableEq, Repr

/-- The wording of a fault. -/
def Fault.message (f : Fault) : Text :=
  "'utf-8' codec can't encode ".toList ++
    (if f.width = 1 then
      "character '\\u".toList ++ Quoted.hex 4 f.unit ++ "' in position ".toList ++
        Nat.toDigits 10 f.position
    else
      "characters in position ".toList ++ Nat.toDigits 10 f.position ++ ['-'] ++
        Nat.toDigits 10 (f.position + f.width - 1)) ++
    ": surrogates not allowed".toList

/-- The first halves of pairs in letters that stand behind some number of others. -/
def faultAt? (position : Nat) : List Letter → Option Fault
  | [] => none
  | .char _ :: s => faultAt? (position + 1) s
  | .half unit :: s =>
    some ⟨position, unit, (s.takeWhile fun l => l.char?.isNone).length + 1⟩

/-- The first letters that cannot be encoded. -/
def fault? (s : List Letter) : Option Fault := faultAt? 0 s

/-- The bytes of letters, if they can be encoded. -/
def encode? (s : List Letter) : Option Bytes := (text? s).map Utf8.encode

/-- Letters without a fault are those that spell a text. -/
theorem fault?_eq_none_iff {s : List Letter} : fault? s = none ↔ ∃ t, s = ofText t := by
  rw [fault?]
  generalize 0 = position
  induction s generalizing position with
  | nil => exact iff_of_true rfl ⟨[], rfl⟩
  | cons l s ih =>
    cases l with
    | half unit => exact iff_of_false nofun fun ⟨t, h⟩ => by cases t <;> cases h
    | char c =>
      refine (ih (position + 1)).trans ⟨fun ⟨t, h⟩ => ⟨c :: t, congrArg (_ :: ·) h⟩, ?_⟩
      rintro ⟨t, h⟩
      cases t with
      | nil => cases h
      | cons d t => exact ⟨t, (List.cons.inj h).2⟩

@[simp]
theorem encode?_ofText (s : Text) : encode? (ofText s) = some (Utf8.encode s) := by
  rw [encode?, text?_ofText, Option.map_some]

theorem encode?_append (s t : List Letter) :
    encode? (s ++ t) = (encode? s).bind fun a => (encode? t).map (a ++ ·) := by
  simp only [encode?, text?_append]
  cases text? s with
  | none => rfl
  | some a =>
    cases text? t with
    | none => rfl
    | some b => exact congrArg some List.flatMap_append

/-! ### Operations of texts -/

/-- Letters with a space for each white-space character among them. -/
def sanitize (s : List Letter) : List Letter :=
  s.map fun
    | .char c => .char (if Text.isBlank c then ' ' else c)
    | .half unit => .half unit

/-- Letters cut at the first occurrence of a character: those before it, and those after it if it
occurs. -/
def cut (sep : Char) : List Letter → List Letter × Option (List Letter)
  | [] => ([], none)
  | l :: s =>
    if l = .char sep then ([], some s)
    else
      let (before, after) := cut sep s
      (l :: before, after)

/-- The lower case of letters behind a word, whose characters are given backwards.  A half of a
pair belongs to no word. -/
def lowerFrom (word : Text) : List Letter → List Letter
  | [] => ofText (Text.lower word.reverse)
  | .char c :: s => lowerFrom (c :: word) s
  | .half unit :: s => ofText (Text.lower word.reverse) ++ .half unit :: lowerFrom [] s

/-- Letters in lower case. -/
def lower (s : List Letter) : List Letter := lowerFrom [] s

/-- The pieces of letters between the occurrences of a character. -/
def splitOn (sep : Char) : List Letter → List (List Letter)
  | [] => [[]]
  | l :: s =>
    if l = .char sep then [] :: splitOn sep s
    else match splitOn sep s with
      | [] => [[l]]
      | piece :: pieces => (l :: piece) :: pieces

/-- Letters without the trailing occurrences of a character. -/
def dropTrailing (c : Char) (s : List Letter) : List Letter :=
  (s.reverse.dropWhile (· = .char c)).reverse

/-- The lines of letters, the newlines behind the last one left out. -/
def lines (s : List Letter) : List (List Letter) := splitOn '\n' (dropTrailing '\n' s)

theorem cut_ofText (sep : Char) (s : Text) : cut sep (ofText s) =
    (ofText (Text.cut sep s).1, (Text.cut sep s).2.map ofText) := by
  induction s with
  | nil => rfl
  | cons c s ih =>
    show cut sep (.char c :: ofText s) = _
    rw [cut, Text.cut, ih]
    by_cases h : c = sep
    · rw [if_pos h, if_pos (congrArg Letter.char h)]
      rfl
    · rw [if_neg h, if_neg fun hc => h (Letter.char.inj hc)]
      rfl

theorem lower_ofText (s : Text) : lower (ofText s) = ofText (Text.lower s) := by
  have hfrom (word : Text) : lowerFrom word (ofText s) = ofText (Text.lower (word.reverse ++ s)) := by
    induction s generalizing word with
    | nil => exact congrArg (ofText <| Text.lower ·) (List.append_nil _).symm
    | cons c s ih =>
      show lowerFrom (c :: word) (ofText s) = _
      rw [ih, List.reverse_cons, List.append_assoc]
      rfl
  exact hfrom []

end Letter

end ServerPages
