import ServerPages.Json.Basic

/-!
# Reading JSON

`Json.read` takes one value off the front of a text and leaves the rest unread.  A refusal
carries the text from the offending place on, so the place and whether more text could help can
both be told from it.  Besides the grammar of JSON it takes the constants `NaN`, `Infinity` and
`-Infinity`.  Nesting is bounded, and so is the number of digits of an integer.

Each reader returns what it read together with a rest that is shorter than its input.
-/

namespace ServerPages

namespace Json

/-- What is wrong at the place of a refusal. -/
inductive Complaint where
  | expectingValue
  | expectingName
  | expectingColon
  | expectingComma
  /-- A string is not closed; the place is its opening quote. -/
  | openString
  | controlCharacter
  | badEscape
  /-- A `\u` escape lacks its four digits; the place is its `u`. -/
  | badUnicodeEscape
  deriving DecidableEq, Repr

/-- The wording of a complaint. -/
def Complaint.text : Complaint → Text
  | .expectingValue => "Expecting value".toList
  | .expectingName => "Expecting property name enclosed in double quotes".toList
  | .expectingColon => "Expecting ':' delimiter".toList
  | .expectingComma => "Expecting ',' delimiter".toList
  | .openString => "Unterminated string starting at".toList
  | .controlCharacter => "Invalid control character at".toList
  | .badEscape => "Invalid \\escape".toList
  | .badUnicodeEscape => "Invalid \\uXXXX escape".toList

/-- Why a text is refused. -/
inductive Refusal where
  /-- A complaint, and the text from its place on. -/
  | refused (complaint : Complaint) (rest : Text)
  /-- Containers nest beyond the bound. -/
  | tooDeep
  /-- An integer has too many digits. -/
  | tooManyDigits (count : Nat)
  deriving DecidableEq, Repr

/-- What a reader takes off the front of a text, and the shorter rest. -/
abbrev Taken (α : Type) (s : Text) := { p : α × Text // p.2.length < s.length }

/-- A reader of values. -/
abbrev ValueReader := (s : Text) → Except Refusal (Taken Json s)

/-- The blanks between the parts of a message. -/
def isSpace (c : Char) : Bool := c == ' ' || c == '\t' || c == '\n' || c == '\r'

/-- A text without the blanks at its beginning. -/
def skipSpace (s : Text) : Text := s.dropWhile isSpace

private theorem length_skipSpace_le (s : Text) : (skipSpace s).length ≤ s.length := by
  unfold skipSpace
  exact (List.dropWhile_suffix _).length_le

/-! ### Strings -/

/-- The value of a hexadecimal digit. -/
def hexDigit? (c : Char) : Option Nat :=
  if '0' ≤ c && c ≤ '9' then some (c.toNat - '0'.toNat)
  else if 'a' ≤ c && c ≤ 'f' then some (c.toNat - 'a'.toNat + 10)
  else if 'A' ≤ c && c ≤ 'F' then some (c.toNat - 'A'.toNat + 10)
  else none

/-- The number that four hexadecimal digits write. -/
def hexFour? (a b c d : Char) : Option Nat := do
  return (((← hexDigit? a) * 16 + (← hexDigit? b)) * 16 + (← hexDigit? c)) * 16 + (← hexDigit? d)

/-- Whether a code unit is the first half of a surrogate pair. -/
def isHigh (n : Nat) : Bool := 0xD800 ≤ n && n ≤ 0xDBFF

/-- Whether a code unit is the second half of a surrogate pair. -/
def isLow (n : Nat) : Bool := 0xDC00 ≤ n && n ≤ 0xDFFF

/-- The unit with a code. -/
def letterOf (n : Nat) : Letter :=
  if isHigh n || isLow n then .half n else .char (Char.ofNat n)

/-- The character of a surrogate pair. -/
def joinPair (high low : Nat) : Letter :=
  .char (Char.ofNat (0x10000 + (high - 0xD800) * 0x400 + (low - 0xDC00)))

/-- The character a one-letter escape writes. -/
def escaped? : Char → Option Char
  | '"' => some '"'
  | '\\' => some '\\'
  | '/' => some '/'
  | 'b' => some '\x08'
  | 'f' => some '\x0c'
  | 'n' => some '\n'
  | 'r' => some '\r'
  | 't' => some '\t'
  | _ => none

/-- The second half of a surrogate pair, if a text begins with an escape that writes one and a
character follows it. -/
def secondHalf? (s : Text) : Except Refusal (Option (Taken Nat s)) :=
  match s with
  | '\\' :: 'u' :: a :: b :: c :: d :: e :: t =>
    match hexFour? a b c d with
    | none => .error (.refused .badUnicodeEscape ('u' :: a :: b :: c :: d :: e :: t))
    | some n => if isLow n then .ok (some ⟨(n, e :: t), by simp⟩) else .ok none
  | _ => .ok none

/-- Reads a `\u` escape after its `u`.  A character must follow the four digits. -/
def readCode (s : Text) : Except Refusal (Taken Letter s) :=
  match s with
  | a :: b :: c :: d :: e :: t =>
    match hexFour? a b c d with
    | none => .error (.refused .badUnicodeEscape ('u' :: a :: b :: c :: d :: e :: t))
    | some n =>
      if isHigh n then
        match secondHalf? (e :: t) with
        | .error r => .error r
        | .ok none => .ok ⟨(letterOf n, e :: t), by simp⟩
        | .ok (some ⟨(low, r), h⟩) => .ok ⟨(joinPair n low, r), by simp at h ⊢; omega⟩
      else .ok ⟨(letterOf n, e :: t), by simp⟩
  | s => .error (.refused .badUnicodeEscape ('u' :: s))

/-- Reads an escape after its backslash; `opening` is the text from the quote of the string
on. -/
def readEscape (opening s : Text) : Except Refusal (Taken Letter s) :=
  match s with
  | [] => .error (.refused .openString opening)
  | c :: t =>
    if c = 'u' then
      match readCode t with
      | .error r => .error r
      | .ok ⟨(l, r), h⟩ => .ok ⟨(l, r), by simp at h ⊢; omega⟩
    else
      match escaped? c with
      | none => .error (.refused .badEscape ('\\' :: c :: t))
      | some e => .ok ⟨(.char e, t), by simp⟩

/-- Reads a string after its opening quote, through the closing one; `opening` is the text from
the opening quote on. -/
def readString (opening s : Text) : Except Refusal (Taken (List Letter) s) :=
  match s with
  | [] => .error (.refused .openString opening)
  | c :: t =>
    if c = '"' then .ok ⟨([], t), Nat.lt_succ_self _⟩
    else if c = '\\' then
      match readEscape opening t with
      | .error r => .error r
      | .ok ⟨(l, r), h⟩ =>
        have : r.length < (c :: t).length := Nat.lt_succ_of_lt h
        match readString opening r with
        | .error e => .error e
        | .ok ⟨(ls, rest), h'⟩ => .ok ⟨(l :: ls, rest), Nat.lt_trans h' this⟩
    else if c.toNat < 0x20 then .error (.refused .controlCharacter (c :: t))
    else
      match readString opening t with
      | .error r => .error r
      | .ok ⟨(ls, rest), h⟩ => .ok ⟨(.char c :: ls, rest), Nat.lt_succ_of_lt h⟩
termination_by s.length
decreasing_by
  · exact this
  · exact Nat.lt_succ_self _

/-! ### Numbers -/

/-- The parts of a number as written. -/
structure Numeral where
  negative : Bool
  whole : Text
  fraction : Text
  /-- Sign and digits of the exponent. -/
  exponent : Option (Bool × Text)

/-- The digits before the point: a lone zero, or digits that do not begin with zero. -/
def wholePart (s : Text) : Option (Taken Text s) :=
  match s with
  | [] => none
  | c :: s =>
    if c = '0' then some ⟨(['0'], s), Nat.lt_succ_self _⟩
    else if Decimal.isDigit c then
      some ⟨(c :: s.takeWhile Decimal.isDigit, s.dropWhile Decimal.isDigit),
        Nat.lt_succ_of_le (List.dropWhile_suffix Decimal.isDigit).length_le⟩
    else none

/-- The digits after the point, if a point with a digit follows. -/
def fractionPart : Text → Text × Text
  | '.' :: d :: s =>
    if Decimal.isDigit d then
      (d :: s.takeWhile Decimal.isDigit, s.dropWhile Decimal.isDigit)
    else ([], '.' :: d :: s)
  | s => ([], s)

/-- The exponent, if a mark, perhaps a sign, and a digit follow. -/
def exponentPart : Text → Option (Bool × Text) × Text
  | [] => (none, [])
  | c :: s =>
    if c = 'e' || c = 'E' then
      let (negative, ds) := Decimal.sign s
      let digits := ds.takeWhile Decimal.isDigit
      if digits.isEmpty then (none, c :: s)
      else (some (negative, digits), ds.dropWhile Decimal.isDigit)
    else (none, c :: s)

private theorem length_fractionPart_le (s : Text) : (fractionPart s).2.length ≤ s.length := by
  unfold fractionPart
  split
  · next d s =>
    split
    · have := (List.dropWhile_suffix Decimal.isDigit (l := s)).length_le
      simp; omega
    · simp
  · simp

private theorem length_exponentPart_le (s : Text) : (exponentPart s).2.length ≤ s.length := by
  cases s with
  | nil => simp [exponentPart]
  | cons c s =>
    have hs : (Decimal.sign s).2.length ≤ s.length := by
      unfold Decimal.sign; split <;> simp
    have := (List.dropWhile_suffix Decimal.isDigit (l := (Decimal.sign s).2)).length_le
    simp only [exponentPart]
    split
    · split
      · simp
      · simp; omega
    · simp

/-- Reads a number, if the text begins with one. -/
def numeral? (s : Text) : Option (Taken Numeral s) :=
  let (negative, body) := match s with
    | '-' :: t => (true, t)
    | t => (false, t)
  if hb : body.length ≤ s.length then
    match wholePart body with
    | none => none
    | some ⟨(whole, r), h⟩ =>
      let f := fractionPart r
      let e := exponentPart f.2
      some ⟨(⟨negative, whole, f.1, e.1⟩, e.2), by
        have h1 := length_fractionPart_le r
        have h2 := length_exponentPart_le f.2
        simp at h ⊢
        exact Nat.lt_of_le_of_lt (Nat.le_trans h2 h1) (by omega)⟩
  else none

/-- The value of a number: an integer if it has neither fraction nor exponent. -/
def Numeral.value (n : Numeral) : Except Refusal Json :=
  match n.fraction, n.exponent with
  | [], none =>
    if Decimal.digitLimit < n.whole.length then .error (.tooManyDigits n.whole.length)
    else .ok (.int (Decimal.signed n.negative (Decimal.value n.whole)))
  | fraction, exponent =>
    let e : Int := match exponent with
      | none => 0
      | some (negative, digits) => Decimal.signed negative (Decimal.value digits)
    .ok (.real (Binary64.ofDecimal n.negative (Decimal.value (n.whole ++ fraction))
      (e - fraction.length)))

/-- The constants and what they stand for. -/
def constants : List (Text × Json) :=
  [("null".toList, .null), ("true".toList, .bool true), ("false".toList, .bool false),
   ("NaN".toList, .real .nan), ("Infinity".toList, .real (.infinite false)),
   ("-Infinity".toList, .real (.infinite true))]

/-- The constant a text begins with. -/
def constant? (s : Text) : Option (Json × Text) :=
  constants.findSome? fun (name, value) => (Text.after? name s).map (value, ·)

/-- Reads a constant or a number. -/
def readScalar : ValueReader := fun s =>
  match constant? s with
  | some (value, rest) =>
    if h : rest.length < s.length then .ok ⟨(value, rest), h⟩
    else .error (.refused .expectingValue s)
  | none =>
    match numeral? s with
    | none => .error (.refused .expectingValue s)
    | some ⟨(n, rest), h⟩ => n.value.map fun v => ⟨(v, rest), h⟩

/-! ### Containers -/

/-- Reads the items of an array that has some, from the first item on, through the closing
bracket. -/
def readItems (value : ValueReader) (s : Text) : Except Refusal (Taken (List Json) s) :=
  match value s with
  | .error r => .error r
  | .ok ⟨(v, r), h⟩ =>
    have hr := length_skipSpace_le r
    match hs : skipSpace r with
    | ']' :: t => .ok ⟨([v], t), by rw [hs] at hr; simp at h hr ⊢; omega⟩
    | ',' :: t =>
      have ht := length_skipSpace_le t
      have : (skipSpace t).length < s.length := by rw [hs] at hr; simp at h hr ⊢; omega
      match readItems value (skipSpace t) with
      | .error e => .error e
      | .ok ⟨(vs, t'), h'⟩ => .ok ⟨(v :: vs, t'), by simp at h' ⊢; omega⟩
    | t => .error (.refused .expectingComma t)
termination_by s.length

/-- Reads the members of an object that has some, from the first name on, through the closing
brace. -/
def readMembers (value : ValueReader) (s : Text) :
    Except Refusal (Taken (List (List Letter × Json)) s) :=
  match hq : s with
  | '"' :: s₁ =>
    match readString s s₁ with
    | .error r => .error r
    | .ok ⟨(name, r₁), h₁⟩ =>
      have hr₁ := length_skipSpace_le r₁
      match hc : skipSpace r₁ with
      | ':' :: s₂ =>
        have hs₂ := length_skipSpace_le s₂
        match value (skipSpace s₂) with
        | .error r => .error r
        | .ok ⟨(v, r₂), h₂⟩ =>
          have hr₂ := length_skipSpace_le r₂
          match hd : skipSpace r₂ with
          | '}' :: t => .ok ⟨([(name, v)], t), by
              rw [hc] at hr₁; rw [hd] at hr₂; simp at h₁ h₂ hr₁ hr₂ ⊢; omega⟩
          | ',' :: t =>
            have ht := length_skipSpace_le t
            have : (skipSpace t).length < s.length := by
              subst hq; rw [hc] at hr₁; rw [hd] at hr₂; simp at h₁ h₂ hr₁ hr₂ ⊢; omega
            match readMembers value (skipSpace t) with
            | .error e => .error e
            | .ok ⟨(ms, t'), h'⟩ => .ok ⟨((name, v) :: ms, t'), by
                subst hq; simp at h' this ⊢; omega⟩
          | t => .error (.refused .expectingComma t)
      | t => .error (.refused .expectingColon t)
  | s => .error (.refused .expectingName s)
termination_by s.length
decreasing_by rw [← hq]; exact this

/-- Reads one value in which containers nest at most `depth` deep. -/
def readValue : Nat → ValueReader
  | depth, '"' :: s =>
    match readString ('"' :: s) s with
    | .error r => .error r
    | .ok ⟨(ls, rest), h⟩ => .ok ⟨(.string ls, rest), by simp at h ⊢; omega⟩
  | 0, '[' :: _ => .error .tooDeep
  | 0, '\x7b' :: _ => .error .tooDeep
  | depth + 1, '[' :: s =>
    have hk := length_skipSpace_le s
    match hs : skipSpace s with
    | ']' :: t => .ok ⟨(.array [], t), by rw [hs] at hk; simp at hk ⊢; omega⟩
    | t =>
      match readItems (readValue depth) t with
      | .error r => .error r
      | .ok ⟨(vs, rest), h⟩ => .ok ⟨(.array vs, rest), by rw [hs] at hk; simp at h hk ⊢; omega⟩
  | depth + 1, '\x7b' :: s =>
    have hk := length_skipSpace_le s
    match hs : skipSpace s with
    | '}' :: t => .ok ⟨(.object [], t), by rw [hs] at hk; simp at hk ⊢; omega⟩
    | t =>
      match readMembers (readValue depth) t with
      | .error r => .error r
      | .ok ⟨(ms, rest), h⟩ => .ok ⟨(ofMembers ms, rest), by rw [hs] at hk; simp at h hk ⊢; omega⟩
  | _, s => readScalar s

/-- How deep containers may nest in a message. -/
def nestingLimit : Nat := 990

/-- Reads the value a text begins with, and leaves the rest. -/
def read (s : Text) : Except Refusal (Json × Text) :=
  (readValue nestingLimit s).map (·.1)

end Json

end ServerPages
