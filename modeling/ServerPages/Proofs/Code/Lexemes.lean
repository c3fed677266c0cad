import ServerPages.Code.Lexer

/-!
# Lexemes of printed code

Where a program spells a word, an operator, a number or a string, and what follows cannot belong to
it, that lexeme is read and no more: `lexeme_word`, `lexeme_mark`, `lexeme_digits`,
`lexeme_quoted` and `lexeme_tripled`.
-/

namespace ServerPages

namespace Code

variable {c e q : Char} {s t u : Text}

/-- A text that begins with no sign of its own is a number, a string, an operator or a name. -/
theorem lexeme_cons (hb : c ≠ '\\') (hn : c ≠ '\n') (hr : c ≠ '\r') (hs : c ≠ '#') (d : Dialect) :
    lexeme d (c :: t) =
      let number := numberLength (c :: t)
      if number ≠ 0 then
        if d.strict ∧ !mayFollowNumber d ((c :: t).take number) ((c :: t).drop number) then
          .fault .malformed
        else .token .number number
      else
        match (stringOpening? (c :: t)).bind (stringLexeme · (c :: t)) with
        | some l => l
        | none =>
          if operatorLength (c :: t) ≠ 0 then .token .operator (operatorLength (c :: t))
          else nameLexeme d (c :: t) := by
  unfold lexeme
  split
  · next h => exact absurd (List.cons.inj h).1 hb
  · next h => exact absurd (List.cons.inj h).1 hb
  · next h => exact absurd (List.cons.inj h).1 hn
  · next h => exact absurd (List.cons.inj h).1 hr
  · next h => exact absurd (List.cons.inj h).1 hs
  · rfl

theorem numberLength_eq_zero (hd : isDigit c = false) (hp : c ≠ '.') :
    numberLength (c :: t) = 0 := by
  have hrun : digitRun isDigit (c :: t) = 0 := by simp [digitRun, hd]
  unfold numberLength
  rw [hrun]
  simp only [List.drop_zero]
  split
  · next h => exact absurd (List.cons.inj h).1 hp
  · rfl

/-! ### What opens a string -/

private theorem isPlainWord_toLower (h : Text.isPlainWord c.toLower = true) :
    Text.isPlainWord c = true := by
  by_cases hc : c.val ≥ 'A'.val ∧ c.val ≤ 'Z'.val
  · have hupper : 'A' ≤ c ∧ c ≤ 'Z' := hc
    simp [Text.isPlainWord, hupper.1, hupper.2]
  · have hsame : c.toLower = c := dif_neg hc
    rwa [hsame] at h

/-- The letters before the mark of a string are letters of words. -/
theorem isPlainWord_of_isStringPrefix (h : isStringPrefix s = true) (hc : c ∈ s) :
    Text.isPlainWord c = true := by
  have hwords : ["", "b", "r", "u", "f", "br", "rb", "fr", "rf"].all
      (fun w => w.toList.all Text.isPlainWord) = true := by decide
  rw [isStringPrefix, List.any_eq_true] at h
  obtain ⟨w, hw, heq⟩ := h
  have hmem : c.toLower ∈ w.toList := by
    rw [← of_decide_eq_true heq]
    exact List.mem_map_of_mem hc
  exact isPlainWord_toLower (List.all_eq_true.1 (List.all_eq_true.1 hwords w hw) _ hmem)

theorem isPlainWord_quote (h : q = '"' ∨ q = '\'') : Text.isPlainWord q = false := by
  obtain rfl | rfl := h <;> rfl

/-- No string begins where a mark stands neither first nor behind letters. -/
theorem stringOpening?_eq_none
    (h : ∀ p r, c :: t = p ++ r → (∀ a ∈ p, Text.isPlainWord a = true) →
      ∀ q ∈ r.head?, ¬(q = '"' ∨ q = '\'')) : stringOpening? (c :: t) = none := by
  rw [stringOpening?, List.findSome?_eq_none_iff]
  intro n _
  cases hr : (c :: t).drop n with
  | nil => rfl
  | cons q r =>
    refine if_neg ?_
    rintro ⟨hq, hp⟩
    refine h ((c :: t).take n) (q :: r) ?_ (fun a => isPlainWord_of_isStringPrefix hp) q rfl hq
    rw [← hr, List.take_append_drop]

/-! ### Words -/

theorem isDigit_of_not_isPlainWord (h : Text.isPlainWord c = false) : isDigit c = false := by
  simp only [Text.isPlainWord, Bool.or_eq_false_iff] at h
  exact h.1.1.1

/-- What may stand behind a word: a character of ASCII that neither goes on with the word nor opens
a string. -/
def endsWord (e : Char) : Bool :=
  !Dialect.strict'.isNameChar e && e != '"' && e != '\''

/-- Names that are spelled in ASCII. -/
def isPlainName (s : Text) : Bool := s.all Text.isPlainWord && Text.isIdentifier s

/-- No operator is read where none begins. -/
theorem operatorLength_eq_zero (h : ∀ op ∈ operators, op.head? ≠ some c) :
    operatorLength (c :: t) = 0 := by
  have hnone : operators.find? (fun op => Text.beginsWith op (c :: t)) = none := by
    rw [List.find?_eq_none]
    intro op hop hbegins
    cases op with
    | nil => exact absurd hop (by decide)
    | cons a r =>
      by_cases hac : a = c
      · exact h _ hop (by rw [List.head?_cons, hac])
      · simp [Text.beginsWith, Text.after?, hac] at hbegins
  rw [operatorLength, hnone]

theorem operatorLength_of_isPlainWord (h : Text.isPlainWord c = true) :
    operatorLength (c :: t) = 0 := by
  have hfirst : ∀ op ∈ operators, op.head?.map Text.isPlainWord = some false := by decide
  refine operatorLength_eq_zero fun op hop hhead => ?_
  have hop := hfirst op hop
  rw [hhead, Option.map_some, h] at hop
  cases hop

theorem lexeme_word (hs : isPlainName s = true) (he : endsWord e = true) :
    lexeme .strict' (s ++ e :: u) = .token .name s.length := by
  simp only [isPlainName, Bool.and_eq_true, List.all_eq_true] at hs
  obtain ⟨hword, hid⟩ := hs
  simp only [endsWord, Bool.and_eq_true, Bool.not_eq_true', bne_iff_ne] at he
  obtain ⟨⟨hname, hq1⟩, hq2⟩ := he
  obtain _ | ⟨c, s⟩ := s
  · cases hid
  have hc : Text.isPlainWord c = true := hword c List.mem_cons_self
  -- no rule before that for names applies: neither signs, numbers nor strings begin so
  have hdigit : isDigit c = false := by
    rw [Bool.eq_false_iff]
    intro hd
    have hrange : '0' ≤ c ∧ c ≤ '9' := by simpa [isDigit] using hd
    have hlow : c.toNat < 0x80 := Nat.lt_of_le_of_lt hrange.2 (by decide)
    simp [Text.isIdentifier, Text.isIdentifierStart, hlow, hrange.1, hrange.2] at hid
  have hsigns : c ∉ ['\\', '\n', '\r', '#', '.'] := by
    intro hmem
    simp only [List.mem_cons, List.not_mem_nil, or_false] at hmem
    rcases hmem with rfl | rfl | rfl | rfl | rfl <;> cases hc
  simp only [List.mem_cons, List.not_mem_nil, or_false, not_or] at hsigns
  obtain ⟨h1, h2, h3, h4, h5⟩ := hsigns
  have hplain : Text.isPlainWord e = false := by
    simp only [Dialect.strict', Bool.or_eq_false_iff] at hname
    exact hname.1
  have hopening : stringOpening? (c :: (s ++ e :: u)) = none := by
    refine stringOpening?_eq_none fun p r hpr hp q hq hquote => ?_
    obtain ⟨a, rfl, hr⟩ | ⟨a, hs, rfl⟩ := List.append_eq_append_iff.1 (show
        (c :: s) ++ e :: u = p ++ r from hpr)
    · -- the letters go beyond the word
      cases a with
      | nil =>
        rw [List.nil_append] at hr
        rw [← hr] at hq
        obtain rfl := Option.some.inj hq
        exact hquote.elim hq1 hq2
      | cons b a =>
        have hbe : e = b := (List.cons.inj hr).1
        rw [hp e (by simp [hbe])] at hplain
        cases hplain
    · -- the mark stands inside the word
      cases a with
      | nil =>
        obtain rfl := Option.some.inj hq
        exact hquote.elim hq1 hq2
      | cons b a =>
        obtain rfl := Option.some.inj hq
        have hb : Text.isPlainWord b = true := hword b (hs ▸ by simp)
        rw [isPlainWord_quote hquote] at hb
        cases hb
  have htake : (c :: (s ++ e :: u)).takeWhile Dialect.strict'.isNameChar = c :: s := by
    have hall : ∀ a ∈ c :: s, Dialect.strict'.isNameChar a = true := fun a ha => by
      simp [Dialect.strict', hword a ha]
    rw [← List.cons_append, List.takeWhile_append_of_pos hall,
      List.takeWhile_cons_of_neg (by simp [hname]), List.append_nil]
  rw [List.cons_append, lexeme_cons h1 h2 h3 h4, numberLength_eq_zero hdigit h5]
  simp only [ne_eq, not_true_eq_false, if_false, hopening, Option.bind_none,
    operatorLength_of_isPlainWord hc, nameLexeme, htake, hid]
  rfl

/-! ### Operators -/

/-- The operators of calls, definitions and headers, and the sign of a number. -/
def marks : List Text := ["(", ")", ",", ".", ":", "=", "-", "**"].map String.toList

/-- Whether a character may stand behind such an operator: it neither goes on with the operator nor
makes a number of a point. -/
def endsMark (op : Text) (e : Char) : Bool :=
  e != '=' && e != '.' && e != '>' && (op != ['.'] || !isDigit e)

private theorem operatorLength_mark (hs : s ∈ marks) (he : endsMark s e = true) :
    operatorLength (s ++ e :: u) = s.length := by
  simp only [endsMark, Bool.and_eq_true, bne_iff_ne, ne_eq] at he
  obtain ⟨⟨⟨h1, h2⟩, h3⟩, -⟩ := he
  simp only [marks, List.map_cons, List.map_nil, List.mem_cons, List.not_mem_nil, or_false] at hs
  rcases hs with rfl | rfl | rfl | rfl | rfl | rfl | rfl | rfl <;>
    simp [operatorLength, operators, List.find?, Text.beginsWith, Text.after?, Ne.symm h1,
      Ne.symm h2, Ne.symm h3]

theorem lexeme_mark (hs : s ∈ marks) (he : endsMark s e = true) :
    lexeme .strict' (s ++ e :: u) = .token .operator s.length := by
  have hlen := operatorLength_mark (u := u) hs he
  have hfirst : ∀ s ∈ marks, ∃ c t, s = c :: t ∧ c ≠ '\\' ∧ c ≠ '\n' ∧ c ≠ '\r' ∧ c ≠ '#' ∧
      Text.isPlainWord c = false ∧ ¬(c = '"' ∨ c = '\'') := by
    simp only [marks, List.map_cons, List.map_nil, List.mem_cons, List.not_mem_nil, or_false]
    rintro s (rfl | rfl | rfl | rfl | rfl | rfl | rfl | rfl) <;> exact ⟨_, _, rfl, by decide⟩
  obtain ⟨c, t, rfl, h1, h2, h3, h4, hc, hquote⟩ := hfirst s hs
  have hnumber : numberLength (c :: t ++ e :: u) = 0 := by
    by_cases hp : c = '.'
    · have hpoint : ∀ s ∈ marks, s.head? = some '.' → s = ['.'] := by decide
      obtain ⟨-, rfl⟩ := List.cons.inj (hpoint _ hs (by rw [hp]; rfl))
      have hdigit : isDigit e = false := by
        simp only [endsMark, hp, Bool.and_eq_true] at he
        simpa using he.2
      have hfraction : digitRun isDigit (e :: u) = 0 := by simp [digitRun, hdigit]
      have hwhole : digitRun isDigit ('.' :: e :: u) = 0 := rfl
      rw [hp, List.singleton_append, numberLength, hwhole]
      simp [hfraction]
    · exact numberLength_eq_zero (isDigit_of_not_isPlainWord hc) hp
  have hopening : stringOpening? (c :: (t ++ e :: u)) = none := by
    refine stringOpening?_eq_none fun p r hpr hp q hq hq' => ?_
    cases p with
    | nil =>
      rw [List.nil_append] at hpr
      rw [← hpr] at hq
      obtain rfl := Option.some.inj hq
      exact hquote hq'
    | cons b p =>
      rw [← (List.cons.inj hpr).1] at hp
      rw [hp c List.mem_cons_self] at hc
      cases hc
  rw [List.cons_append, lexeme_cons h1 h2 h3 h4, ← List.cons_append, hnumber, hlen]
  simp [hopening]

/-! ### Numbers -/

/-- Digits as an integer is written: without leading zeros. -/
structure IsNumeral (s : Text) : Prop where
  digits : ∀ c ∈ s, isDigit c = true
  ne_nil : s ≠ []
  no_leading_zero : s.head? = some '0' → s = ['0']

/-- What may stand behind a number. -/
def endsNumber (e : Char) : Bool := e == ',' || e == ')'

private theorem digitTail_append {p : Char → Bool} (hs : ∀ c ∈ s, p c = true) (hu : p '_' = false)
    (he : p e = false) (hune : e ≠ '_') : digitTail p (s ++ e :: u) = s.length := by
  induction s with
  | nil => simp [digitTail, he, hune]
  | cons c s ih =>
    have hc : c ≠ '_' := by
      rintro rfl
      rw [hs '_' List.mem_cons_self] at hu
      cases hu
    have htail : digitTail p (c :: (s ++ e :: u)) = 1 + digitTail p (s ++ e :: u) := by
      rw [digitTail.eq_def]
      split
      · next h => cases h
      · next h => exact absurd (List.cons.inj h).1 hc
      · next h =>
        obtain ⟨rfl, rfl⟩ := List.cons.inj h
        rw [if_pos (hs c List.mem_cons_self)]
    rw [List.cons_append, htail, ih fun a ha => hs a (List.mem_cons_of_mem c ha), List.length_cons,
      Nat.add_comm]

private theorem digitRun_append {p : Char → Bool} (hne : s ≠ []) (hs : ∀ c ∈ s, p c = true)
    (hu : p '_' = false) (he : p e = false) (hune : e ≠ '_') :
    digitRun p (s ++ e :: u) = s.length := by
  obtain ⟨c, s, rfl⟩ := List.exists_cons_of_ne_nil hne
  rw [List.cons_append, digitRun, if_pos (hs c List.mem_cons_self),
    digitTail_append (fun a ha => hs a (List.mem_cons_of_mem c ha)) hu he hune, List.length_cons,
    Nat.add_comm]

private theorem numberLength_digits (hs : IsNumeral s) (he : endsNumber e = true) :
    numberLength (s ++ e :: u) = s.length := by
  have hcases : e = ',' ∨ e = ')' := by simpa [endsNumber] using he
  have hdigit : isDigit e = false := by obtain rfl | rfl := hcases <;> rfl
  have hunder : e ≠ '_' := by obtain rfl | rfl := hcases <;> decide
  have hrun : digitRun isDigit (s ++ e :: u) = s.length :=
    digitRun_append hs.ne_nil hs.digits rfl hdigit hunder
  have hinteger : integerLength (s ++ e :: u) = s.length := by
    rw [integerLength.eq_def]
    split
    · -- a zero, behind which no base is named
      next b t h =>
      have hzero : s = ['0'] := by
        refine hs.no_leading_zero ?_
        obtain ⟨c, r, rfl⟩ := List.exists_cons_of_ne_nil hs.ne_nil
        rw [(List.cons.inj h).1]
        rfl
      subst hzero
      obtain ⟨rfl, rfl⟩ := List.cons.inj (List.cons.inj h).2
      obtain rfl | rfl := hcases <;> rfl
    · next h =>
      obtain ⟨c, r, rfl⟩ := List.exists_cons_of_ne_nil hs.ne_nil
      simp at h
    · exact hrun
  have hexponent : exponentLength (e :: u) = 0 := by
    obtain rfl | rfl := hcases <;> rfl
  have himaginary : imaginaryMark (e :: u) = 0 := by
    obtain rfl | rfl := hcases <;> rfl
  have hne : s.length ≠ 0 := fun h => hs.ne_nil (List.length_eq_zero_iff.1 h)
  rw [numberLength, hrun, List.drop_left]
  simp only
  split
  · next h =>
    obtain rfl | rfl := hcases <;> cases h
  · rw [if_neg hne, hexponent, if_pos rfl, himaginary, if_neg (by decide), hinteger]

theorem lexeme_digits (hs : IsNumeral s) (he : endsNumber e = true) :
    lexeme .strict' (s ++ e :: u) = .token .number s.length := by
  have hnumber := numberLength_digits (u := u) hs he
  have hcases : e = ',' ∨ e = ')' := by simpa [endsNumber] using he
  have hfollow : mayFollowNumber .strict' s (e :: u) = true := by
    obtain rfl | rfl := hcases <;> rfl
  obtain ⟨c, t, rfl⟩ := List.exists_cons_of_ne_nil hs.ne_nil
  have hc : isDigit c = true := hs.digits c List.mem_cons_self
  have hsign : ∀ a, isDigit a = false → c ≠ a := by
    rintro a ha rfl
    rw [hc] at ha
    cases ha
  rw [List.cons_append, lexeme_cons (hsign _ rfl) (hsign _ rfl) (hsign _ rfl) (hsign _ rfl),
    ← List.cons_append, hnumber]
  simp only [List.take_left, List.drop_left, hfollow]
  simp

/-! ### Strings -/

/-- Whether a text may stand between marks on one line: no mark in it but behind a backslash, and
no backslash before a line end. -/
def isSpelled (q : Char) : Text → Bool
  | [] => true
  | '\\' :: d :: s => d != '\n' && d != '\r' && isSpelled q s
  | c :: s => c != q && c != '\n' && c != '\\' && isSpelled q s

theorem ne_of_isSpelled (hq : q ≠ '\\') (h : isSpelled q (c :: s) = true) : c ≠ q := by
  rintro rfl
  rw [isSpelled.eq_def] at h
  split at h
  · next h' => cases h'
  · next h' => exact hq (List.cons.inj h').1
  · next h' => simp [(List.cons.inj h').1] at h

private theorem lineString_of_isSpelled (hq : q ≠ '\\') (h : isSpelled q s = true) :
    lineString q (s ++ q :: u) = .closed (s.length + 1) := by
  fun_induction isSpelled q s with
  | case1 =>
    rw [List.nil_append, lineString.eq_def]
    simp
  | case2 d s ih =>
    simp only [Bool.and_eq_true, bne_iff_ne, ne_eq] at h
    obtain ⟨⟨hn, hr⟩, hs⟩ := h
    rw [List.cons_append, List.cons_append, lineString.eq_def]
    simp only [Ne.symm hq, if_false, if_true, Char.reduceEq]
    split
    · next h => exact absurd (List.cons.inj h).1 hn
    · next h => exact absurd (List.cons.inj h).1 hr
    · next h =>
      obtain ⟨rfl, rfl⟩ := List.cons.inj h
      rw [ih hs]
      simp [LineString.after]
      omega
    · next h => cases h
  | case3 c s _ ih =>
    simp only [Bool.and_eq_true, bne_iff_ne, ne_eq] at h
    obtain ⟨⟨⟨hc, hn⟩, hb⟩, hs⟩ := h
    rw [List.cons_append, lineString.eq_def]
    simp only [hc, hn, hb, if_false]
    rw [ih hs]
    simp [LineString.after, Nat.add_comm]

theorem stringOpening?_quote (hq : q = '"' ∨ q = '\'') :
    stringOpening? (q :: t) = some ⟨0, q, Text.beginsWith [q, q] t⟩ := by
  have hp : isStringPrefix [] = true := rfl
  simp [stringOpening?, hq, hp]

/-- A mark begins a string. -/
theorem lexeme_quote {l : Lexeme} (hq : q = '"' ∨ q = '\'')
    (h : stringLexeme ⟨0, q, Text.beginsWith [q, q] t⟩ (q :: t) = some l) :
    lexeme .strict' (q :: t) = l := by
  have hsign : ∀ a, a ≠ '"' ∧ a ≠ '\'' → q ≠ a := by
    rintro a ⟨h1, h2⟩ rfl
    exact hq.elim h1 h2
  have hdigit : isDigit q = false := by obtain rfl | rfl := hq <;> rfl
  rw [lexeme_cons (hsign _ (by decide)) (hsign _ (by decide)) (hsign _ (by decide))
    (hsign _ (by decide)), numberLength_eq_zero hdigit (hsign _ (by decide)),
    stringOpening?_quote hq, Option.bind_some, h]
  rfl

theorem lexeme_quoted (hq : q = '"' ∨ q = '\'') (hs : isSpelled q s = true) (he : e ≠ q) :
    lexeme .strict' (q :: (s ++ q :: e :: u)) = .token .string (s.length + 2) := by
  have hb : q ≠ '\\' := by obtain rfl | rfl := hq <;> decide
  have hsingle : Text.beginsWith [q, q] (s ++ q :: e :: u) = false := by
    obtain _ | ⟨c, s⟩ := s
    · simp [Text.beginsWith, Text.after?, Ne.symm he]
    · simp [Text.beginsWith, Text.after?, Ne.symm (ne_of_isSpelled hb hs)]
  refine lexeme_quote hq ?_
  simp only [stringLexeme, StringOpening.length, hsingle]
  simp [lineString_of_isSpelled hb hs]
  omega

private theorem tripleRest_append (hs : ∀ c ∈ s, c ≠ q ∧ c ≠ '\\') (hq : q ≠ '\\') :
    tripleRest q (s ++ q :: q :: q :: u) = some (s.length + 3) := by
  induction s with
  | nil =>
    rw [List.nil_append, tripleRest.eq_def]
    simp [hq, Text.beginsWith, Text.after?]
  | cons c s ih =>
    obtain ⟨hc, hb⟩ := hs c List.mem_cons_self
    rw [List.cons_append, tripleRest.eq_def]
    simp only [hb, if_false, hc, false_and]
    rw [ih fun a ha => hs a (List.mem_cons_of_mem c ha)]
    simp

theorem lexeme_tripled (hq : q = '"' ∨ q = '\'') (hs : ∀ c ∈ s, c ≠ q ∧ c ≠ '\\') :
    lexeme .strict' (q :: q :: q :: (s ++ q :: q :: q :: u)) = .token .string (s.length + 6) := by
  have hb : q ≠ '\\' := by obtain rfl | rfl := hq <;> decide
  have htriple : Text.beginsWith [q, q] (q :: q :: (s ++ q :: q :: q :: u)) = true := by
    simp [Text.beginsWith, Text.after?]
  refine lexeme_quote hq ?_
  simp only [stringLexeme, StringOpening.length, htriple]
  simp [tripleRest_append hs hb]
  omega

end Code

end ServerPages
