import ServerPages.Proofs.Json.Strings

/-!
# Reading numbers

A number that is written down is read as its parts if nothing behind it continues it
(`NumberText.took_readScalar`). If it is cut short, what remains is a shorter number and perhaps
the beginning of a fraction or an exponent, or no more than a sign (`NumberText.cut`).
-/

namespace ServerPages

namespace Json

open Decimal (isDigit)

variable {rest s : Text}

/-- Nothing at the beginning of a text continues a number. -/
structure Stops (rest : Text) : Prop where
  digit : ∀ c ∈ rest.head?, isDigit c = false
  fraction : fractionPart rest = ([], rest)
  exponent : exponentPart rest = (none, rest)

/-! ### The parts of a number -/

/-- A row of digits ends where no digit follows. -/
theorem digits_append {ds : Text} (hds : ∀ c ∈ ds, isDigit c = true)
    (h : ∀ c ∈ rest.head?, isDigit c = false) :
    (ds ++ rest).takeWhile isDigit = ds ∧ (ds ++ rest).dropWhile isDigit = rest := by
  rw [List.takeWhile_append_of_pos hds, List.dropWhile_append_of_pos hds]
  cases rest with
  | nil => simp
  | cons c rest =>
    have hc := h c rfl
    simp [hc]

theorem ne_of_isDigit {d c : Char} (hd : isDigit d = true) (hc : isDigit c = false) : d ≠ c := by
  rintro rfl
  rw [hd] at hc
  cases hc

theorem Digits.exists_cons (ds : Digits) : ∃ d t, ds.text = d :: t ∧ isDigit d = true ∧
    ∀ c ∈ t, isDigit c = true := by
  obtain ⟨d, t, ht⟩ := List.exists_cons_of_ne_nil ds.ne_nil
  have hall := ds.all
  rw [ht] at hall
  exact ⟨d, t, ht, hall d List.mem_cons_self, fun c hc => hall c (List.mem_cons_of_mem _ hc)⟩

/-- A row of digits that is cut short, but not to nothing. -/
def Digits.cut (ds : Digits) (q : Text) (hne : q ≠ []) (hq : Cut q ds.text) : Digits :=
  ⟨q, hne, fun c hc => ds.all c (hq.isPrefix.subset hc)⟩

private theorem wholePart_append {ds : Digits} (hlead : ds.text = ['0'] ∨ ds.text.head? ≠ some '0')
    (h : ∀ c ∈ rest.head?, isDigit c = false) :
    (wholePart (ds.text ++ rest)).map (·.1) = some (ds.text, rest) := by
  rcases hlead with hzero | hlead
  · rw [hzero]
    rfl
  · obtain ⟨d, t, ht, hd, hall⟩ := ds.exists_cons
    rw [ht] at hlead ⊢
    have hne : d ≠ '0' := fun heq => hlead (heq ▸ rfl)
    obtain ⟨htake, hdrop⟩ := digits_append hall h
    rw [List.cons_append, wholePart, if_neg hne, if_pos hd, htake, Option.map_some]
    exact congrArg (fun r => some (d :: t, r)) hdrop

private theorem fractionPart_append {ds : Digits} (h : ∀ c ∈ rest.head?, isDigit c = false) :
    fractionPart ('.' :: (ds.text ++ rest)) = (ds.text, rest) := by
  obtain ⟨d, t, ht, hd, hall⟩ := ds.exists_cons
  obtain ⟨htake, hdrop⟩ := digits_append hall h
  rw [ht, List.cons_append, fractionPart, if_pos hd, htake, hdrop]

theorem fractionPart_of_ne {c : Char} (h : c ≠ '.') : fractionPart (c :: s) = ([], c :: s) := by
  unfold fractionPart
  split
  · next heq =>
    cases heq
    exact absurd rfl h
  · rfl

/-- A sign that is written is read as such. -/
theorem sign_append {sign : Text} (hsign : sign = [] ∨ sign = ['+'] ∨ sign = ['-']) (ds : Digits) :
    Decimal.sign (sign ++ (ds.text ++ rest)) = (decide (sign = ['-']), ds.text ++ rest) := by
  rcases hsign with rfl | rfl | rfl
  · obtain ⟨d, t, ht, hd, -⟩ := ds.exists_cons
    have hminus : d ≠ '-' := ne_of_isDigit hd (by decide)
    have hplus : d ≠ '+' := ne_of_isDigit hd (by decide)
    rw [ht, List.nil_append, List.cons_append]
    unfold Decimal.sign
    split
    · next heq => exact absurd (List.cons_eq_cons.mp heq).1 hminus
    · next heq => exact absurd (List.cons_eq_cons.mp heq).1 hplus
    · rfl
  · rfl
  · rfl

private theorem exponentPart_append (e : Exponent) (h : ∀ c ∈ rest.head?, isDigit c = false) :
    exponentPart (e.text ++ rest) = (some (decide (e.sign = ['-']), e.digits.text), rest) := by
  obtain ⟨htake, hdrop⟩ := digits_append e.digits.all h
  have hmark : (e.mark = 'e' || e.mark = 'E') = true := by simpa using e.isMark
  rw [Exponent.text, List.cons_append, List.append_assoc, exponentPart, if_pos hmark,
    sign_append e.isSign]
  dsimp only
  rw [htake, hdrop, if_neg (by simpa using e.digits.ne_nil)]

/-! ### Whole numbers -/

/-- The parts of a number, from the sign and the digits before the point on. -/
def parts (negative : Bool) (w : Text × Text) : Numeral × Text :=
  let f := fractionPart w.2
  let e := exponentPart f.2
  (⟨negative, w.1, f.1, e.1⟩, e.2)

theorem numeral?_minus (s : Text) :
    (numeral? ('-' :: s)).map (·.1) = ((wholePart s).map (·.1)).map (parts true) := by
  unfold numeral?
  split
  next negative body heq =>
  cases (heq : (true, s) = (negative, body))
  have hlen : s.length ≤ ('-' :: s).length := Nat.le_succ _
  rw [dif_pos hlen]
  cases wholePart s <;> rfl

theorem numeral?_plain (h : s.head? ≠ some '-') :
    (numeral? s).map (·.1) = ((wholePart s).map (·.1)).map (parts false) := by
  unfold numeral?
  split
  next negative body heq =>
  have hsplit : (false, s) = (negative, body) := by
    split at heq
    · exact absurd rfl h
    · exact heq
  cases hsplit
  rw [dif_pos (Nat.le_refl _)]
  cases wholePart s <;> rfl

namespace NumberText

variable (n : NumberText)

private theorem exponent_stops (hs : Stops rest) :
    (∀ c ∈ (n.exponentText ++ rest).head?, isDigit c = false) ∧
      fractionPart (n.exponentText ++ rest) = ([], n.exponentText ++ rest) ∧
      exponentPart (n.exponentText ++ rest) = (n.numeral.exponent, rest) := by
  unfold exponentText numeral
  cases n.exponent with
  | none => exact ⟨hs.digit, hs.fraction, hs.exponent⟩
  | some e =>
    refine ⟨?_, ?_, exponentPart_append e hs.digit⟩
    · intro c hc
      obtain rfl : e.mark = c := by simpa [Exponent.text] using hc
      rcases e.isMark with h | h <;> rw [h] <;> decide
    · refine fractionPart_of_ne ?_
      rcases e.isMark with h | h <;> rw [h] <;> decide

private theorem fraction_stops (hs : Stops rest) :
    (∀ c ∈ (n.fractionText ++ (n.exponentText ++ rest)).head?, isDigit c = false) ∧
      fractionPart (n.fractionText ++ (n.exponentText ++ rest)) =
        (n.numeral.fraction, n.exponentText ++ rest) := by
  obtain ⟨hdigit, hfraction, -⟩ := n.exponent_stops hs
  unfold fractionText numeral
  cases n.fraction with
  | none => exact ⟨hdigit, hfraction⟩
  | some ds =>
    refine ⟨?_, fractionPart_append hdigit⟩
    intro c hc
    obtain rfl : '.' = c := by simpa using hc
    decide

/-- **Numbers are read.** -/
theorem numeral?_text (hs : Stops rest) :
    (numeral? (n.text ++ rest)).map (·.1) = some (n.numeral, rest) := by
  obtain ⟨hdigit, hfraction⟩ := n.fraction_stops hs
  obtain ⟨-, -, hexponent⟩ := n.exponent_stops hs
  have hwhole := wholePart_append n.lead hdigit
  have hparts : ∀ negative, parts negative (n.whole.text, n.fractionText ++ (n.exponentText ++ rest)) =
      (⟨negative, n.whole.text, n.numeral.fraction, n.numeral.exponent⟩, rest) := by
    intro negative
    simp only [parts, hfraction, hexponent]
  rw [text, signText]
  cases hneg : n.negative with
  | true =>
    rw [if_pos rfl, List.append_assoc, List.append_assoc, List.append_assoc, List.singleton_append,
      numeral?_minus, hwhole, Option.map_some, hparts, ← hneg]
    rfl
  | false =>
    obtain ⟨d, t, ht, hd, -⟩ := n.whole.exists_cons
    have hminus : (n.whole.text ++ (n.fractionText ++ (n.exponentText ++ rest))).head? ≠
        some '-' := by
      rw [ht]
      rintro ⟨⟩
      cases hd
    rw [if_neg (by simp), List.nil_append, List.append_assoc, List.append_assoc,
      numeral?_plain hminus, hwhole, Option.map_some, hparts, ← hneg]
    rfl

/-- A number begins with a digit or a sign. -/
theorem exists_cons : ∃ c u, n.text = c :: u ∧ (isDigit c = true ∨ c = '-') := by
  obtain ⟨d, t, ht, hd, -⟩ := n.whole.exists_cons
  rw [text, signText, ht]
  cases n.negative with
  | true => exact ⟨'-', _, rfl, .inr rfl⟩
  | false => exact ⟨d, _, rfl, .inl hd⟩

/-- No constant begins like a number. -/
theorem constant?_text : constant? (n.text ++ rest) = none := by
  obtain ⟨d, t, ht, hd, -⟩ := n.whole.exists_cons
  have hne : ∀ c, isDigit c = false → c ≠ d := fun c hc => (ne_of_isDigit hd hc).symm
  have hn := hne 'n' (by decide)
  have ht' := hne 't' (by decide)
  have hf := hne 'f' (by decide)
  have hN := hne 'N' (by decide)
  have hI := hne 'I' (by decide)
  have hm := hne '-' (by decide)
  rw [text, signText, ht]
  cases n.negative <;>
    simp [constant?, constants, Text.after?, hn, ht', hf, hN, hI, hm]

/-- Where nothing continues a number, it is read as its value. -/
theorem took_readScalar (hs : Stops rest) :
    took (readScalar (n.text ++ rest)) = n.numeral.value.map fun j => (j, rest) := by
  obtain ⟨p, hp, hpr⟩ := Option.map_eq_some_iff.mp (n.numeral?_text hs)
  obtain ⟨⟨m, r⟩, hlt⟩ := p
  cases hpr
  rw [readScalar, n.constant?_text]
  dsimp only
  rw [hp]
  dsimp only
  cases n.numeral.value <;> rfl

/-! ### Cut numbers -/

/-- The beginning of a fraction or an exponent in which no digit has come yet, or nothing. -/
inductive IsTail : Text → Prop
  | nil : IsTail []
  | point : IsTail ['.']
  | exponent {mark : Char} (hm : mark = 'e' ∨ mark = 'E') {sign : Text}
      (hs : sign = [] ∨ sign = ['+'] ∨ sign = ['-']) : IsTail (mark :: sign)

variable {n}
variable {p tail : Text}

theorem IsTail.stops (h : IsTail tail) : Stops tail := by
  cases h with
  | nil => exact ⟨by simp, rfl, rfl⟩
  | point => exact ⟨by simp; decide, rfl, rfl⟩
  | exponent hm hs =>
    rcases hm with rfl | rfl <;> rcases hs with rfl | rfl | rfl <;>
      exact ⟨by simp; decide, rfl, rfl⟩

/-- Where a complaint begins with such a tail, it only says that the text stops too early. -/
theorem IsTail.isTruncated (h : IsTail tail) :
    Message.isTruncated .expectingComma tail = true := by
  cases h with
  | nil | point => decide
  | exponent hm hs =>
    rcases hm with rfl | rfl <;> rcases hs with rfl | rfl | rfl <;> decide

/-- What is left of a number that is cut short: at most a sign, or a shorter number and such a
tail. -/
inductive Remnant (n : NumberText) : Text → Prop
  | sign {p : Text} (h : p = [] ∨ p = ['-']) : Remnant n p
  | number (m : NumberText) {tail : Text} (hm : m.whole.text <+: n.whole.text)
      (ht : IsTail tail) : Remnant n (m.text ++ tail)

theorem signText_cases (n : NumberText) : n.signText = [] ∨ n.signText = ['-'] := by
  unfold signText
  split
  · exact .inr rfl
  · exact .inl rfl

theorem Remnant.shorter (whole : Digits) (lead : whole.text = ['0'] ∨ whole.text.head? ≠ some '0')
    (fraction : Option Digits) (exponent : Option Exponent) (hw : whole.text <+: n.whole.text)
    (ht : IsTail tail) (hp : p = (mk n.negative whole lead fraction exponent).text ++ tail) :
    n.Remnant p := by
  rw [hp]
  exact .number _ hw ht

private theorem remnant_of_cut_sign (hp : Cut p n.signText) : n.Remnant p := by
  refine .sign (.inl ?_)
  rcases n.signText_cases with h | h <;> rw [h] at hp
  · exact absurd hp Cut.not_nil
  · exact Cut.singleton_iff.mp hp

private theorem remnant_of_cut_whole (hp : Cut p n.whole.text) : n.Remnant (n.signText ++ p) := by
  by_cases hnil : p = []
  · rw [hnil, List.append_nil]
    exact .sign n.signText_cases
  -- the digits that are left begin as all of them do, with no zero before another digit
  · refine .shorter (n.whole.cut p hnil hp) ?_ none none hp.isPrefix .nil ?_
    · refine n.lead.elim (fun hzero => ?_) fun hne => .inr ?_
      · rw [hzero] at hp
        exact absurd (Cut.singleton_iff.mp hp) hnil
      · obtain ⟨d, t, rfl⟩ := List.exists_cons_of_ne_nil hnil
        obtain ⟨u, hu⟩ := hp.isPrefix
        rw [← hu] at hne
        exact hne
    · simp [text, signText, Digits.cut, fractionText, exponentText]

private theorem remnant_of_cut_fraction (hp : Cut p n.fractionText) :
    n.Remnant (n.signText ++ (n.whole.text ++ p)) := by
  cases hf : n.fraction with
  | none =>
    rw [fractionText, hf] at hp
    exact absurd hp Cut.not_nil
  | some ds =>
    rw [fractionText, hf] at hp
    rcases Cut.cons_iff.mp hp with rfl | ⟨q, rfl, hq⟩
    · refine .shorter n.whole n.lead none none List.prefix_rfl .nil ?_
      simp [text, signText, fractionText, exponentText]
    · by_cases hnil : q = []
      · refine .shorter n.whole n.lead none none List.prefix_rfl .point ?_
        simp [text, signText, fractionText, exponentText, hnil]
      · refine .shorter n.whole n.lead (some (ds.cut q hnil hq)) none List.prefix_rfl .nil ?_
        simp [text, signText, fractionText, exponentText, Digits.cut]

private theorem remnant_of_cut_exponent (hp : Cut p n.exponentText) :
    n.Remnant (n.signText ++ (n.whole.text ++ (n.fractionText ++ p))) := by
  cases he : n.exponent with
  | none =>
    rw [exponentText, he] at hp
    exact absurd hp Cut.not_nil
  | some e =>
    rw [exponentText, he] at hp
    rcases Cut.cons_iff.mp hp with rfl | ⟨q, rfl, hq⟩
    · refine .shorter n.whole n.lead n.fraction none List.prefix_rfl .nil ?_
      simp [text, signText, fractionText, exponentText]
    rcases Cut.append_iff.mp hq with hsign | ⟨r, rfl, hr⟩
    -- the cut is in the sign of the exponent, which has one character
    · have hnil : q = [] := by
        rcases e.isSign with h | h | h <;> rw [h] at hsign
        · exact absurd hsign Cut.not_nil
        · exact Cut.singleton_iff.mp hsign
        · exact Cut.singleton_iff.mp hsign
      refine .shorter n.whole n.lead n.fraction none List.prefix_rfl
        (.exponent e.isMark (.inl hnil)) ?_
      simp [text, signText, fractionText, exponentText]
    · by_cases hnil : r = []
      · refine .shorter n.whole n.lead n.fraction none List.prefix_rfl
          (.exponent e.isMark e.isSign) ?_
        simp [text, signText, fractionText, exponentText, hnil]
      · refine .shorter n.whole n.lead n.fraction
          (some ⟨e.mark, e.isMark, e.sign, e.isSign, e.digits.cut r hnil hr⟩) List.prefix_rfl
          .nil ?_
        simp [text, signText, fractionText, exponentText, Exponent.text, Digits.cut]

/-- **Cut numbers.** A number that is cut short leaves at most a sign, or a shorter number and the
beginning of a fraction or an exponent. -/
theorem cut (hp : Cut p n.text) : n.Remnant p := by
  rcases Cut.append_iff.mp hp with hsign | ⟨p₁, rfl, hp₁⟩
  · exact remnant_of_cut_sign hsign
  rcases Cut.append_iff.mp hp₁ with hwhole | ⟨p₂, rfl, hp₂⟩
  · exact remnant_of_cut_whole hwhole
  rcases Cut.append_iff.mp hp₂ with hfraction | ⟨p₃, rfl, hp₃⟩
  · exact remnant_of_cut_fraction hfraction
  · exact remnant_of_cut_exponent hp₃

/-- A number that is short enough has a value. -/
theorem value_of_isShort (h : n.IsShort) : ∃ j, n.numeral.value = .ok j := by
  unfold Numeral.value
  split
  · exact ⟨_, if_neg (Nat.not_lt.mpr h)⟩
  · exact ⟨_, rfl⟩

theorem isShort_of_prefix {m : NumberText} (h : n.IsShort) (hm : m.whole.text <+: n.whole.text) :
    m.IsShort :=
  Nat.le_trans hm.length_le h

/-- A number that is too long for an integer but has a value can be cut so that it has none. -/
theorem exists_cut_of_long (h : ¬ n.IsShort) {j : Json} (hj : n.numeral.value = .ok j) :
    ∃ m : NumberText, Cut m.text n.text ∧
      m.numeral.value = .error (.tooManyDigits n.whole.text.length) := by
  refine ⟨⟨n.negative, n.whole, n.lead, none, none⟩, ?_, if_pos (Nat.not_le.mp h)⟩
  have hne : n.fractionText ++ n.exponentText ≠ [] := by
    intro hnil
    obtain ⟨hf, he⟩ := List.append_eq_nil_iff.mp hnil
    have hnone : n.fraction = none ∧ n.exponent = none := by
      unfold fractionText at hf
      unfold exponentText at he
      constructor
      · cases hcase : n.fraction with
        | none => rfl
        | some ds => rw [hcase] at hf; cases hf
      · cases hcase : n.exponent with
        | none => rfl
        | some e => rw [hcase] at he; cases he
    have hlong : n.numeral.value = .error (.tooManyDigits n.whole.text.length) := by
      rw [numeral, hnone.1, hnone.2]
      exact if_pos (Nat.not_le.mp h)
    rw [hlong] at hj
    cases hj
  obtain ⟨c, t, ht⟩ := List.exists_cons_of_ne_nil hne
  rw [text, text, fractionText, exponentText, ht]
  exact ((Cut.nil_cons c t).append_left _).append_left _

end NumberText

end Json

end ServerPages
