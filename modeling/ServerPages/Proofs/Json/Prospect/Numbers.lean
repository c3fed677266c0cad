import Mathlib.Data.List.TakeWhile
import ServerPages.Proofs.Json.Prospect.Basic

/-!
# Numbers that go on

A number ends where nothing continues it, and only the end of the text leaves open whether anything
does. `NumberText.Resumes` says which texts behind a number are such ends; whatever else is read as
a number is read so with any text behind it (`numeral?_spec`). With the constants, of which the
text may be a beginning, this gives what more text can make of a scalar (`scalar_prospect`).
-/

namespace ServerPages

namespace Json

open Decimal (isDigit)

variable {s t w rest tail : Text}

/-! ### Rows of digits -/

private theorem isDigit_takeWhile : ∀ c ∈ s.takeWhile isDigit, isDigit c = true :=
  fun _ hc => List.mem_takeWhile_imp hc

/-- A row of digits that has ended has ended for good. -/
theorem digits_forward (h : s.dropWhile isDigit ≠ []) (u : Text) :
    (s ++ u).takeWhile isDigit = s.takeWhile isDigit ∧
      (s ++ u).dropWhile isDigit = s.dropWhile isDigit ++ u := by
  have hhead : ∀ c ∈ (s.dropWhile isDigit ++ u).head?, isDigit c = false := by
    obtain ⟨c, t, ht⟩ := List.exists_cons_of_ne_nil h
    have hc := List.head?_dropWhile_not isDigit s
    rw [ht] at hc ⊢
    simpa using hc
  have happ := digits_append (isDigit_takeWhile (s := s)) hhead
  rwa [← List.append_assoc, List.takeWhile_append_dropWhile] at happ

/-- A digit and the digits behind it. -/
def Digits.ofHead (d : Char) (hd : isDigit d = true) (s : Text) : Digits :=
  ⟨d :: s.takeWhile isDigit, List.cons_ne_nil _ _,
    List.forall_mem_cons.mpr ⟨hd, isDigit_takeWhile⟩⟩

/-- A lone zero. -/
def Digits.zero : Digits := ⟨['0'], by simp, by simp; decide⟩

private theorem Digits.ofHead_append (d : Char) (hd : isDigit d = true) (s : Text) :
    (Digits.ofHead d hd s).text ++ s.dropWhile isDigit = d :: s :=
  congrArg (d :: ·) List.takeWhile_append_dropWhile

/-! ### The parts of a number -/

private theorem wholePart_spec (h : (wholePart s).map (·.1) = some (w, rest)) :
    ∃ ds : Digits, (ds.text = ['0'] ∨ ds.text.head? ≠ some '0') ∧ ds.text = w ∧ s = w ++ rest ∧
      (rest = [] ∨ ∀ u, (wholePart (s ++ u)).map (·.1) = some (w, rest ++ u)) := by
  match s with
  | [] => cases h
  | c :: s =>
    by_cases hzero : c = '0'
    · subst hzero
      rw [wholePart, if_pos rfl] at h
      cases h
      exact ⟨.zero, .inl rfl, rfl, rfl, .inr fun u => rfl⟩
    by_cases hd : isDigit c = true
    · have hpart : ∀ s, (wholePart (c :: s)).map (·.1) =
          some (c :: s.takeWhile isDigit, s.dropWhile isDigit) := fun s => by
        rw [wholePart, if_neg hzero, if_pos hd]
        rfl
      rw [hpart] at h
      cases h
      refine ⟨.ofHead c hd s, .inr fun hhead => hzero (Option.some.inj hhead), rfl,
        (Digits.ofHead_append c hd s).symm, ?_⟩
      by_cases hrest : s.dropWhile isDigit = []
      · exact .inl hrest
      · refine .inr fun u => ?_
        rw [List.cons_append, hpart, (digits_forward hrest u).1, (digits_forward hrest u).2]
    · rw [wholePart, if_neg hzero, if_neg hd] at h
      cases h

theorem fractionPart_spec (s : Text) : ∃ f : Option Digits,
    (fractionPart s).1 = (f.map Digits.text).getD [] ∧
      s = (f.elim [] fun ds => '.' :: ds.text) ++ (fractionPart s).2 ∧
      ((fractionPart s).2 = [] ∨ (f = none ∧ s = ['.']) ∨
        ∀ u, fractionPart (s ++ u) = ((fractionPart s).1, (fractionPart s).2 ++ u)) := by
  match s with
  | [] => exact ⟨none, rfl, rfl, .inl rfl⟩
  | c :: s =>
    by_cases hc : c = '.'
    · subst hc
      match s with
      | [] => exact ⟨none, rfl, rfl, .inr (.inl ⟨rfl, rfl⟩)⟩
      | d :: s =>
        by_cases hd : isDigit d = true
        · have hpart : ∀ s, fractionPart ('.' :: d :: s) =
              (d :: s.takeWhile isDigit, s.dropWhile isDigit) := fun s => by
            rw [fractionPart, if_pos hd]
          rw [hpart]
          refine ⟨some (.ofHead d hd s), rfl, ?_, ?_⟩
          · exact congrArg ('.' :: ·) (Digits.ofHead_append d hd s).symm
          by_cases hrest : s.dropWhile isDigit = []
          · exact .inl hrest
          · refine .inr (.inr fun u => ?_)
            rw [List.cons_append, List.cons_append, hpart, (digits_forward hrest u).1,
              (digits_forward hrest u).2]
        · have hpart : ∀ s, fractionPart ('.' :: d :: s) = ([], '.' :: d :: s) := fun s => by
            rw [fractionPart, if_neg hd]
          rw [hpart]
          exact ⟨none, rfl, rfl, .inr (.inr fun u => hpart _)⟩
    · rw [fractionPart_of_ne hc]
      exact ⟨none, rfl, rfl, .inr (.inr fun u => fractionPart_of_ne hc)⟩

/-- A sign, if there is one, and what stands behind it. -/
theorem sign_spec (s : Text) : ∃ sign : Text, (sign = [] ∨ sign = ['+'] ∨ sign = ['-']) ∧
    s = sign ++ (Decimal.sign s).2 ∧ (Decimal.sign s).1 = decide (sign = ['-']) ∧
      (s ≠ [] → ∀ u, Decimal.sign (s ++ u) = ((Decimal.sign s).1, (Decimal.sign s).2 ++ u)) := by
  match s with
  | [] => exact ⟨[], .inl rfl, rfl, rfl, fun h => absurd rfl h⟩
  | c :: s =>
    by_cases hminus : c = '-'
    · subst hminus
      exact ⟨['-'], .inr (.inr rfl), rfl, rfl, fun _ u => rfl⟩
    by_cases hplus : c = '+'
    · subst hplus
      exact ⟨['+'], .inr (.inl rfl), rfl, rfl, fun _ u => rfl⟩
    have hnone : ∀ s, Decimal.sign (c :: s) = (false, c :: s) := fun s => by
      unfold Decimal.sign
      split
      · next heq => exact absurd (List.cons_eq_cons.mp heq).1 hminus
      · next heq => exact absurd (List.cons_eq_cons.mp heq).1 hplus
      · rfl
    rw [hnone]
    exact ⟨[], .inl rfl, rfl, rfl, fun _ u => hnone _⟩

private theorem exponentPart_of_not_mark {c : Char} (h : ¬ (c = 'e' ∨ c = 'E')) :
    exponentPart (c :: s) = (none, c :: s) := by
  rw [exponentPart, if_neg (by simpa using h)]

private theorem exponentPart_mark {c : Char} (h : c = 'e' ∨ c = 'E') :
    exponentPart (c :: s) = if (Decimal.sign s).2.takeWhile isDigit = [] then (none, c :: s)
      else (some ((Decimal.sign s).1, (Decimal.sign s).2.takeWhile isDigit),
        (Decimal.sign s).2.dropWhile isDigit) := by
  rw [exponentPart, if_pos (by simpa using h)]
  simp only [List.isEmpty_iff]

/-- What has been taken as an exponent, if anything, is taken again unless the text has ended. -/
theorem exponentPart_forward {c : Char} (hc : c = 'e' ∨ c = 'E')
    (h : (Decimal.sign s).2.dropWhile isDigit ≠ []) (u : Text) :
    exponentPart (c :: s ++ u) = ((exponentPart (c :: s)).1, (exponentPart (c :: s)).2 ++ u) := by
  have hne : s ≠ [] := by
    rintro rfl
    exact h rfl
  obtain ⟨-, -, -, -, hforward⟩ := sign_spec s
  rw [List.cons_append, exponentPart_mark hc, exponentPart_mark hc, hforward hne]
  dsimp only
  rw [(digits_forward h u).1, (digits_forward h u).2]
  split <;> rfl

theorem exponentPart_spec (s : Text) : ∃ e : Option Exponent,
    (exponentPart s).1 = e.map (fun e => (decide (e.sign = ['-']), e.digits.text)) ∧
      s = e.elim [] Exponent.text ++ (exponentPart s).2 ∧
      ((exponentPart s).2 = [] ∨
        (e = none ∧ ∃ (mark : Char) (sign : Text), (mark = 'e' ∨ mark = 'E') ∧
          (sign = [] ∨ sign = ['+'] ∨ sign = ['-']) ∧ s = mark :: sign) ∨
        ∀ u, exponentPart (s ++ u) = ((exponentPart s).1, (exponentPart s).2 ++ u)) := by
  match s with
  | [] => exact ⟨none, rfl, rfl, .inl rfl⟩
  | c :: s =>
    by_cases hc : c = 'e' ∨ c = 'E'
    · obtain ⟨sign, hsign, hs, hneg, -⟩ := sign_spec s
      by_cases hdigits : (Decimal.sign s).2.takeWhile isDigit = []
      -- no digit stands there, and none will unless nothing does
      · have hnone : exponentPart (c :: s) = (none, c :: s) := by
          rw [exponentPart_mark hc, if_pos hdigits]
        refine ⟨none, by rw [hnone]; rfl, by rw [hnone]; rfl, .inr ?_⟩
        by_cases hrest : (Decimal.sign s).2 = []
        · rw [hrest, List.append_nil] at hs
          exact .inl ⟨rfl, c, sign, hc, hsign, by rw [hs]⟩
        · refine .inr (exponentPart_forward hc fun hnil => hrest ?_)
          rw [← List.takeWhile_append_dropWhile (p := isDigit) (l := (Decimal.sign s).2),
            hdigits, hnil, List.append_nil]
      · have hsome : exponentPart (c :: s) =
            (some ((Decimal.sign s).1, (Decimal.sign s).2.takeWhile isDigit),
              (Decimal.sign s).2.dropWhile isDigit) := by
          rw [exponentPart_mark hc, if_neg hdigits]
        refine ⟨some ⟨c, hc, sign, hsign, ⟨_, hdigits, isDigit_takeWhile⟩⟩, ?_, ?_, ?_⟩
        · rw [hsome, hneg]
          rfl
        · rw [hsome, Option.elim_some, Exponent.text, List.cons_append, List.append_assoc,
            List.takeWhile_append_dropWhile, ← hs]
        by_cases hdrop : (Decimal.sign s).2.dropWhile isDigit = []
        · exact .inl (by rw [hsome, hdrop])
        · exact .inr (.inr (exponentPart_forward hc hdrop))
    · rw [exponentPart_of_not_mark hc]
      exact ⟨none, rfl, rfl, .inr (.inr fun u => exponentPart_of_not_mark hc)⟩

/-! ### Whole numbers -/

namespace NumberText

variable {n : NumberText}

/-- What behind a number may still become a part of it: nothing, or the beginning of a fraction or
an exponent that it does not have yet. -/
inductive Resumes (n : NumberText) : Text → Prop
  | nil : Resumes n []
  | point (hf : n.fraction = none) (he : n.exponent = none) : Resumes n ['.']
  | exponent (he : n.exponent = none) {mark : Char} (hm : mark = 'e' ∨ mark = 'E') {sign : Text}
      (hs : sign = [] ∨ sign = ['+'] ∨ sign = ['-']) : Resumes n (mark :: sign)

theorem Resumes.isTail (h : n.Resumes tail) : IsTail tail := by
  cases h with
  | nil => exact .nil
  | point => exact .point
  | exponent _ hm hs => exact .exponent hm hs

/-- A number with a fraction or an exponent has a value. -/
theorem exists_value (h : n.numeral.fraction ≠ [] ∨ n.numeral.exponent ≠ none) :
    ∃ j, n.numeral.value = .ok j := by
  unfold Numeral.value
  split
  · next hf he => exact absurd h (not_or.mpr ⟨not_not.mpr hf, not_not.mpr he⟩)
  · exact ⟨_, rfl⟩

/-- A zero completes a number that has come to its point or its exponent. -/
theorem Resumes.exists_number (h : n.Resumes tail) (hne : tail ≠ []) :
    ∃ m : NumberText, m.text = n.text ++ (tail ++ ['0']) ∧ ∃ j, m.numeral.value = .ok j := by
  cases h with
  | nil => exact absurd rfl hne
  | point hf he =>
    refine ⟨⟨n.negative, n.whole, n.lead, some .zero, none⟩, ?_,
      exists_value (.inl (List.cons_ne_nil _ _))⟩
    simp [text, signText, fractionText, exponentText, Digits.zero, hf, he]
  | @exponent he mark hm sign hs =>
    refine ⟨⟨n.negative, n.whole, n.lead, n.fraction,
      some ⟨mark, hm, sign, hs, .zero⟩⟩, ?_,
      exists_value (.inr (Option.some_ne_none _))⟩
    simp [text, signText, fractionText, exponentText, Exponent.text, Digits.zero, he]

/-- The parts behind the digits before the point. -/
theorem parts_spec (negative : Bool) (whole : Digits)
    (lead : whole.text = ['0'] ∨ whole.text.head? ≠ some '0') (s : Text) :
    ∃ (n : NumberText) (rest : Text), n.negative = negative ∧
      parts negative (whole.text, s) = (n.numeral, rest) ∧
      whole.text ++ s = n.whole.text ++ (n.fractionText ++ n.exponentText) ++ rest ∧
      (n.Resumes rest ∨ ∀ u, parts negative (whole.text, s ++ u) = (n.numeral, rest ++ u)) := by
  obtain ⟨f, hf, hs, hfend⟩ := fractionPart_spec s
  obtain ⟨e, he, hr, heend⟩ := exponentPart_spec (fractionPart s).2
  have hparts : parts negative (whole.text, s) = ((mk negative whole lead f e).numeral,
      (exponentPart (fractionPart s).2).2) := by
    simp only [parts, numeral, hf, he]
  refine ⟨mk negative whole lead f e, (exponentPart (fractionPart s).2).2, rfl, hparts, ?_, ?_⟩
  · have hftext : (mk negative whole lead f e).fractionText =
        f.elim [] fun ds => '.' :: ds.text := by
      cases f <;> rfl
    have hetext : (mk negative whole lead f e).exponentText = e.elim [] Exponent.text := by
      cases e <;> rfl
    rw [hftext, hetext, List.append_assoc, List.append_assoc, ← hr, ← hs]
  rcases hfend with hnil | ⟨rfl, rfl⟩ | hfend
  · left
    rw [hnil]
    exact .nil
  · left
    have hnone : e = none := by
      cases e with
      | none => rfl
      | some e => cases he
    exact .point rfl hnone
  rcases heend with hnil | ⟨rfl, mark, sign, hm, hsign, hmark⟩ | heend
  · left
    rw [hnil]
    exact .nil
  · left
    rw [Option.elim_none, List.nil_append] at hr
    rw [← hr, hmark]
    exact .exponent rfl hm hsign
  · right
    intro u
    rw [parts] at hparts ⊢
    dsimp only at hparts ⊢
    rw [hfend]
    dsimp only
    rw [heend]
    exact congrArg (fun p : Numeral × Text => (p.1, _ ++ u)) hparts

/-- A number without its sign. -/
theorem body_spec {negative : Bool} {num : Numeral}
    (h : ((wholePart s).map (·.1)).map (parts negative) = some (num, rest)) :
    ∃ n : NumberText, n.negative = negative ∧ n.numeral = num ∧
      s = n.whole.text ++ (n.fractionText ++ n.exponentText) ++ rest ∧
      (n.Resumes rest ∨ ∀ u, ((wholePart (s ++ u)).map (·.1)).map (parts negative) =
        some (num, rest ++ u)) := by
  obtain ⟨⟨w, r⟩, hw, hparts⟩ := Option.map_eq_some_iff.mp h
  obtain ⟨whole, lead, rfl, hs, hwend⟩ := wholePart_spec hw
  obtain ⟨n, rest', hneg, hn, hsplit, hend⟩ := parts_spec negative whole lead r
  rw [hn] at hparts
  cases hparts
  refine ⟨n, hneg, rfl, hs.trans hsplit, ?_⟩
  rcases hend with hend | hend
  · exact .inl hend
  rcases hwend with rfl | hwend
  -- nothing stands behind the digits, so nothing is left of the text
  · left
    obtain rfl : [] = rest := congrArg Prod.snd hn
    exact .nil
  · right
    intro u
    rw [hwend, Option.map_some, hend]

end NumberText

/-- **Numbers that go on.** What is read as a number is one, and is read as that number with any
text behind it, unless the text ends where the number may go on. -/
theorem numeral?_spec {num : Numeral} (h : (numeral? s).map (·.1) = some (num, rest)) :
    ∃ n : NumberText, n.numeral = num ∧ s = n.text ++ rest ∧
      (n.Resumes rest ∨ ∀ u, (numeral? (s ++ u)).map (·.1) = some (num, rest ++ u)) := by
  by_cases hminus : s.head? = some '-'
  · obtain ⟨body, rfl⟩ : ∃ body, s = '-' :: body := by
      cases s with
      | nil => cases hminus
      | cons c body => exact ⟨body, by rw [Option.some.inj hminus]⟩
    rw [numeral?_minus] at h
    obtain ⟨n, hneg, hnum, rfl, hend⟩ := NumberText.body_spec h
    refine ⟨n, hnum, ?_, hend.imp_right fun hend u => ?_⟩
    · simp [NumberText.text, NumberText.signText, hneg]
    · rw [List.cons_append, numeral?_minus]
      exact hend u
  · rw [numeral?_plain hminus] at h
    obtain ⟨n, hneg, hnum, hs, hend⟩ := NumberText.body_spec h
    refine ⟨n, hnum, ?_, hend.imp_right fun hend u => ?_⟩
    · rw [hs]
      simp [NumberText.text, NumberText.signText, hneg]
    · have hhead : (s ++ u).head? ≠ some '-' := by
        cases s with
        | nil => cases h
        | cons c s => exact hminus
      rw [numeral?_plain hhead]
      exact hend u

/-- What begins like no number begins like none with any text behind it. -/
theorem numeral?_none_append (h : numeral? s = none) (hne : s ≠ []) (hsign : s ≠ ['-'])
    (u : Text) : numeral? (s ++ u) = none := by
  have hwhole : ∀ body, body ≠ [] → wholePart body = none → wholePart (body ++ u) = none := by
    intro body hbody hnone
    obtain ⟨c, t, rfl⟩ := List.exists_cons_of_ne_nil hbody
    rw [List.cons_append, wholePart]
    rw [wholePart] at hnone
    split at hnone
    · cases hnone
    split at hnone
    · cases hnone
    · next hzero hd => rw [if_neg hzero, if_neg hd]
  obtain ⟨c, t, rfl⟩ := List.exists_cons_of_ne_nil hne
  by_cases hc : c = '-'
  · subst hc
    have ht : t ≠ [] := by
      rintro rfl
      exact hsign rfl
    have hnone := numeral?_minus t
    rw [h, Option.map_none, eq_comm, Option.map_eq_none_iff, Option.map_eq_none_iff] at hnone
    have happ := numeral?_minus (t ++ u)
    rw [hwhole t ht hnone] at happ
    exact Option.map_eq_none_iff.mp happ
  · have hhead : ∀ t : Text, (c :: t).head? ≠ some '-' := fun t ht => hc (Option.some.inj ht)
    have hnone := numeral?_plain (hhead t)
    rw [h, Option.map_none, eq_comm, Option.map_eq_none_iff, Option.map_eq_none_iff] at hnone
    have happ := numeral?_plain (hhead (t ++ u))
    rw [← List.cons_append, hwhole (c :: t) hne hnone] at happ
    exact Option.map_eq_none_iff.mp happ

/-! ### Constants -/

theorem constant?_eq_some_iff {v : Json} :
    constant? s = some (v, rest) ↔ ∃ name, (name, v) ∈ constants ∧ s = name ++ rest := by
  constructor
  · intro h
    obtain ⟨⟨name, v'⟩, hmem, hv⟩ := List.exists_of_findSome?_eq_some h
    obtain ⟨rest', hrest, hpair⟩ := Option.map_eq_some_iff.mp hv
    cases hpair
    exact ⟨name, hmem, Text.after?_eq_some_iff.mp hrest⟩
  · rintro ⟨name, hmem, rfl⟩
    simp only [constants, List.mem_cons, Prod.mk.injEq, List.not_mem_nil, or_false] at hmem
    rcases hmem with ⟨rfl, rfl⟩ | ⟨rfl, rfl⟩ | ⟨rfl, rfl⟩ | ⟨rfl, rfl⟩ | ⟨rfl, rfl⟩ | ⟨rfl, rfl⟩ <;>
      simp [constant?, constants, Text.after?]

/-- What begins with no constant, and begins none, does so with any text behind it. -/
theorem constant?_none_append (h : constant? s = none)
    (hcut : ¬ ∃ c ∈ constants.map (·.1), Cut s c) (u : Text) : constant? (s ++ u) = none := by
  by_contra hsome
  obtain ⟨⟨v, r⟩, hv⟩ := Option.ne_none_iff_exists'.mp hsome
  obtain ⟨name, hmem, hname⟩ := constant?_eq_some_iff.mp hv
  rcases List.prefix_or_prefix_of_prefix ⟨u, rfl⟩ ⟨r, hname.symm⟩ with hs | ⟨q, rfl⟩
  · refine hcut ⟨name, List.mem_map_of_mem hmem, hs, ?_⟩
    rintro rfl
    rw [constant?_eq_some_iff.mpr ⟨s, hmem, (List.append_nil s).symm⟩] at h
    cases h
  · rw [constant?_eq_some_iff.mpr ⟨name, hmem, rfl⟩] at h
    cases h

/-- No beginning of a constant is a number. -/
theorem numeral?_cut_constant (h : ∃ c ∈ constants.map (·.1), Cut s c) : numeral? s = none := by
  have hall : ∀ c ∈ constants.map (·.1), ∀ q ∈ c.inits, q ≠ c → (numeral? q).isNone := by decide
  obtain ⟨c, hc, hcut⟩ := h
  exact Option.isNone_iff_eq_none.mp (hall c hc s ((List.mem_inits s c).mpr hcut.isPrefix) hcut.ne)

/-! ### Scalars -/

/-- A text with which a number has not come to its end. -/
def IsOpenNumber (s : Text) : Prop :=
  ∃ (n : NumberText) (tail : Text), s = n.text ++ tail ∧ n.Resumes tail

/-- A number is made of the characters of numbers. -/
theorem NumberText.isNumberChar_of_mem (n : NumberText) {c : Char} (h : c ∈ n.text) :
    isNumberChar c = true := by
  have hdigit : ∀ {ds : Digits}, c ∈ ds.text → isNumberChar c = true := fun {ds} hc => by
    rw [isNumberChar, ds.all c hc, Bool.true_or]
  simp only [text, List.mem_append] at h
  rcases h with hsign | hwhole | hfraction | hexponent
  · rcases n.signText_cases with hs | hs <;> rw [hs] at hsign
    · cases hsign
    · rw [List.mem_singleton.mp hsign]
      rfl
  · exact hdigit hwhole
  · unfold fractionText at hfraction
    split at hfraction
    · cases hfraction
    · rcases List.mem_cons.mp hfraction with rfl | hc
      · rfl
      · exact hdigit hc
  · unfold exponentText at hexponent
    split at hexponent
    · cases hexponent
    · next e _ =>
      rcases List.mem_cons.mp hexponent with rfl | hc
      · rcases e.isMark with hm | hm <;> rw [hm] <;> rfl
      rcases List.mem_append.mp hc with hc | hc
      · rcases e.isSign with hs | hs | hs <;> rw [hs] at hc
        · cases hc
        · rw [List.mem_singleton.mp hc]
          rfl
        · rw [List.mem_singleton.mp hc]
          rfl
      · exact hdigit hc

theorem IsOpenNumber.exists_last (h : IsOpenNumber s) :
    ∃ c ∈ s.getLast?, isNumberChar c = true := by
  obtain ⟨n, tail, rfl, ht⟩ := h
  cases ht with
  | nil =>
    obtain ⟨c, u, hc, -⟩ := n.exists_cons
    have hne : n.text ≠ [] := by
      rw [hc]
      exact List.cons_ne_nil c u
    rw [List.append_nil]
    exact ⟨_, List.getLast?_eq_getLast_of_ne_nil hne, n.isNumberChar_of_mem (List.getLast_mem hne)⟩
  | point => exact exists_getLast?_of_suffix (List.suffix_append _ _) ⟨'.', rfl, rfl⟩
  | exponent _ hm hs =>
    refine exists_getLast?_of_suffix (List.suffix_append _ _) ?_
    rcases hm with rfl | rfl <;> rcases hs with rfl | rfl | rfl <;> exact ⟨_, rfl, rfl⟩

/-- Where nothing continues a number, it is read as its value. -/
theorem NumberText.took_readValue (n : NumberText) {depth : Nat} (h : Stops rest) :
    took (readValue depth (n.text ++ rest)) = n.numeral.value.map fun j => (j, rest) := by
  rw [n.readValue_eq, n.took_readScalar h]

/-- A text that some text behind it makes a value. -/
def IsClosable (R : Reading Json) (s : Text) : Prop :=
  ∃ u j, ∀ w, Stops w → R (s ++ (u ++ w)) = .ok (j, w)

theorem took_readScalar_constant {v : Json} (h : constant? s = some (v, rest)) :
    took (readScalar s) = .ok (v, rest) := by
  obtain ⟨name, hmem, rfl⟩ := constant?_eq_some_iff.mp h
  have hne : name ≠ [] := by
    have hall : ∀ p ∈ constants, p.1 ≠ [] := by decide
    exact hall _ hmem
  have hlt : rest.length < (name ++ rest).length := by
    rw [List.length_append]
    exact Nat.lt_add_of_pos_left (List.length_pos_of_ne_nil hne)
  rw [readScalar, h]
  dsimp only
  rw [dif_pos hlt]
  rfl

theorem took_readScalar_number {num : Numeral} (hc : constant? s = none)
    (hn : (numeral? s).map (·.1) = some (num, rest)) :
    took (readScalar s) = num.value.map fun j => (j, rest) := by
  obtain ⟨⟨⟨_, _⟩, hlt⟩, hp, hpr⟩ := Option.map_eq_some_iff.mp hn
  cases hpr
  rw [readScalar, hc]
  dsimp only
  rw [hp]
  dsimp only
  cases num.value <;> rfl

theorem took_readScalar_none (hc : constant? s = none) (hn : numeral? s = none) :
    took (readScalar s) = .error (.refused .expectingValue s) := by
  rw [readScalar, hc]
  dsimp only
  rw [hn]
  rfl

/-- A number has a value or too many digits. -/
theorem Numeral.value_cases (num : Numeral) :
    (∃ j, num.value = .ok j) ∨ ∃ k, num.value = .error (.tooManyDigits k) := by
  unfold Numeral.value
  split
  · split
    · exact .inr ⟨_, rfl⟩
    · exact .inl ⟨_, rfl⟩
  · exact .inl ⟨_, rfl⟩

/-- Reads a constant or a number. -/
abbrev scalarReading : Reading Json := fun s => took (readScalar s)

/-- What more text can make of a constant or a number. -/
theorem scalar_prospect (hne : s ≠ []) :
    IsOpenNumber s ∨
      Prospect scalarReading s (IsClosable scalarReading s) := by
  cases hc : constant? s with
  | some p =>
    obtain ⟨v, rest⟩ := p
    obtain ⟨name, hmem, rfl⟩ := constant?_eq_some_iff.mp hc
    refine .inr (.taken (a := v) (List.suffix_append name rest) fun u => ?_)
    exact took_readScalar_constant
      (constant?_eq_some_iff.mpr ⟨name, hmem, List.append_assoc name rest u⟩)
  | none =>
    by_cases hcut : ∃ c ∈ constants.map (·.1), Cut s c
    · have hnone := numeral?_cut_constant hcut
      refine .inr (.awaiting (took_readScalar_none hc hnone) hcut ?_)
      obtain ⟨name, hname, hs⟩ := hcut
      obtain ⟨⟨name, v⟩, hmem, rfl⟩ := List.mem_map.mp hname
      obtain ⟨u, hu⟩ := hs.isPrefix
      refine ⟨u, v, fun w _ => took_readScalar_constant ?_⟩
      exact constant?_eq_some_iff.mpr ⟨name, hmem, by rw [← List.append_assoc, hu]⟩
    have hcu := constant?_none_append hc hcut
    cases hn : numeral? s with
    | none =>
      have hsign : s ≠ ['-'] := by
        rintro rfl
        exact hcut (by decide)
      refine .inr (.failed (e := .refused .expectingValue s) (fun u => ?_) hcut)
      exact took_readScalar_none (hcu u) (numeral?_none_append hn hne hsign u)
    | some p =>
      have hspec : (numeral? s).map (·.1) = some p.1 := by rw [hn]; rfl
      obtain ⟨n, hnum, hs, hend | hend⟩ := numeral?_spec hspec
      · exact .inl ⟨n, p.1.2, hs, hend⟩
      have hread : ∀ u, scalarReading (s ++ u) =
          n.numeral.value.map fun j => (j, p.1.2 ++ u) := fun u => by
        rw [hnum]
        exact took_readScalar_number (hcu u) (hend u)
      rcases n.numeral.value_cases with ⟨j, hj⟩ | ⟨k, hk⟩
      · refine .inr (.taken (a := j) (show p.1.2 <:+ s from ⟨n.text, hs.symm⟩) fun u => ?_)
        rw [hread, hj]
        rfl
      · refine .inr (.failed (e := .tooManyDigits k) (fun u => ?_) id)
        rw [hread, hk]
        rfl

end Json

end ServerPages
