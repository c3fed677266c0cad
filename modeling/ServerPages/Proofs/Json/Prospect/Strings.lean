import ServerPages.Proofs.Json.Prospect.Basic

/-!
# Strings that go on

The text behind an opening quote is read mark by mark. A mark changes what is read but not where
reading ends (`left_readString_mark`), also where two codes are read as one letter; so a string
that is read is one of marks (`exists_marks`), and what more text can make of a string is decided
at the place where the marks end (`string_prospect`).
-/

namespace ServerPages

namespace Json

variable {opening s t q : Text} {e : Refusal}

/-! ### Refusals within a string -/

theorem readString_nil : took (readString opening []) = .error (.refused .openString opening) := by
  rw [readString]
  rfl

private theorem readString_escape_refused (h : took (readEscape opening t) = .error e) :
    took (readString opening ('\\' :: t)) = .error e := by
  rw [took_eq_error] at h ⊢
  exact readString_escape_error h

private theorem readString_code_refused (h : took (readCode t) = .error e) :
    took (readString opening ('\\' :: 'u' :: t)) = .error e :=
  readString_escape_refused (took_readEscape_code.trans h)

theorem readString_backslash :
    took (readString opening ['\\']) = .error (.refused .openString opening) :=
  readString_escape_refused rfl

theorem readString_shortCode (h : t.length ≤ 4) :
    took (readString opening ('\\' :: 'u' :: t)) =
      .error (.refused .badUnicodeEscape ('u' :: t)) :=
  readString_code_refused (by rw [readCode_short h]; rfl)

theorem readString_badCode {a b c d : Char} (h : hexFour? a b c d = none) (e : Char) (t : Text) :
    took (readString opening ('\\' :: 'u' :: a :: b :: c :: d :: e :: t)) =
      .error (.refused .badUnicodeEscape ('u' :: a :: b :: c :: d :: e :: t)) := by
  refine readString_code_refused ?_
  rw [readCode, h]
  rfl

theorem readString_badLetter {c : Char} (hu : c ≠ 'u') (h : escaped? c = none) (t : Text) :
    took (readString opening ('\\' :: c :: t)) =
      .error (.refused .badEscape ('\\' :: c :: t)) := by
  refine readString_escape_refused ?_
  rw [readEscape, if_neg hu, h]
  rfl

theorem readString_control {c : Char} (hq : c ≠ '"') (hb : c ≠ '\\') (hc : c.toNat < 0x20)
    (t : Text) :
    took (readString opening (c :: t)) = .error (.refused .controlCharacter (c :: t)) := by
  rw [readString, if_neg hq, if_neg hb, if_pos hc]
  rfl

/-! ### Marks -/

/-- Whether a mark is a code. -/
def Mark.IsCode : Mark → Prop
  | .code .. => True
  | _ => False

theorem Mark.text_ne_nil (m : Mark) : m.text ≠ [] := by
  cases m <;> exact List.cons_ne_nil _ _

/-- How a text within a string begins. A code is a mark only if a character follows it. -/
inductive StringHead : Text → Prop
  | nil : StringHead []
  | quote (t : Text) : StringHead ('"' :: t)
  | mark (m : Mark) (q : Text) (h : m.IsCode → q ≠ []) : StringHead (m.text ++ q)
  | backslash : StringHead ['\\']
  | shortCode {t : Text} (h : t.length ≤ 4) : StringHead ('\\' :: 'u' :: t)
  | badCode {a b c d : Char} (h : hexFour? a b c d = none) (e : Char) (t : Text) :
      StringHead ('\\' :: 'u' :: a :: b :: c :: d :: e :: t)
  | badLetter {c : Char} (hu : c ≠ 'u') (h : escaped? c = none) (t : Text) :
      StringHead ('\\' :: c :: t)
  | control {c : Char} (hq : c ≠ '"') (hb : c ≠ '\\') (hc : c.toNat < 0x20) (t : Text) :
      StringHead (c :: t)

private theorem stringHead_code (t : Text) : StringHead ('\\' :: 'u' :: t) := by
  by_cases hshort : t.length ≤ 4
  · exact .shortCode hshort
  match t with
  | a :: b :: c :: d :: e :: t =>
    cases hn : hexFour? a b c d with
    | none => exact .badCode hn e t
    | some n => exact .mark (.code a b c d n hn) (e :: t) fun _ => List.cons_ne_nil e t
  | [] | [_] | [_, _] | [_, _, _] | [_, _, _, _] => exact absurd (by simp) hshort

theorem stringHead (s : Text) : StringHead s := by
  match s with
  | [] => exact .nil
  | c :: t =>
    by_cases hq : c = '"'
    · exact hq ▸ .quote t
    by_cases hb : c = '\\'
    · subst hb
      match t with
      | [] => exact .backslash
      | d :: t =>
        by_cases hu : d = 'u'
        · exact hu ▸ stringHead_code t
        cases he : escaped? d with
        | none => exact .badLetter hu he t
        | some e => exact .mark (.escape d e he) t nofun
    by_cases hc : c.toNat < 0x20
    · exact .control hq hb hc t
    · exact .mark (.plain c hq hb hc) t nofun

/-! ### Where reading ends -/

/-- What a reader leaves of a text, whatever it has read. -/
def left {α : Type} (r : Except Refusal (α × Text)) : Except Refusal Text := r.map (·.2)

private theorem left_prepend (l : Letter) (r : Except Refusal (List Letter × Text)) :
    left (prepend l r) = left r := by
  cases r <;> rfl

theorem left_eq_error {α : Type} {r : Except Refusal (α × Text)} :
    left r = .error e ↔ r = .error e := by
  cases r <;> simp [left, Except.map]

theorem left_eq_ok {α : Type} {r : Except Refusal (α × Text)} :
    left r = .ok t ↔ ∃ a, r = .ok (a, t) := by
  cases r <;> simp [left, Except.map, Prod.ext_iff]

/-- What stands behind a code: no second half of a pair, or another code. -/
theorem secondHalf?_split (s : Text) :
    secondHalf? s = .ok none ∨ ∃ a b c d e t, s = '\\' :: 'u' :: a :: b :: c :: d :: e :: t ∧
      (hexFour? a b c d = none ∨ ∃ m, hexFour? a b c d = some m ∧ isLow m = true) := by
  unfold secondHalf?
  split
  · next a b c d e t =>
    cases hm : hexFour? a b c d with
    | none => exact .inr ⟨a, b, c, d, e, t, rfl, .inl hm⟩
    | some m =>
      by_cases hlow : isLow m = true
      · exact .inr ⟨a, b, c, d, e, t, rfl, .inr ⟨m, hm, hlow⟩⟩
      · exact .inl (if_neg hlow)
  · exact .inl rfl

private theorem not_isHigh_of_isLow {m : Nat} (h : isLow m = true) : ¬ isHigh m = true := by
  simp only [isLow, isHigh, Bool.and_eq_true, decide_eq_true_eq] at h ⊢
  omega

/-- A code that is followed by one that is none is refused as that one is. -/
theorem readCode_bad_behind {a b c d a' b' c' d' : Char} {n : Nat}
    (h : hexFour? a b c d = some n) (hn : isHigh n = true) (h' : hexFour? a' b' c' d' = none)
    (e : Char) (t : Text) :
    took (readCode (a :: b :: c :: d :: '\\' :: 'u' :: a' :: b' :: c' :: d' :: e :: t)) =
      .error (.refused .badUnicodeEscape ('u' :: a' :: b' :: c' :: d' :: e :: t)) := by
  rw [readCode, h]
  dsimp only
  rw [if_pos hn, secondHalf?, h']
  rfl

/-- **Marks are transparent.** Reading ends behind a mark as it ends without the mark, be it a
code that makes up one letter with the code behind it. -/
theorem left_readString_mark (m : Mark) {q : Text} (hq : m.IsCode → q ≠ []) :
    left (took (readString opening (m.text ++ q))) = left (took (readString opening q)) := by
  cases m with
  | plain c hquote hb hc =>
    rw [Mark.text, List.singleton_append, took_readString_plain hquote hb hc, left_prepend]
  | escape c e h =>
    rw [Mark.text, List.cons_append, List.singleton_append,
      took_readString_escape (took_readEscape_letter h), left_prepend]
  | code a b c d n h =>
    obtain ⟨e, t, rfl⟩ := List.exists_cons_of_ne_nil (hq trivial)
    show left (took (readString opening ('\\' :: 'u' :: a :: b :: c :: d :: e :: t))) = _
    by_cases hn : isHigh n = true
    · rcases secondHalf?_split (e :: t) with hs | ⟨a', b', c', d', e', t', hs, hm⟩
      · rw [took_readString_code h fun _ => hs, left_prepend]
      rw [hs]
      rcases hm with hm | ⟨m, hm, hlow⟩
      · rw [readString_code_refused (readCode_bad_behind h hn hm e' t'), readString_badCode hm]
      · have halone : took (readString opening ('\\' :: 'u' :: a' :: b' :: c' :: d' :: e' :: t')) =
            prepend (letterOf m) (took (readString opening (e' :: t'))) :=
          took_readString_code hm fun hhigh => absurd hhigh (not_isHigh_of_isLow hlow)
        rw [took_readString_pair h hn hm hlow, left_prepend, halone, left_prepend]
    · rw [took_readString_code h fun hhigh => absurd hhigh hn, left_prepend]

/-- **A string that is read is made of marks.** -/
theorem exists_marks {ls : List Letter} {rest : Text}
    (h : took (readString opening s) = .ok (ls, rest)) :
    ∃ marks, s = closedText marks ++ rest ∧ ls = letters marks := by
  have hmarks : ∃ marks, s = closedText marks ++ rest := by
    induction hlen : s.length using Nat.strong_induction_on generalizing s ls with
    | _ k ih =>
    cases stringHead s with
    | nil => rw [readString_nil] at h; cases h
    | quote t =>
      rw [took_readString_quote] at h
      cases h
      exact ⟨[], rfl⟩
    | mark m q hq =>
      have hleft : left (took (readString opening (m.text ++ q))) =
          left (took (readString opening q)) := left_readString_mark m hq
      rw [h] at hleft
      obtain ⟨ls', hq'⟩ := left_eq_ok.mp hleft.symm
      have hlt : q.length < k := by
        have := List.length_pos_of_ne_nil m.text_ne_nil
        rw [List.length_append] at hlen
        omega
      obtain ⟨marks, rfl⟩ := ih q.length hlt hq' rfl
      exact ⟨m :: marks, by rw [closedText_cons, List.append_assoc]⟩
    | backslash => rw [readString_backslash] at h; cases h
    | shortCode hs => rw [readString_shortCode hs] at h; cases h
    | badCode hn e t => rw [readString_badCode hn] at h; cases h
    | badLetter hu he t => rw [readString_badLetter hu he] at h; cases h
    | control hq hb hc t => rw [readString_control hq hb hc] at h; cases h
  obtain ⟨marks, rfl⟩ := hmarks
  rw [took_readString] at h
  cases h
  exact ⟨marks, rfl, rfl⟩

/-! ### What more text can make of a string -/

/-- What more text can make of a string that has been opened, wherever its opening stands. -/
inductive StringProspect (s : Text) : Prop
  | taken (ls : List Letter) {rest : Text} (hsuffix : rest <:+ s)
      (h : ∀ opening u, took (readString opening (s ++ u)) = .ok (ls, rest ++ u))
  | failed {e : Refusal}
      (h : ∀ opening u, took (readString opening (s ++ u)) = .error (e.extend u))
      (ha : ¬ e.Awaits)
  | awaiting
      (h : ∀ opening, ∃ e, took (readString opening s) = .error e ∧ e.Awaits)
      (hm : ∃ u marks, s ++ u = closedText marks)

private theorem hexFour?_isSome_iff {a b c d : Char} :
    (hexFour? a b c d).isSome ↔ ∀ x ∈ [a, b, c, d], (hexDigit? x).isSome := by
  simp only [hexFour?, List.forall_mem_cons, List.not_mem_nil, false_implies, implies_true,
    and_true]
  cases hexDigit? a with
  | none => simp
  | some _ =>
    cases hexDigit? b with
    | none => simp
    | some _ =>
      cases hexDigit? c with
      | none => simp
      | some _ => cases hexDigit? d <;> simp

/-- A code that lacks digits and has none that is wrong is completed by zeros. -/
theorem exists_code {ds : Text} (h : ds.length ≤ 4) (hhex : ∀ c ∈ ds, (hexDigit? c).isSome) :
    ∃ a b c d n, ds ++ List.replicate (4 - ds.length) '0' = [a, b, c, d] ∧
      hexFour? a b c d = some n := by
  have hlen : (ds ++ List.replicate (4 - ds.length) '0').length = 4 := by
    rw [List.length_append, List.length_replicate]
    omega
  have hall : ∀ c ∈ ds ++ List.replicate (4 - ds.length) '0', (hexDigit? c).isSome := by
    intro c hc
    rcases List.mem_append.mp hc with hc | hc
    · exact hhex c hc
    · rw [List.eq_of_mem_replicate hc]
      decide
  match ds ++ List.replicate (4 - ds.length) '0', hlen, hall with
  | [a, b, c, d], _, hall =>
    obtain ⟨n, hn⟩ := Option.isSome_iff_exists.mp (hexFour?_isSome_iff.mpr hall)
    exact ⟨a, b, c, d, n, rfl, hn⟩

/-- A code with a wrong digit is refused, whether or not it lacks others. -/
theorem readString_wrongDigit {ds u : Text} (hlen : ds.length ≤ 4)
    (hhex : ¬ ∀ c ∈ ds, (hexDigit? c).isSome) :
    took (readString opening ('\\' :: 'u' :: (ds ++ u))) =
      .error (.refused .badUnicodeEscape ('u' :: (ds ++ u))) := by
  by_cases hshort : (ds ++ u).length ≤ 4
  · exact readString_shortCode hshort
  match hdu : ds ++ u with
  | a :: b :: c :: d :: e :: t =>
    have hds : ds = [a, b, c, d].take ds.length := by
      have htake : ds = (ds ++ u).take ds.length := List.take_left.symm
      rw [hdu, show a :: b :: c :: d :: e :: t = [a, b, c, d] ++ e :: t from rfl,
        List.take_append_of_le_length hlen] at htake
      exact htake
    refine readString_badCode (Option.not_isSome_iff_eq_none.mp fun hsome => hhex ?_) e t
    intro x hx
    rw [hds] at hx
    exact hexFour?_isSome_iff.mp hsome x (List.mem_of_mem_take hx)
  | [] | [_] | [_, _] | [_, _, _] | [_, _, _, _] => exact absurd (by rw [hdu]; simp) hshort

/-- A code that stops before its last digit, or right behind it. -/
theorem stringProspect_shortCode {ds : Text} (h : ds.length ≤ 4) :
    StringProspect ('\\' :: 'u' :: ds) := by
  by_cases hhex : ∀ c ∈ ds, (hexDigit? c).isSome
  · obtain ⟨a, b, c, d, n, hds, hn⟩ := exists_code h hhex
    refine .awaiting (fun opening => ⟨_, readString_shortCode h, ?_, hhex⟩)
      ⟨List.replicate (4 - ds.length) '0' ++ ['"'], [.code a b c d n hn], ?_⟩
    · rw [List.length_cons]
      omega
    · rw [List.cons_append, List.cons_append, ← List.append_assoc, hds]
      rfl
  · exact .failed (e := .refused .badUnicodeEscape ('u' :: ds))
      (fun opening u => readString_wrongDigit h hhex) fun ha => hhex ha.2

/-- A mark before a string does not change its prospect. -/
theorem StringProspect.mark (m : Mark) (hq : m.IsCode → q ≠ []) (h : StringProspect q) :
    StringProspect (m.text ++ q) := by
  have hleft : ∀ opening u, left (took (readString opening (m.text ++ q ++ u))) =
      left (took (readString opening (q ++ u))) := fun opening u => by
    rw [List.append_assoc]
    exact left_readString_mark m fun hm => fun hnil => hq hm (List.append_eq_nil_iff.mp hnil).1
  cases h with
  | taken ls hsuffix h =>
    -- what is read is one of marks, and so is read with any text behind it
    have hok := hleft [] []
    rw [h] at hok
    obtain ⟨ls', hls'⟩ := left_eq_ok.mp hok
    rw [List.append_nil, List.append_nil] at hls'
    obtain ⟨marks, hmarks, rfl⟩ := exists_marks hls'
    refine .taken (letters marks) (hsuffix.trans (List.suffix_append _ _))
      fun opening u => ?_
    rw [hmarks, List.append_assoc, took_readString]
  | failed h ha =>
    refine .failed (fun opening u => ?_) ha
    rw [← left_eq_error, hleft, left_eq_error]
    exact h opening u
  | awaiting h hm =>
    obtain ⟨u, marks, hu⟩ := hm
    refine .awaiting (fun opening => ?_)
      ⟨u, m :: marks, by rw [List.append_assoc, hu, closedText_cons]⟩
    obtain ⟨e, he, ha⟩ := h opening
    have hleft₀ := hleft opening []
    rw [List.append_nil, List.append_nil, he] at hleft₀
    exact ⟨e, left_eq_error.mp hleft₀, ha⟩

/-- **Strings that go on.** A string that has been opened is taken for good, refused for good, or
can be closed. -/
theorem string_prospect (s : Text) : StringProspect s := by
  induction hlen : s.length using Nat.strong_induction_on generalizing s with
  | _ k ih =>
  cases stringHead s with
  | nil =>
    exact .awaiting (fun opening => ⟨_, readString_nil, trivial⟩) ⟨['"'], [], rfl⟩
  | quote t =>
    exact .taken [] (List.suffix_cons '"' t) fun opening u => took_readString_quote
  | mark m q hq =>
    have hlt : q.length < k := by
      have := List.length_pos_of_ne_nil m.text_ne_nil
      rw [List.length_append] at hlen
      omega
    exact (ih q.length hlt q rfl).mark m hq
  | backslash =>
    exact .awaiting (fun opening => ⟨_, readString_backslash, trivial⟩)
      ⟨['"', '"'], [.escape '"' '"' rfl], rfl⟩
  | shortCode h => exact stringProspect_shortCode h
  | @badCode a b c d h e t =>
    refine .failed (e := .refused .badUnicodeEscape ('u' :: a :: b :: c :: d :: e :: t))
      (fun opening u => readString_badCode h e (t ++ u)) fun ha => ?_
    have hsix := ha.1
    simp only [List.length_cons] at hsix
    omega
  | @badLetter c hu h t =>
    exact .failed (e := .refused .badEscape ('\\' :: c :: t))
      (fun opening u => readString_badLetter hu h (t ++ u)) id
  | @control c hq hb hc t =>
    exact .failed (e := .refused .controlCharacter (c :: t))
      (fun opening u => readString_control hq hb hc (t ++ u)) id

end Json

end ServerPages
