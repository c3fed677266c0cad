import ServerPages.Proofs.Code.Edge.Basic
import ServerPages.Proofs.Code.Lines
import ServerPages.Proofs.Code.Steps

/-!
# Reading from another place

What is read does not depend on the place where reading begins: the tokens differ in their places
only, and reading stops for the same reason (`alike_scan`).
-/

namespace ServerPages

namespace Code

instance : Unplace LexFault := ⟨id⟩

instance : Unplace LexState := ⟨fun st => { st with line := 0, column := 0 }⟩

instance {ε α : Type} [Unplace α] : Unplace (Except ε α) := ⟨Except.map unplaced⟩

section

variable {ε α : Type} [Unplace α] {o o' : Except ε α} {a a' : α} {x x' : ε}

@[simp]
theorem alike_ok_iff : Alike (Except.ok (ε := ε) a) (.ok a') ↔ Alike a a' := by
  simp [Alike, unplaced, Except.map]

@[simp]
theorem alike_error_iff : Alike (Except.error (α := α) x) (.error x') ↔ x = x' := by
  simp [Alike, unplaced, Except.map]

/-- Both go wrong for the same reason, or neither does. -/
theorem Alike.except_cases (h : Alike o o') :
    (∃ x, o = .error x ∧ o' = .error x) ∨ ∃ a a', o = .ok a ∧ o' = .ok a' ∧ Alike a a' := by
  cases o with
  | error x =>
    cases o' with
    | error x' => exact .inl ⟨x, rfl, by rw [alike_error_iff.mp h]⟩
    | ok a' => cases h
  | ok a =>
    cases o' with
    | error x' => cases h
    | ok a' => exact .inr ⟨a, a', rfl, rfl, alike_ok_iff.mp h⟩

theorem Alike.ite {c : Prop} [Decidable c] {y y' : α} (ha : c → Alike a a')
    (hy : ¬c → Alike y y') : Alike (if c then a else y) (if c then a' else y') := by
  by_cases h : c
  · rw [if_pos h, if_pos h]
    exact ha h
  · rw [if_neg h, if_neg h]
    exact hy h

private theorem alike_replicate (n : Nat) (h : Alike a a') :
    Alike (List.replicate n a) (List.replicate n a') := by
  induction n with
  | zero => rfl
  | succ n ih => exact alike_cons_iff.mpr ⟨h, ih⟩

@[simp]
theorem alike_fault_iff {f f' : LexFault} : Alike f f' ↔ f = f' := Iff.rfl

end

section

variable {d : Dialect} {st st' : LexState} {s t u : Text} {c e p : Char} {n : Nat}

theorem alike_lexState_iff : Alike st st' ↔
    st.indents = st'.indents ∧ st.depth = st'.depth ∧ st.brackets = st'.brackets := by
  obtain ⟨⟩ := st
  obtain ⟨⟩ := st'
  simp [Alike, unplaced]

/-! ### States -/

namespace LexState

private theorem alike_advance (h : Alike st st') (s : Text) : Alike (st.advance s) (st'.advance s) := by
  rw [alike_lexState_iff] at h ⊢
  rw [advance, advance]
  split <;> exact h

private theorem alike_token (st st' : LexState) (kind : TokenKind) (s : Text) :
    Alike (st.token kind s) (st'.token kind s) := rfl

private theorem alike_bracket (h : Alike st st') (strict : Bool) (op : Text) :
    Alike (st.bracket strict op) (st'.bracket strict op) := by
  obtain ⟨hindents, hdepth, hbrackets⟩ := alike_lexState_iff.mp h
  unfold bracket
  rw [← hbrackets]
  split
  · split
    · split
      · simp
      · simp [alike_lexState_iff, hindents, hdepth]
    · split
      · split
        · split
          · simp
          · simp [alike_lexState_iff, hindents, hdepth]
        · split
          · simp
          · simp [alike_lexState_iff, hindents, hdepth, hbrackets]
      · simpa using h
  · simpa using h

private theorem alike_settle (h : Alike st st') (strict : Bool) (m : Margin) (lead : Text) :
    Alike (st.settle strict m lead) (st'.settle strict m lead) := by
  obtain ⟨line, column, indents, depth, brackets⟩ := st
  obtain ⟨line', column', indents', depth', brackets'⟩ := st'
  obtain ⟨rfl, rfl, rfl⟩ := alike_lexState_iff.mp h
  refine .ite (fun _ => .ite (fun _ => rfl) fun _ => .ite (fun _ => rfl) fun _ => ?_)
    fun _ => .ite (fun _ => rfl) fun _ => .ite (fun _ => rfl) fun _ => ?_
  · simp [alike_lexState_iff, alike_token_iff]
  · refine alike_ok_iff.mpr (alike_pair_iff.mpr ⟨?_, alike_lexState_iff.mpr ⟨rfl, rfl, rfl⟩⟩)
    exact alike_replicate _ (alike_token _ _ _ _)

private theorem alike_finish (h : Alike st st') (continued : Bool) :
    Alike (st.finish continued) (st'.finish continued) := by
  obtain ⟨hindents, hdepth, hbrackets⟩ := alike_lexState_iff.mp h
  rw [finish, finish, hindents, hdepth]
  split
  · rfl
  · exact alike_pair_iff.mpr ⟨alike_replicate _ (alike_token _ _ _ _), rfl⟩

end LexState

/-! ### Further steps -/

private theorem scan_unmeasured (hs : s ≠ []) (hdepth : st.depth = 0) (hm : lineMargin d s = none) :
    scan d st true s = ([], some .brokenContinuation) := by
  obtain ⟨c, t, rfl⟩ := List.exists_cons_of_ne_nil hs
  rw [scan.eq_def]
  simp only [if_true, hdepth, ne_eq, not_true_eq_false, if_false]
  rw [lineMargin] at hm
  simp only [hm]

theorem scan_unbalanced {kind : TokenKind} {f : LexFault} (h : s.dropWhile isPad = c :: t)
    (hlex : lexeme d (c :: t) = .token kind n)
    (hb : (if kind = .operator then
        (st.advance (s.takeWhile isPad)).bracket d.strict (c :: t.take (n - 1))
      else .ok (st.advance (s.takeWhile isPad))) = .error f) :
    scan d st false s = ([], some f) := by
  rw [scan.eq_def]
  simp only [Bool.false_eq_true, if_false]
  split
  · next hd => rw [h] at hd; cases hd
  · next hd =>
    obtain ⟨rfl, rfl⟩ := List.cons.inj (hd.symm.trans h)
    simp only [hlex, hb]

/-- The strict reader looks at the first character that is no white space. -/
theorem strayLexeme_eq {rest : Text} (h : (p :: rest).dropWhile isPad = c :: t) :
    (if Dialect.strict'.strict ∧ isPad p then strayLexeme .strict' c else strayLexeme .strict' p) =
      strayLexeme .strict' c := by
  by_cases hpad : isPad p = true
  · exact if_pos ⟨rfl, hpad⟩
  · rw [List.dropWhile_cons_of_neg hpad] at h
    rw [(List.cons.inj h).1, ite_self]

theorem scan_stray_fault {f : LexFault} (h : s.dropWhile isPad = c :: t)
    (hlex : lexeme .strict' (c :: t) = .stray) (hf : strayLexeme .strict' c = .error f) :
    scan .strict' st false s = ([], some f) := by
  obtain _ | ⟨p, rest⟩ := s
  · cases h
  rw [scan.eq_def]
  simp only [Bool.false_eq_true, if_false]
  split
  · next hd => rw [h] at hd; cases hd
  · next hd =>
    obtain ⟨rfl, rfl⟩ := List.cons.inj (hd.symm.trans h)
    simp only [hlex]
    rw [strayLexeme_eq h, hf]

theorem scan_stray_token {kind : TokenKind} (h : s.dropWhile isPad = c :: t)
    (hlex : lexeme .strict' (c :: t) = .stray) (hkind : strayLexeme .strict' c = .ok kind) :
    scan .strict' st false s =
      let here := st.advance (s.takeWhile isPad)
      let rest := scan .strict' (here.advance [c]) false t
      (here.token kind [c] :: rest.1, rest.2) := by
  obtain _ | ⟨p, rest⟩ := s
  · cases h
  rw [scan.eq_def]
  simp only [Bool.false_eq_true, if_false]
  split
  · next hd => rw [h] at hd; cases hd
  · next hd =>
    obtain ⟨rfl, rfl⟩ := List.cons.inj (hd.symm.trans h)
    simp only [hlex]
    rw [strayLexeme_eq h, hkind]
    rfl

theorem Alike.fst {α β : Type} [Unplace α] [Unplace β] {x y : α × β} (h : Alike x y) :
    Alike x.1 y.1 := (alike_pair_iff.mp h).1

theorem Alike.snd {α β : Type} [Unplace α] [Unplace β] {x y : α × β} (h : Alike x y) :
    Alike x.2 y.2 := (alike_pair_iff.mp h).2

private theorem alike_cons_preceded {t t' : Token} {r r' : List Token × Option LexFault} (ht : Alike t t')
    (hr : Alike r r') : Alike (t :: r.1, r.2) (t' :: r'.1, r'.2) := by
  obtain ⟨us, f⟩ := r
  obtain ⟨us', f'⟩ := r'
  obtain ⟨hus, hf⟩ := alike_pair_iff.mp hr
  exact alike_pair_iff.mpr ⟨alike_cons_iff.mpr ⟨ht, hus⟩, hf⟩

theorem alike_preceded {ts ts' : List Token} {r r' : List Token × Option LexFault}
    (hts : Alike ts ts') (hr : Alike r r') : Alike (preceded ts r) (preceded ts' r') := by
  obtain ⟨us, f⟩ := r
  obtain ⟨us', f'⟩ := r'
  obtain ⟨hus, hf⟩ := alike_pair_iff.mp hr
  exact alike_pair_iff.mpr ⟨hts.append hus, hf⟩

/-- At the beginning of a line, if it is so with less of the text. -/
theorem alike_scan_line (h : Alike st st')
    (ih : ∀ {st st' fresh} {u : Text}, 2 * u.length + fresh.toNat < 2 * s.length + 1 →
      Alike st st' → Alike (scan .strict' st fresh u) (scan .strict' st' fresh u)) :
    Alike (scan .strict' st true s) (scan .strict' st' true s) := by
  obtain ⟨-, hdepths, -⟩ := alike_lexState_iff.mp h
  obtain rfl | hs := eq_or_ne s []
  · rw [scan_nil, scan_nil]
    exact LexState.alike_finish h false
  by_cases hdepth : st.depth = 0
  swap
  · rw [scan_bracketed hs hdepth, scan_bracketed hs (hdepths ▸ hdepth)]
    exact ih (by simp) h
  have hdepth' : st'.depth = 0 := hdepths ▸ hdepth
  cases hm : lineMargin .strict' s with
  | none => rw [scan_unmeasured hs hdepth hm, scan_unmeasured hs hdepth' hm]
  | some m =>
  have hhere := LexState.alike_advance h (s.take m.length)
  cases hdrop : s.drop m.length with
  | nil =>
    rw [scan_margin hs hdepth hm hdrop, scan_margin hs hdepth' hm hdrop]
    exact LexState.alike_finish hhere false
  | cons c t =>
  have hlt : t.length < s.length := by
    have hlength := congrArg List.length hdrop
    simp only [List.length_drop, List.length_cons] at hlength
    omega
  by_cases hidle : c = '#' ∨ c = '\r' ∨ c = '\n'
  · have hrest : (t.drop (blankLine (c :: t)).1).length ≤ t.length := by simp
    rw [scan_blankLine hdepth hm hdrop hidle, scan_blankLine hdepth' hm hdrop hidle]
    have hbehind :=
      LexState.alike_advance hhere ((c :: t).take (blankLine (c :: t)).1 ++ ['\n'])
    have hrest := @ih _ _ true (t.drop (blankLine (c :: t)).1)
      (by simp only [Bool.toNat_true]; omega) hbehind
    refine alike_pair_iff.mpr ⟨.append ?_ (alike_cons_iff.mpr ⟨rfl, hrest.fst⟩), hrest.snd⟩
    exact .ite (fun _ => rfl) fun _ => rfl
  · have hsettle := LexState.alike_settle hhere true m (s.take m.length)
    obtain ⟨f, hf, hf'⟩ | ⟨⟨marks, after⟩, ⟨marks', after'⟩, ha, ha', halike⟩ := hsettle.except_cases
    · rw [scan_unsettled hdepth hm hdrop hidle hf, scan_unsettled hdepth' hm hdrop hidle hf']
    · obtain ⟨hmarks, hafter⟩ := alike_pair_iff.mp halike
      rw [scan_codeLine hdepth hm hdrop hidle ha, scan_codeLine hdepth' hm hdrop hidle ha']
      refine alike_preceded hmarks (ih ?_ hafter)
      simp
      omega

/-- Inside a line, if it is so with less of the text. -/
theorem alike_scan_inside (h : Alike st st')
    (ih : ∀ {st st' fresh} {u : Text}, u.length < s.length →
      Alike st st' → Alike (scan .strict' st fresh u) (scan .strict' st' fresh u)) :
    Alike (scan .strict' st false s) (scan .strict' st' false s) := by
  have hhere := LexState.alike_advance h (s.takeWhile isPad)
  cases hrest : s.dropWhile isPad with
  | nil =>
    rw [scan_end hrest, scan_end hrest]
    exact alike_cons_preceded rfl (LexState.alike_finish hhere false)
  | cons c t =>
  have hlt (n : Nat) : (t.drop n).length < s.length := by
    have hsuffix := (List.dropWhile_suffix isPad (l := s)).length_le
    rw [hrest, List.length_cons] at hsuffix
    rw [List.length_drop]
    omega
  cases hlex : lexeme .strict' (c :: t) with
  | fault f => rw [scan_fault hrest hlex, scan_fault hrest hlex]
  | lineEnd n =>
    rw [scan_lineEnd hrest hlex, scan_lineEnd hrest hlex]
    refine alike_cons_preceded ?_ (ih (hlt _) (LexState.alike_advance hhere _))
    rw [(alike_lexState_iff.mp hhere).2.1]
    rfl
  | continuation n =>
    rw [scan_continuation hrest hlex, scan_continuation hrest hlex]
    exact .ite (fun _ => LexState.alike_finish (LexState.alike_advance hhere _) true) fun _ =>
      ih (hlt _) (LexState.alike_advance hhere _)
  | token kind n =>
    have hbracket : Alike (if kind = .operator then
        (st.advance (s.takeWhile isPad)).bracket true (c :: t.take (n - 1))
      else .ok (st.advance (s.takeWhile isPad))) (if kind = .operator then
        (st'.advance (s.takeWhile isPad)).bracket true (c :: t.take (n - 1))
      else .ok (st'.advance (s.takeWhile isPad))) :=
      .ite (fun _ => LexState.alike_bracket hhere true _) fun _ => alike_ok_iff.mpr hhere
    obtain ⟨f, hf, hf'⟩ | ⟨after, after', ha, ha', hafter⟩ := hbracket.except_cases
    · rw [scan_unbalanced hrest hlex hf, scan_unbalanced hrest hlex hf']
    · rw [scan_token hrest hlex ha, scan_token hrest hlex ha']
      exact alike_cons_preceded rfl
        (ih (hlt _) (LexState.alike_advance hafter _))
  | stray =>
    cases hchar : strayLexeme .strict' c with
    | error f =>
      rw [scan_stray_fault hrest hlex hchar, scan_stray_fault hrest hlex hchar]
    | ok kind =>
      rw [scan_stray_token hrest hlex hchar, scan_stray_token hrest hlex hchar]
      exact alike_cons_preceded rfl (ih (hlt 0) (LexState.alike_advance hhere _))

/-- **What is read does not depend on the place where reading begins.** -/
theorem alike_scan {fresh : Bool} (h : Alike st st') :
    Alike (scan .strict' st fresh s) (scan .strict' st' fresh s) := by
  induction hsize : 2 * s.length + fresh.toNat using Nat.strong_induction_on
    generalizing st st' fresh s with
  | _ size ih =>
    cases fresh with
    | true => exact alike_scan_line h fun hu h => ih _ (hu.trans_eq hsize) h rfl
    | false =>
      refine alike_scan_inside h fun {st st' fresh u} hu h => ih _ ?_ h rfl
      have hfresh := Bool.toNat_le fresh
      simp at hsize
      omega

end

end Code

end ServerPages
