import ServerPages.Proofs.Code.Levels
import Mathlib.Data.List.Basic

/-!
# Indentations that are moved

When lines are moved, the widths of their indentations may be changed in any way that keeps their
order (`Alignment`). The levels that are open then are those of the code, moved, and no statement
gets out of line (`Aligned.exists_settle`).
-/

namespace ServerPages

namespace Code

/-- How widths are moved: from a least one on in their order, and the least one to the innermost of
the levels that are open where the lines are placed. -/
structure Alignment where
  width : Nat → Nat
  cut : Nat
  base : List Nat
  width_lt : ∀ v w, cut ≤ v → v < w → width v < width w
  head_base : base.headD 0 = width cut

variable {A : Alignment} {ps es : List Nat} {w : Nat}

/-- The levels that are open when lines are moved. -/
def Alignment.levels (A : Alignment) (ps : List Nat) : List Nat :=
  (ps.filter (A.cut < ·)).map A.width ++ A.base

/-- Whether a line that holds code is moved as the alignment says. -/
def Alignment.Places (A : Alignment) (move : Text → Text) (line : Text) : Prop :=
  Text.isAllBlank line = false → A.cut ≤ (margin line).width ∧
    (margin (move line)).width = A.width (margin line).width

namespace Alignment

private theorem levels_cons_of_lt (h : A.cut < w) (ps : List Nat) :
    A.levels (w :: ps) = A.width w :: A.levels ps := by
  rw [levels, List.filter_cons_of_pos (by simpa using h)]
  rfl

private theorem levels_of_le (h : ∀ p ∈ ps, p ≤ A.cut) : A.levels ps = A.base := by
  have hnone : ps.filter (A.cut < ·) = [] :=
    List.filter_eq_nil_iff.mpr fun p hp => by simpa using h p hp
  rw [levels, hnone]
  rfl

private theorem headD_levels (hsorted : ps.Pairwise (· > ·)) :
    (A.levels ps).headD 0 = A.width (max A.cut (ps.headD 0)) := by
  cases ps with
  | nil =>
    rw [levels_of_le (by simp), A.head_base]
    simp
  | cons p ps =>
    by_cases hp : A.cut < p
    · rw [levels_cons_of_lt hp, List.headD_cons, List.headD_cons, max_eq_right hp.le]
    · rw [not_lt] at hp
      rw [levels_of_le, A.head_base, List.headD_cons, max_eq_left hp]
      rw [List.forall_mem_cons]
      exact ⟨hp, fun q hq => (List.rel_of_pairwise_cons hsorted hq).le.trans hp⟩

private theorem width_le {v : Nat} (hv : A.cut ≤ v) (h : v ≤ w) : A.width v ≤ A.width w := by
  obtain rfl | hlt := h.eq_or_lt
  · exact le_rfl
  · exact (A.width_lt v w hv hlt).le

private theorem dropWhile_of_headD_le {n : Nat} (h : es.headD 0 ≤ n) :
    es.dropWhile (n < ·) = es := by
  cases es with
  | nil => rfl
  | cons p ps => exact List.dropWhile_cons_of_neg (by simpa using h)

/-- A level that is opened is opened where the lines are moved, unless it is the least. -/
theorem levels_push (hsorted : ps.Pairwise (· > ·)) (hcut : A.cut ≤ w) (h : ps.headD 0 < w) :
    (w :: ps).Pairwise (· > ·) ∧
      ((A.levels ps).headD 0 < A.width w ∧ A.levels (w :: ps) = A.width w :: A.levels ps ∨
        A.levels (w :: ps) = A.levels ps ∧ (A.levels ps).headD 0 = A.width w) := by
  have hall : ∀ p ∈ ps, p < w := by
    cases ps with
    | nil => simp
    | cons p ps =>
      rw [List.headD_cons] at h
      rw [List.forall_mem_cons]
      exact ⟨h, fun q hq => (List.rel_of_pairwise_cons hsorted hq).trans h⟩
  refine ⟨List.pairwise_cons.mpr ⟨hall, hsorted⟩, ?_⟩
  rw [headD_levels hsorted]
  -- a level at the cut itself is the one that is open where the lines are moved to
  obtain rfl | hlt := hcut.eq_or_lt
  · refine .inr ⟨?_, by rw [max_eq_left h.le]⟩
    rw [levels_of_le fun p hp => (hall p hp).le, levels_of_le]
    rw [List.forall_mem_cons]
    exact ⟨le_rfl, fun p hp => (hall p hp).le⟩
  · exact .inl ⟨A.width_lt _ _ (le_max_left _ _) (max_lt hlt h), levels_cons_of_lt hlt ps⟩

/-- Levels that are closed are closed where the lines are moved. -/
theorem levels_pop (hsorted : ps.Pairwise (· > ·)) (hcut : A.cut ≤ w) (h : w ≤ ps.headD 0)
    (hopen : (ps.dropWhile (w < ·)).headD 0 = w) :
    A.width w ≤ (A.levels ps).headD 0 ∧
      (A.levels ps).dropWhile (A.width w < ·) = A.levels (ps.dropWhile (w < ·)) ∧
      (A.levels (ps.dropWhile (w < ·))).headD 0 = A.width w := by
  have hrest : (A.levels (ps.dropWhile (w < ·))).headD 0 = A.width w := by
    rw [headD_levels (hsorted.sublist (List.dropWhile_sublist _)), hopen, max_eq_right hcut]
  refine ⟨?_, ?_, hrest⟩
  · rw [headD_levels hsorted]
    exact width_le hcut (h.trans (le_max_right _ _))
  · have hsplit : A.levels ps = ((ps.takeWhile (w < ·)).filter (A.cut < ·)).map A.width ++
        A.levels (ps.dropWhile (w < ·)) := by
      rw [levels, levels, ← List.append_assoc, ← List.map_append, ← List.filter_append,
        List.takeWhile_append_dropWhile]
    rw [hsplit, List.dropWhile_append_of_pos, dropWhile_of_headD_le hrest.le]
    intro v hv
    obtain ⟨p, hp, rfl⟩ := List.mem_map.mp hv
    have hlt : w < p := by simpa using List.mem_takeWhile_imp (List.mem_of_mem_filter hp)
    simpa using A.width_lt w p hcut hlt

end Alignment

/-! ### Statements that are moved -/

variable {st st' after : LexState} {m m' : Margin} {lead lead' : Text} {marks : List Token}

/-- The widths of the indentations that are open, the innermost first. -/
def LexState.widths (st : LexState) : List Nat := st.indents.map Prod.fst

private theorem headD_map_fst (l : List (Nat × Nat)) : (l.map Prod.fst).headD 0 = (l.headD (0, 0)).1 := by
  cases l <;> rfl

theorem LexState.headD_widths (st : LexState) : st.widths.headD 0 = st.width.1 :=
  headD_map_fst st.indents

private theorem LexState.dropWhile_widths (st : LexState) (n : Nat) :
    st.widths.dropWhile (n < ·) = (st.indents.dropWhile fun i => n < i.1).map Prod.fst :=
  List.dropWhile_map

/-- A statement opens a level further right, or closes those right of it. -/
theorem LexState.widths_of_settle (h : st.settle false m lead = .ok (marks, after)) :
    (st.widths.headD 0 < m.width ∧ after.widths = m.width :: st.widths) ∨
      (m.width ≤ st.widths.headD 0 ∧ after.widths = st.widths.dropWhile (m.width < ·) ∧
        (st.widths.dropWhile (m.width < ·)).headD 0 = m.width) := by
  rw [headD_widths, dropWhile_widths, headD_map_fst]
  simp only [settle, Bool.false_eq_true, false_and, if_false] at h
  split at h
  · next hlt =>
    cases h
    exact .inl ⟨hlt, rfl⟩
  · next hge =>
    split at h
    · cases h
    · next houter =>
      cases h
      exact .inr ⟨not_lt.mp hge, rfl, not_not.mp houter⟩

private theorem LexState.exists_settle_of_lt (h : st.widths.headD 0 < m.width) (lead : Text) :
    ∃ marks after, st.settle false m lead = .ok (marks, after) ∧
      after.widths = m.width :: st.widths := by
  rw [headD_widths] at h
  simp only [settle, Bool.false_eq_true, false_and, if_false, if_pos h]
  exact ⟨_, _, rfl, rfl⟩

private theorem LexState.exists_settle_of_le (h : m.width ≤ st.widths.headD 0)
    (hopen : (st.widths.dropWhile (m.width < ·)).headD 0 = m.width) (lead : Text) :
    ∃ marks after, st.settle false m lead = .ok (marks, after) ∧
      after.widths = st.widths.dropWhile (m.width < ·) := by
  rw [headD_widths] at h
  rw [dropWhile_widths, headD_map_fst] at hopen
  simp only [settle, Bool.false_eq_true, false_and, if_false, if_neg (not_lt.mpr h), hopen,
    ne_eq, not_true_eq_false]
  exact ⟨_, _, rfl, (dropWhile_widths st m.width).symm⟩

/-- The levels that are open on both sides: those of the code, and the same moved. -/
structure Aligned (A : Alignment) (st st' : LexState) : Prop where
  sorted : st.widths.Pairwise (· > ·)
  widths_eq : st'.widths = A.levels st.widths

theorem Aligned.congr {before before' : LexState} (h : Aligned A before before')
    (hst : st.indents = before.indents) (hst' : st'.indents = before'.indents) :
    Aligned A st st' := by
  obtain ⟨hsorted, heq⟩ := h
  rw [LexState.widths] at hsorted heq
  exact ⟨by rw [LexState.widths, hst]; exact hsorted, by
    rw [LexState.widths, LexState.widths, hst, hst']; exact heq⟩

/-- A statement in its place is in its place when it is moved. -/
theorem Aligned.exists_settle (h : Aligned A st st') (hcut : A.cut ≤ m.width)
    (hwidth : m'.width = A.width m.width) (hsettle : st.settle false m lead = .ok (marks, after))
    (lead' : Text) :
    ∃ marks' after', st'.settle false m' lead' = .ok (marks', after') ∧ Aligned A after after' := by
  obtain ⟨hlt, hafter⟩ | ⟨hle, hafter, hopen⟩ := LexState.widths_of_settle hsettle
  · obtain ⟨hsorted, ⟨hlt', hlevels⟩ | ⟨hlevels, heq⟩⟩ := Alignment.levels_push h.sorted hcut hlt
    · rw [← h.widths_eq, ← hwidth] at hlt'
      obtain ⟨marks', after', hsettle', hafter'⟩ := LexState.exists_settle_of_lt hlt' lead'
      refine ⟨marks', after', hsettle', by rwa [hafter], ?_⟩
      rw [hafter', hafter, hlevels, hwidth, h.widths_eq]
    · rw [← h.widths_eq, ← hwidth] at heq
      have hsame := Alignment.dropWhile_of_headD_le heq.le
      obtain ⟨marks', after', hsettle', hafter'⟩ :=
        LexState.exists_settle_of_le heq.ge (by rw [hsame, heq]) lead'
      refine ⟨marks', after', hsettle', by rwa [hafter], ?_⟩
      rw [hafter', hsame, hafter, hlevels, h.widths_eq]
  · obtain ⟨hle', hdrop, hopen'⟩ := Alignment.levels_pop h.sorted hcut hle hopen
    rw [← h.widths_eq, ← hwidth] at hle' hdrop
    obtain ⟨marks', after', hsettle', hafter'⟩ :=
      LexState.exists_settle_of_le hle' (by rw [hdrop, hopen', hwidth]) lead'
    refine ⟨marks', after', hsettle', ?_, ?_⟩
    · rw [hafter]
      exact h.sorted.sublist (List.dropWhile_sublist _)
    · rw [hafter', hdrop, hafter]

end Code

end ServerPages
