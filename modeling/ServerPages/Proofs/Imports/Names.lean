import ServerPages.Imports.AllowList

/-!
# The names on an allow list

An allow list keeps its names in the order of their code points and none twice. Putting a name in
keeps this order (`pairwise_insertName`), and names that stand in it already come out as they are
(`foldl_insertName`), so the names on a list do not depend on the order in which they were put in.
-/

namespace ServerPages

namespace Text

variable {s t u : Text}

/-! ### The order of texts -/

private theorem codePointLE_total (s t : Text) : codePointLE s t = true ∨ codePointLE t s = true := by
  induction s generalizing t with
  | nil => exact .inl rfl
  | cons c s ih =>
    cases t with
    | nil => exact .inr rfl
    | cons d t =>
      rw [codePointLE, codePointLE]
      by_cases hcd : c = d
      · simpa [hcd] using ih t
      · rw [if_neg hcd, if_neg (Ne.symm hcd), decide_eq_true_eq, decide_eq_true_eq]
        obtain hle | hle := Char.le_total c d
        · exact .inl (Std.lt_of_le_of_ne hle hcd)
        · exact .inr (Std.lt_of_le_of_ne hle (Ne.symm hcd))

private theorem codePointLE_antisymm (hst : codePointLE s t = true) (hts : codePointLE t s = true) :
    s = t := by
  induction s generalizing t with
  | nil =>
    cases t with
    | nil => rfl
    | cons d t => cases hts
  | cons c s ih =>
    cases t with
    | nil => cases hst
    | cons d t =>
      rw [codePointLE] at hst hts
      by_cases hcd : c = d
      · rw [if_pos hcd] at hst
        rw [if_pos hcd.symm] at hts
        rw [hcd, ih hst hts]
      · rw [if_neg hcd, decide_eq_true_eq] at hst
        rw [if_neg (Ne.symm hcd), decide_eq_true_eq] at hts
        exact absurd hts (Char.lt_asymm hst)

private theorem codePointLE_trans (hst : codePointLE s t = true) (htu : codePointLE t u = true) :
    codePointLE s u = true := by
  induction s generalizing t u with
  | nil => rfl
  | cons c s ih =>
    cases t with
    | nil => cases hst
    | cons d t =>
      cases u with
      | nil => cases htu
      | cons e u =>
        rw [codePointLE] at hst htu ⊢
        by_cases hcd : c = d
        · subst hcd
          rw [if_pos rfl] at hst
          by_cases hce : c = e
          · rw [if_pos hce] at htu ⊢
            exact ih hst htu
          · rwa [if_neg hce] at htu ⊢
        · rw [if_neg hcd, decide_eq_true_eq] at hst
          by_cases hde : d = e
          · subst hde
            rwa [if_neg hcd, decide_eq_true_eq]
          · rw [if_neg hde, decide_eq_true_eq] at htu
            have hce := Char.lt_trans hst htu
            rwa [if_neg (Char.ne_of_lt hce), decide_eq_true_eq]

/-- A text stands before another. -/
def Precedes (s t : Text) : Prop := s ≠ t ∧ codePointLE s t = true

theorem Precedes.not_le (h : Precedes s t) : ¬ codePointLE t s = true :=
  fun hts => h.1 (codePointLE_antisymm h.2 hts)

theorem Precedes.trans (hst : Precedes s t) (htu : Precedes t u) : Precedes s u := by
  refine ⟨?_, codePointLE_trans hst.2 htu.2⟩
  rintro rfl
  exact hst.not_le htu.2

end Text

namespace AllowList

open Text (Precedes)

variable {name n : Text} {ns before : List Text}

/-! ### Putting names in -/

theorem mem_insertName : n ∈ insertName name ns ↔ n = name ∨ n ∈ ns := by
  induction ns with
  | nil => rw [insertName, List.mem_singleton, or_iff_left List.not_mem_nil]
  | cons m ns ih =>
    rw [insertName]
    split
    · next heq =>
      rw [heq, List.mem_cons]
      exact (or_self_left ..).symm
    · split
      · exact List.mem_cons
      · rw [List.mem_cons, ih, List.mem_cons]
        exact or_left_comm

/-- Putting a name in keeps the order. -/
theorem pairwise_insertName (h : ns.Pairwise Precedes) : (insertName name ns).Pairwise Precedes := by
  induction ns with
  | nil => exact List.pairwise_singleton _ _
  | cons m ns ih =>
    obtain ⟨hm, hns⟩ := List.pairwise_cons.mp h
    rw [insertName]
    split
    · exact h
    · next hne =>
      split
      · next hle =>
        -- in front of `m`, and so in front of all behind `m`
        have hname : Precedes name m := ⟨hne, hle⟩
        refine List.pairwise_cons.mpr ⟨fun x hx => ?_, h⟩
        obtain rfl | hx := List.mem_cons.mp hx
        · exact hname
        · exact hname.trans (hm x hx)
      · next hnot =>
        -- somewhere behind `m`, which stays in front of all
        have hname : Precedes m name :=
          ⟨Ne.symm hne, (Text.codePointLE_total name m).resolve_left hnot⟩
        refine List.pairwise_cons.mpr ⟨fun x hx => ?_, ih hns⟩
        obtain rfl | hx := mem_insertName.mp hx
        · exact hname
        · exact hm x hx

/-- A name behind all others is put at the end. -/
theorem insertName_of_precedes (h : ∀ m ∈ ns, Precedes m name) :
    insertName name ns = ns ++ [name] := by
  induction ns with
  | nil => rfl
  | cons m ns ih =>
    obtain ⟨hm, hns⟩ := List.forall_mem_cons.mp h
    rw [insertName, if_neg (Ne.symm hm.1), if_neg hm.not_le, ih hns, List.cons_append]

/-- Names in order come out as they are. -/
theorem foldl_insertName (h : (before ++ ns).Pairwise Precedes) :
    ns.foldl (fun ms m => insertName m ms) before = before ++ ns := by
  induction ns generalizing before with
  | nil => exact (List.append_nil before).symm
  | cons m ns ih =>
    have hlast : ∀ x ∈ before, Precedes x m := fun x hx =>
      (List.pairwise_append.mp h).2.2 x hx m List.mem_cons_self
    rw [List.append_cons] at h
    rw [List.foldl_cons, insertName_of_precedes hlast, ih h, ← List.append_cons]

end AllowList

end ServerPages
