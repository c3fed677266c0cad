import Mathlib.Data.List.Basic
import ServerPages.Text.Basic

/-!
# Cuts

A *cut* of a row is a beginning of it that is not all of it: what has arrived of a message before
its last piece.
-/

namespace ServerPages

/-- `p` is a proper beginning of `s`. -/
structure Cut {α : Type} (p s : List α) : Prop where
  isPrefix : p <+: s
  ne : p ≠ s

namespace Cut

variable {α : Type} {a p s : List α} {x : α}

theorem not_nil : ¬ Cut p [] := fun h => h.ne (List.prefix_nil.mp h.isPrefix)

theorem nil_cons (x : α) (s : List α) : Cut [] (x :: s) := ⟨List.nil_prefix, (List.cons_ne_nil x s).symm⟩

theorem length_lt (h : Cut p s) : p.length < s.length :=
  Nat.lt_of_le_of_ne h.isPrefix.length_le fun heq => h.ne (h.isPrefix.eq_of_length heq)

theorem trans (h : Cut p a) (hs : Cut a s) : Cut p s :=
  ⟨h.isPrefix.trans hs.isPrefix, fun heq => absurd h.length_lt (by
    have := hs.length_lt
    rw [heq]
    omega)⟩

theorem append_left (a : List α) (h : Cut p s) : Cut (a ++ p) (a ++ s) :=
  ⟨(List.prefix_append_right_inj a).mpr h.isPrefix, fun heq => h.ne (List.append_cancel_left heq)⟩

theorem cons (x : α) (h : Cut p s) : Cut (x :: p) (x :: s) := h.append_left [x]

theorem append_right (h : Cut p a) (s : List α) : Cut p (a ++ s) := by
  refine ⟨h.isPrefix.trans (List.prefix_append a s), ?_⟩
  rintro rfl
  exact h.ne (List.IsPrefix.eq_of_length_le h.isPrefix (by simp))

/-- A cut of two rows is a cut of the first, or the first and a cut of the second. -/
theorem append_iff : Cut p (a ++ s) ↔ Cut p a ∨ ∃ q, p = a ++ q ∧ Cut q s := by
  constructor
  · intro h
    rcases List.prefix_or_prefix_of_prefix h.isPrefix (List.prefix_append a s) with hp | ⟨q, rfl⟩
    · by_cases heq : p = a
      · refine .inr ⟨[], by simpa using heq, List.nil_prefix, ?_⟩
        rintro rfl
        exact h.ne (by simpa using heq)
      · exact .inl ⟨hp, heq⟩
    · exact .inr ⟨q, rfl, (List.prefix_append_right_inj a).mp h.isPrefix,
        fun hq => h.ne (hq ▸ rfl)⟩
  · rintro (h | ⟨q, rfl, h⟩)
    · exact h.append_right s
    · exact h.append_left a

theorem cons_iff : Cut p (x :: s) ↔ p = [] ∨ ∃ q, p = x :: q ∧ Cut q s := by
  constructor
  · intro h
    cases p with
    | nil => exact .inl rfl
    | cons y q =>
      obtain ⟨rfl, hq⟩ := List.cons_prefix_cons.mp h.isPrefix
      exact .inr ⟨q, rfl, hq, fun heq => h.ne (heq ▸ rfl)⟩
  · rintro (rfl | ⟨q, rfl, h⟩)
    · exact nil_cons x s
    · exact h.cons x

theorem cons_cons_iff {y : α} : Cut (y :: p) (x :: s) ↔ y = x ∧ Cut p s := by
  rw [cons_iff]
  constructor
  · rintro (h | ⟨q, h, hq⟩)
    · cases h
    · cases h
      exact ⟨rfl, hq⟩
  · rintro ⟨rfl, h⟩
    exact .inr ⟨p, rfl, h⟩

theorem singleton_iff : Cut p [x] ↔ p = [] := by
  rw [cons_iff]
  exact ⟨fun h => h.resolve_right fun ⟨_, _, hq⟩ => not_nil hq, .inl⟩

end Cut

end ServerPages
