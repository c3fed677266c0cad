import Mathlib.Data.Nat.Digits.Defs
import ServerPages.Number.Decimal

/-!
# Digits of numbers

What the digits of a number in some base have in common, and how a reader that knows the value of
each digit gets the number back (`foldl_toDigits`). A number in decimal begins with a zero only if
it is zero (`head?_toDigits`).
-/

namespace ServerPages

variable {b n : Nat}

/-- Every digit has what the digits below the base have. -/
theorem forall_mem_toDigits {p : Char → Prop} (hb : 1 < b) (h : ∀ d < b, p (Nat.digitChar d)) :
    ∀ c ∈ Nat.toDigits b n, p c := by
  induction n using Nat.strong_induction_on with
  | _ n ih =>
    rw [Nat.toDigits_eq_if hb]
    split
    · next hn =>
      intro c hc
      rw [List.mem_singleton.1 hc]
      exact h n hn
    · next hn =>
      have hlt : n / b < n := Nat.div_lt_self (by omega) hb
      intro c hc
      obtain hc | hc := List.mem_append.1 hc
      · exact ih _ hlt c hc
      · rw [List.mem_singleton.1 hc]
        exact h _ (Nat.mod_lt n (by omega))

/-- The digits of a number are read back. -/
theorem foldl_toDigits {value : Char → Nat} (hb : 1 < b)
    (h : ∀ d < b, value (Nat.digitChar d) = d) :
    (Nat.toDigits b n).foldl (fun v d => v * b + value d) 0 = n := by
  induction n using Nat.strong_induction_on with
  | _ n ih =>
    rw [Nat.toDigits_eq_if hb]
    split
    · next hn => simp [h n hn]
    · next hn =>
      have hlt : n / b < n := Nat.div_lt_self (by omega) hb
      rw [List.foldl_append, ih _ hlt, List.foldl_cons, List.foldl_nil,
        h _ (Nat.mod_lt n (by omega)), Nat.div_add_mod']

theorem head?_toDigits (hn : 0 < n) : (Nat.toDigits 10 n).head? ≠ some '0' := by
  induction n using Nat.strong_induction_on with
  | _ n ih =>
    rw [Nat.toDigits_eq_if (by decide)]
    split
    · next hlt =>
      have hdigits : ∀ d < 10, 0 < d → Nat.digitChar d ≠ '0' := by decide
      simpa using hdigits n hlt hn
    · next hlt =>
      have hne : Nat.toDigits 10 (n / 10) ≠ [] := fun h => by
        have := Nat.length_toDigits_pos (b := 10) (n := n / 10)
        simp [h] at this
      obtain ⟨c, t, hct⟩ := List.exists_cons_of_ne_nil hne
      have hhead := ih (n / 10) (by omega) (by omega)
      rw [hct] at hhead
      simpa [hct] using hhead

end ServerPages
