import Mathlib.Data.List.TakeWhile
import ServerPages.Page.Highlight

/-!
# Pages made uniform

Before a page is cut for display it is made uniform: without a byte order mark, with newlines for
its line ends, and with exactly one newline behind the last line that holds anything. What a page
then is can be told without the operations that make it so (`Highlight.normalise_eq_iff`).
-/

namespace ServerPages

namespace Text

variable {s t : Text} {c : Char}

/-- A text with its line ends made uniform. A line may end in a newline, in a carriage return, or in
both, which then are one end. -/
inductive Unified : Text → Text → Prop
  | nil : Unified [] []
  | pair {s t : Text} (h : Unified s t) : Unified ('\r' :: '\n' :: s) ('\n' :: t)
  | alone {s t : Text} (hs : s.head? ≠ some '\n') (h : Unified s t) : Unified ('\r' :: s) ('\n' :: t)
  | char {s t : Text} {c : Char} (hc : c ≠ '\r') (h : Unified s t) : Unified (c :: s) (c :: t)

private theorem unified_iff : Unified s t ↔ t = unifyNewlines s := by
  constructor
  · intro h
    induction h with
    | nil => rfl
    | pair _ ih => rw [ih, unifyNewlines]
    | @alone s t hs _ ih =>
      rw [ih, unifyNewlines.eq_3 _ _ fun u _ hu => hs (by rw [hu]; rfl), if_pos rfl]
    | @char s t c hc _ ih => rw [ih, unifyNewlines.eq_3 _ _ fun _ h _ => hc h, if_neg hc]
  · rintro rfl
    fun_induction unifyNewlines s with
    | case1 => exact .nil
    | case2 s ih => exact .pair ih
    | case3 c s hs ih =>
      split
      · next hc =>
        subst hc
        refine .alone (fun hhead => ?_) ih
        obtain ⟨u, rfl⟩ := List.head?_eq_some_iff.mp hhead
        exact hs u rfl rfl
      · next hc => exact .char hc ih

private theorem dropLeading_append {before : Text} (hbefore : ∀ d ∈ before, d = c)
    (ht : t.head? ≠ some c) : dropLeading c (before ++ t) = t := by
  have hpass : ∀ d ∈ before, decide (d = c) = true := fun d hd => decide_eq_true (hbefore d hd)
  rw [dropLeading, List.dropWhile_append_of_pos hpass]
  cases t with
  | nil => rfl
  | cons d t => rw [List.dropWhile_cons_of_neg (by simpa using ht)]

/-- What is trimmed of a character at both ends is what stands between its occurrences there. -/
theorem dropTrailing_dropLeading_iff : dropTrailing c (dropLeading c s) = t ↔
    ∃ before after, s = before ++ t ++ after ∧ (∀ d ∈ before, d = c) ∧ (∀ d ∈ after, d = c) ∧
      t.head? ≠ some c ∧ t.getLast? ≠ some c := by
  have hend (u : Text) : ∀ d ∈ u.takeWhile (· = c), d = c := fun d hd => by
    simpa using List.mem_takeWhile_imp hd
  have hhead (u : Text) : (u.dropWhile (· = c)).head? ≠ some c := fun h => by
    have hnot := List.head?_dropWhile_not (· = c) u
    rw [h] at hnot
    simp at hnot
  constructor
  · rintro rfl
    have hleft : dropLeading c s = dropTrailing c (dropLeading c s) ++
        ((dropLeading c s).reverse.takeWhile (· = c)).reverse := by
      rw [dropTrailing, ← List.reverse_append, List.takeWhile_append_dropWhile, List.reverse_reverse]
    have hafter : ∀ d ∈ ((dropLeading c s).reverse.takeWhile (· = c)).reverse, d = c := fun d hd =>
      hend (dropLeading c s).reverse d (List.mem_reverse.mp hd)
    refine ⟨s.takeWhile (· = c), _, ?_, hend s, hafter, ?_, ?_⟩
    · rw [List.append_assoc, ← hleft]
      exact List.takeWhile_append_dropWhile.symm
    · intro h
      refine hhead s ?_
      rw [← dropLeading, hleft, List.head?_append, h]
      rfl
    · rw [dropTrailing, List.getLast?_reverse]
      exact hhead _
  · rintro ⟨before, after, rfl, hbefore, hafter, hfirst, hlast⟩
    have hleft : dropLeading c (before ++ t ++ after) = t ++ if t = [] then [] else after := by
      cases t with
      | nil =>
        have hall : ∀ d ∈ before ++ after, d = c := fun d hd =>
          (List.mem_append.mp hd).elim (hbefore d) (hafter d)
        simpa using dropLeading_append (t := []) hall nofun
      | cons d t =>
        rw [List.append_assoc]
        exact dropLeading_append hbefore hfirst
    have hrest : ∀ d ∈ (if t = [] then [] else after).reverse, d = c := fun d hd => by
      split at hd
      · cases hd
      · exact hafter d (List.mem_reverse.mp hd)
    have hback : t.reverse.head? ≠ some c := by rwa [List.head?_reverse]
    have hright := dropLeading_append hrest hback
    rw [dropLeading] at hright
    rw [hleft, dropTrailing, List.reverse_append, hright, List.reverse_reverse]

end Text

namespace Highlight

variable {s t : Text}

private theorem normalise_of_head? {page : Text} (h : page.head? ≠ some '\uFEFF') : normalise page =
    Text.dropTrailing '\n' (Text.dropLeading '\n' (Text.unifyNewlines page)) ++ ['\n'] := by
  unfold normalise
  dsimp only
  split
  · exact absurd rfl h
  · rfl

/-- **How a page is displayed.** A byte order mark at its beginning is left out, but no second one;
line ends are made uniform; and of the newlines at both ends one is left, behind the last line. -/
theorem normalise_eq_iff : normalise s = t ↔ ∃ mark page before body after, s = mark ++ page ∧
    (mark = ['\uFEFF'] ∨ mark = [] ∧ page.head? ≠ some '\uFEFF') ∧
    Text.Unified page (before ++ body ++ after) ∧
    (∀ c ∈ before, c = '\n') ∧ (∀ c ∈ after, c = '\n') ∧
    body.head? ≠ some '\n' ∧ body.getLast? ≠ some '\n' ∧ t = body ++ ['\n'] := by
  constructor
  · rintro rfl
    have hmark : ∃ mark page, s = mark ++ page ∧
        (mark = ['\uFEFF'] ∨ mark = [] ∧ page.head? ≠ some '\uFEFF') ∧ normalise s =
          Text.dropTrailing '\n' (Text.dropLeading '\n' (Text.unifyNewlines page)) ++ ['\n'] := by
      by_cases h : s.head? = some '\uFEFF'
      · obtain ⟨page, rfl⟩ := List.head?_eq_some_iff.mp h
        exact ⟨['\uFEFF'], page, rfl, .inl rfl, rfl⟩
      · exact ⟨[], s, rfl, .inr ⟨rfl, h⟩, normalise_of_head? h⟩
    obtain ⟨mark, page, hs, hmark, hnormalise⟩ := hmark
    obtain ⟨before, after, hpage, hbefore, hafter, hfirst, hlast⟩ :=
      Text.dropTrailing_dropLeading_iff.mp
        (rfl : Text.dropTrailing '\n' (Text.dropLeading '\n' (Text.unifyNewlines page)) = _)
    exact ⟨mark, page, before, _, after, hs, hmark, Text.unified_iff.mpr hpage.symm, hbefore, hafter,
      hfirst, hlast, hnormalise⟩
  · rintro ⟨mark, page, before, body, after, rfl, hmark, hpage, hbefore, hafter, hfirst, hlast, rfl⟩
    have hbody : Text.dropTrailing '\n' (Text.dropLeading '\n' (Text.unifyNewlines page)) = body :=
      Text.dropTrailing_dropLeading_iff.mpr
        ⟨before, after, (Text.unified_iff.mp hpage).symm, hbefore, hafter, hfirst, hlast⟩
    rw [← hbody]
    obtain rfl | ⟨rfl, hpage⟩ := hmark
    · rfl
    · exact normalise_of_head? hpage

end Highlight

end ServerPages
