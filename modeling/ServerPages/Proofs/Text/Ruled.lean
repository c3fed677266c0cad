import Mathlib.Data.List.Basic
import Mathlib.Data.List.TakeWhile
import ServerPages.Text.Letter

/-!
# Letters in lines

The lines of letters are told by what they make up: with a newline behind each of them they are the
letters, but for newlines at the end (`Letter.AreLines`). The operation that takes letters apart
finds them (`Letter.areLines_lines`).
-/

namespace ServerPages

namespace Letter

variable {sep : Char} {s : List Letter}

/-- Letters are made of lines: with a newline behind them they are the lines with a newline behind
each, and newlines behind all of them. No line holds a newline, and the last one is not empty unless
it is the only one. -/
structure AreLines (s : List Letter) (ls : List (List Letter)) : Prop where
  joined : ∃ k, s ++ [.char '\n'] =
    ls.flatMap (· ++ [.char '\n']) ++ List.replicate k (.char '\n')
  newline_notMem : ∀ l ∈ ls, .char '\n' ∉ l
  last : ls.getLast? = some [] → ls = [[]]

private theorem exists_splitOn_eq (sep : Char) (s : List Letter) :
    ∃ piece pieces, splitOn sep s = piece :: pieces := by
  cases s with
  | nil => exact ⟨[], [], rfl⟩
  | cons l s =>
    rw [splitOn]
    split
    · exact ⟨[], _, rfl⟩
    · split
      · exact ⟨[l], [], rfl⟩
      · exact ⟨l :: _, _, rfl⟩

/-- Pieces with a separator behind each of them are what was split. -/
private theorem flatMap_splitOn (sep : Char) (s : List Letter) :
    (splitOn sep s).flatMap (· ++ [.char sep]) = s ++ [.char sep] := by
  induction s with
  | nil => rfl
  | cons l s ih =>
    obtain ⟨piece, pieces, hpieces⟩ := exists_splitOn_eq sep s
    rw [splitOn, hpieces]
    rw [hpieces] at ih
    split
    · next hl =>
      rw [List.flatMap_cons, ih, hl]
      rfl
    · exact congrArg (l :: ·) ih

private theorem notMem_of_mem_splitOn {piece : List Letter} (h : piece ∈ splitOn sep s) :
    .char sep ∉ piece := by
  induction s generalizing piece with
  | nil =>
    rw [splitOn, List.mem_singleton] at h
    rw [h]
    exact List.not_mem_nil
  | cons l s ih =>
    obtain ⟨first, pieces, hpieces⟩ := exists_splitOn_eq sep s
    rw [splitOn, hpieces] at h
    rw [hpieces] at ih
    split at h
    · obtain rfl | h := List.mem_cons.mp h
      · exact List.not_mem_nil
      · exact ih h
    · next hl =>
      obtain rfl | h := List.mem_cons.mp h
      · exact List.not_mem_cons_of_ne_of_not_mem (Ne.symm hl) (ih List.mem_cons_self)
      · exact ih (List.mem_cons_of_mem _ h)

/-- Only the trailing occurrences of a character are dropped, and all of them. -/
private theorem exists_dropTrailing_eq (c : Char) (s : List Letter) :
    ∃ k, s = dropTrailing c s ++ List.replicate k (.char c) ∧
      (dropTrailing c s).getLast? ≠ some (.char c) := by
  have hend : s.reverse.takeWhile (· = .char c) =
      List.replicate (s.reverse.takeWhile (· = .char c)).length (.char c) :=
    List.eq_replicate_iff.mpr ⟨rfl, fun l hl => by simpa using List.mem_takeWhile_imp hl⟩
  refine ⟨(s.reverse.takeWhile (· = .char c)).length, ?_, fun hlast => ?_⟩
  · rw [dropTrailing, ← List.reverse_replicate, ← hend, ← List.reverse_append,
      List.takeWhile_append_dropWhile, List.reverse_reverse]
  · have hnot := List.head?_dropWhile_not (· = Letter.char c) s.reverse
    rw [dropTrailing, List.getLast?_reverse] at hlast
    rw [hlast] at hnot
    simp at hnot

/-- **The lines of letters are what they are made of.** -/
theorem areLines_lines (s : List Letter) : AreLines s (lines s) := by
  obtain ⟨k, hs, hend⟩ := exists_dropTrailing_eq '\n' s
  have hsplit := flatMap_splitOn '\n' (dropTrailing '\n' s)
  refine ⟨⟨k, ?_⟩, fun l hl => notMem_of_mem_splitOn hl, fun hlast => ?_⟩
  · calc s ++ [.char '\n']
        = dropTrailing '\n' s ++ (List.replicate k (.char '\n') ++ [.char '\n']) := by
          rw [← List.append_assoc, ← hs]
      _ = (dropTrailing '\n' s ++ [.char '\n']) ++ List.replicate k (.char '\n') := by
          rw [← List.replicate_succ', List.replicate_succ, List.append_assoc]
          rfl
      _ = (lines s).flatMap (· ++ [.char '\n']) ++ List.replicate k (.char '\n') := by
          rw [lines, hsplit]
  · -- an empty last line would stand behind a newline, and none is left at the end
    obtain ⟨before, hlines⟩ := List.getLast?_eq_some_iff.mp hlast
    rw [lines] at hlines
    rw [hlines, List.flatMap_append, List.flatMap_singleton, List.nil_append] at hsplit
    have hbefore := List.append_cancel_right hsplit
    obtain rfl | ⟨init, l, rfl⟩ := List.eq_nil_or_concat' before
    · exact hlines
    · refine absurd ?_ hend
      rw [← hbefore, List.flatMap_append, List.flatMap_singleton, ← List.append_assoc]
      exact List.getLast?_concat

end Letter

end ServerPages
