import ServerPages.Text.Basic

/-!
# The pieces of a text

Splitting at a separator and joining undo each other: no piece holds a separator, and texts that
hold none come back from what they are joined to (`splitOn_joinWith`).
-/

namespace ServerPages

namespace Text

variable {sep : Char}

theorem splitOn_append_cons (s u : Text) :
    splitOn sep (s ++ sep :: u) = splitOn sep s ++ splitOn sep u := by
  induction s with
  | nil => simp [splitOn]
  | cons c s ih =>
    rw [List.cons_append, splitOn, splitOn]
    by_cases hc : c = sep
    · simp [hc, ih]
    · obtain ⟨p, ps, hp⟩ := List.exists_cons_of_ne_nil (splitOn_ne_nil sep s)
      rw [if_neg hc, if_neg hc, ih, hp]
      rfl

theorem splitOn_of_not_mem {s : Text} (h : sep ∉ s) : splitOn sep s = [s] := by
  induction s with
  | nil => rfl
  | cons c s ih =>
    obtain ⟨hc, hs⟩ := not_or.mp (mt List.mem_cons.mpr h)
    rw [splitOn, if_neg (Ne.symm hc), ih hs]

/-- No piece between separators holds one. -/
theorem not_mem_of_mem_splitOn {s piece : Text} (h : piece ∈ splitOn sep s) : sep ∉ piece := by
  induction s generalizing piece with
  | nil =>
    rw [splitOn, List.mem_singleton] at h
    subst h
    exact List.not_mem_nil
  | cons c s ih =>
    obtain ⟨p, ps, hp⟩ := List.exists_cons_of_ne_nil (splitOn_ne_nil sep s)
    rw [splitOn, hp] at h
    rw [hp] at ih
    by_cases hc : c = sep
    · rw [if_pos hc, List.mem_cons] at h
      rcases h with rfl | h
      · exact List.not_mem_nil
      · exact ih h
    · rw [if_neg hc, List.mem_cons] at h
      rcases h with rfl | h
      · have := ih List.mem_cons_self
        simp [Ne.symm hc, this]
      · exact ih (List.mem_cons_of_mem _ h)

/-- The pieces hold nothing but what the text holds. -/
theorem mem_of_mem_splitOn {s piece : Text} {x : Char} (h : piece ∈ splitOn sep s)
    (hx : x ∈ piece) : x ∈ s := by
  induction s generalizing piece with
  | nil =>
    rw [splitOn, List.mem_singleton] at h
    exact h ▸ hx
  | cons c s ih =>
    obtain ⟨p, ps, hp⟩ := List.exists_cons_of_ne_nil (splitOn_ne_nil sep s)
    rw [splitOn, hp] at h
    rw [hp] at ih
    by_cases hc : c = sep
    · rw [if_pos hc, List.mem_cons] at h
      rcases h with rfl | h
      · exact absurd hx List.not_mem_nil
      · exact List.mem_cons_of_mem _ (ih h hx)
    · rw [if_neg hc, List.mem_cons] at h
      rcases h with rfl | h
      · exact List.mem_cons.mpr ((List.mem_cons.mp hx).imp_right (ih List.mem_cons_self))
      · exact List.mem_cons_of_mem _ (ih (List.mem_cons_of_mem _ h) hx)

/-- Splitting undoes joining. -/
theorem splitOn_joinWith {pieces : List Text} (hne : pieces ≠ []) (h : ∀ p ∈ pieces, sep ∉ p) :
    splitOn sep (joinWith [sep] pieces) = pieces := by
  induction pieces with
  | nil => exact absurd rfl hne
  | cons p rest ih =>
    have hp : splitOn sep p = [p] := splitOn_of_not_mem (h p List.mem_cons_self)
    cases rest with
    | nil => exact hp
    | cons q rest =>
      have hrest := ih (by simp) fun r hr => h r (List.mem_cons_of_mem _ hr)
      rw [joinWith, List.append_assoc, List.singleton_append, splitOn_append_cons, hp, hrest]
      rfl

/-- Pieces that are joined in two parts. -/
theorem joinWith_append {sep : Text} {ps qs : List Text} (hp : ps ≠ []) (hq : qs ≠ []) :
    joinWith sep (ps ++ qs) = joinWith sep ps ++ (sep ++ joinWith sep qs) := by
  induction ps with
  | nil => exact absurd rfl hp
  | cons p ps ih =>
    cases ps with
    | nil =>
      obtain ⟨q, qs, rfl⟩ := List.exists_cons_of_ne_nil hq
      rw [List.singleton_append, joinWith, joinWith, List.append_assoc]
    | cons r ps =>
      have ih := ih (List.cons_ne_nil _ _)
      rw [List.cons_append] at ih
      rw [List.cons_append, List.cons_append, joinWith, joinWith, ih, List.append_assoc,
        List.append_assoc, List.append_assoc]

theorem mem_joinWith {x : Char} {sep : Text} {pieces : List Text} (h : x ∈ joinWith sep pieces) :
    x ∈ sep ∨ ∃ p ∈ pieces, x ∈ p := by
  induction pieces with
  | nil => exact absurd h List.not_mem_nil
  | cons p rest ih =>
    cases rest with
    | nil => exact .inr ⟨p, List.mem_cons_self, h⟩
    | cons q rest =>
      rw [joinWith, List.append_assoc, List.mem_append, List.mem_append] at h
      rcases h with h | h | h
      · exact .inr ⟨p, List.mem_cons_self, h⟩
      · exact .inl h
      · rcases ih h with hsep | ⟨r, hr, hx⟩
        · exact .inl hsep
        · exact .inr ⟨r, List.mem_cons_of_mem _ hr, hx⟩

/-! ### The lines of a text -/

variable {s t : Text}

private theorem length_splitOn (s : Text) : (splitOn sep s).length = s.count sep + 1 := by
  induction s with
  | nil => rfl
  | cons c s ih =>
    obtain ⟨p, ps, hp⟩ := List.exists_cons_of_ne_nil (splitOn_ne_nil sep s)
    rw [hp] at ih
    by_cases hc : c = sep
    · simp [splitOn, hc, hp] at ih ⊢
      omega
    · simp [splitOn, hc, hp] at ih ⊢
      omega

private theorem head?_splitOn (sep : Char) (s : Text) :
    (splitOn sep s).head? = some (s.takeWhile (· ≠ sep)) := by
  induction s with
  | nil => rfl
  | cons c s ih =>
    obtain ⟨p, ps, hp⟩ := List.exists_cons_of_ne_nil (splitOn_ne_nil sep s)
    rw [hp, List.head?_cons, Option.some.injEq] at ih
    by_cases hc : c = sep
    · simp [splitOn, hc]
    · simp [splitOn, hc, hp, ih]

theorem lastPiece_of_not_mem (h : sep ∉ s) : lastPiece sep s = s := by
  simp [lastPiece, splitOn_of_not_mem h]

theorem lastPiece_append_cons (h : sep ∉ t) : lastPiece sep (s ++ sep :: t) = t := by
  simp [lastPiece, splitOn_append_cons, splitOn_of_not_mem h]

/-- A text is one piece, or its last piece stands behind a separator. -/
theorem not_mem_or_eq_append_cons (sep : Char) (s : Text) :
    sep ∉ s ∨ ∃ r t, s = r ++ sep :: t ∧ sep ∉ t := by
  by_cases h : sep ∈ s
  · obtain ⟨t, r, hr, hnot⟩ := List.eq_append_cons_of_mem (List.mem_reverse.mpr h)
    refine .inr ⟨r.reverse, t.reverse, ?_, by simpa using hnot⟩
    rw [← List.reverse_reverse s, hr]
    simp
  · exact .inl h

theorem lastPiece_append (h : sep ∉ t) : lastPiece sep (s ++ t) = lastPiece sep s ++ t := by
  obtain hs | ⟨r, u, rfl, hu⟩ := not_mem_or_eq_append_cons sep s
  · have hst : sep ∉ s ++ t := by simp [hs, h]
    rw [lastPiece_of_not_mem hs, lastPiece_of_not_mem hst]
  · have hut : sep ∉ u ++ t := by simp [hu, h]
    rw [lastPiece_append_cons hu, List.append_assoc, List.cons_append, lastPiece_append_cons hut]

theorem lastPiece_append_cons_right (s t : Text) :
    lastPiece sep (s ++ sep :: t) = lastPiece sep t := by
  obtain ⟨p, hp⟩ := List.getLast?_isSome.mpr (splitOn_ne_nil sep t) |> Option.isSome_iff_exists.mp
  simp [lastPiece, List.getLastD_eq_getLast?, splitOn_append_cons, hp]

/-- The last piece of a text is all that matters to the last piece of a longer one. -/
theorem lastPiece_lastPiece_append (s t : Text) :
    lastPiece sep (lastPiece sep s ++ t) = lastPiece sep (s ++ t) := by
  obtain hs | ⟨r, u, rfl, hu⟩ := not_mem_or_eq_append_cons sep s
  · rw [lastPiece_of_not_mem hs]
  · rw [lastPiece_append_cons hu, List.append_assoc, List.cons_append, lastPiece_append_cons_right]

theorem not_mem_lastPiece (sep : Char) (s : Text) : sep ∉ lastPiece sep s := by
  obtain hs | ⟨r, u, rfl, hu⟩ := not_mem_or_eq_append_cons sep s
  · rwa [lastPiece_of_not_mem hs]
  · rwa [lastPiece_append_cons hu]

/-- The piece in which a text goes on with another. -/
theorem splitOn_append_getD (sep : Char) (s t : Text) :
    (splitOn sep (s ++ t)).getD (s.count sep) [] = lastPiece sep s ++ t.takeWhile (· ≠ sep) := by
  have hfirst : ∀ u : Text, sep ∉ u →
      (splitOn sep (u ++ t)).getD 0 [] = u ++ t.takeWhile (· ≠ sep) := by
    intro u hu
    have hall : ∀ c ∈ u, decide (c ≠ sep) = true := by
      intro c hc
      simpa using ne_of_mem_of_not_mem hc hu
    have hhead := head?_splitOn sep (u ++ t)
    rw [List.takeWhile_append_of_pos hall] at hhead
    rw [List.getD_eq_getElem?_getD, ← List.head?_eq_getElem?, hhead, Option.getD_some]
  obtain hs | ⟨r, u, rfl, hu⟩ := not_mem_or_eq_append_cons sep s
  · rw [List.count_eq_zero.mpr hs, lastPiece_of_not_mem hs, hfirst s hs]
  · have hcount : (r ++ sep :: u).count sep = (splitOn sep r).length := by
      rw [length_splitOn, List.count_append, List.count_cons_self, List.count_eq_zero.mpr hu]
    rw [lastPiece_append_cons hu, ← hfirst u hu, hcount, List.append_assoc, List.cons_append,
      splitOn_append_cons]
    simp [List.getD_eq_getElem?_getD, List.getElem?_append_right]

theorem beginsWith_iff {p s : Text} : beginsWith p s = true ↔ p <+: s := by
  rw [beginsWith, Option.isSome_iff_exists]
  constructor
  · rintro ⟨r, hr⟩
    exact ⟨r, (after?_eq_some_iff.mp hr).symm⟩
  · rintro ⟨r, hr⟩
    exact ⟨r, after?_eq_some_iff.mpr hr.symm⟩

end Text

end ServerPages
