import ServerPages.Proofs.Code.Moved
import ServerPages.Proofs.Module.Hoisting
import Mathlib.Data.List.Induction

/-!
# The lines of a directive's code

A directive's code is taken by lines: each loses the indentation that all have in common and is
placed behind other white space, and a line of white space becomes empty (`moveLine`). That is a way
to move lines (`isMove_moveLine`), of which dedenting is a case. The lines of a block and the
top-level code are the lines of the code, dedented, without the empty ones at both ends
(`blockLines_eq`, `trimNewlines_joinWith`).
-/

namespace ServerPages

namespace Text

variable {margin line l r s t : Text} {c : Char} {lines : List Text}

/-! ### Margins -/

theorem isBlank_of_isIndent (h : isIndent c = true) : isBlank c = true := by
  simp only [isIndent, Bool.or_eq_true, beq_iff_eq] at h
  obtain rfl | rfl := h <;> rfl

/-- What indents a visible line is told by its beginning. -/
theorem after?_append (hmargin : ∀ c ∈ margin, isIndent c = true) (hl : isAllBlank l = false)
    (r : Text) : after? margin (l ++ r) = (after? margin l).map (· ++ r) := by
  induction margin generalizing l with
  | nil => rfl
  | cons d margin ih =>
    rw [List.forall_mem_cons] at hmargin
    cases l with
    | nil => cases hl
    | cons c l =>
      simp only [List.cons_append, after?]
      split
      · next hcd =>
        subst hcd
        refine ih hmargin.2 ?_
        simpa [isAllBlank, isBlank_of_isIndent hmargin.1] using hl
      · rfl

private theorem dropWhile_after? {p : Char → Bool} (hmargin : ∀ c ∈ margin, p c = true) (l : Text) :
    ((after? margin l).getD l).dropWhile p = l.dropWhile p := by
  cases hafter : after? margin l with
  | none => rfl
  | some rest => rw [after?_eq_some_iff.mp hafter, List.dropWhile_append_of_pos hmargin]; rfl

private theorem commonStart_comm (s t : Text) : commonStart s t = commonStart t s := by
  induction s generalizing t with
  | nil => cases t <;> rfl
  | cons c s ih =>
    cases t with
    | nil => rfl
    | cons d t =>
      rw [commonStart, commonStart]
      by_cases hcd : c = d
      · rw [if_pos hcd, if_pos hcd.symm, ih, hcd]
      · rw [if_neg hcd, if_neg (Ne.symm hcd)]

private theorem prefix_of_commonStart (s t : Text) : commonStart s t <+: s ∧ commonStart s t <+: t := by
  obtain ⟨r, hr⟩ := commonStart_append_left s t
  obtain ⟨v, hv⟩ := commonStart_append_left t s
  exact ⟨⟨r, hr.symm⟩, ⟨v, by rw [commonStart_comm]; exact hv.symm⟩⟩

private theorem margin?_append_singleton (lines : List Text) (line : Text) :
    margin? (lines ++ [line]) = if line.all isIndent then margin? lines else
      some (match margin? lines with
        | none => line.takeWhile isIndent
        | some margin => commonStart margin (line.takeWhile isIndent)) :=
  List.foldl_append

/-- The common indentation begins every line that holds more than spaces and tabs. -/
theorem exists_margin?_of_mem (hline : line ∈ lines) (hl : line.all isIndent = false) :
    ∃ margin, margin? lines = some margin ∧ margin <+: line := by
  induction lines using List.reverseRecOn with
  | nil => cases hline
  | append_singleton lines last ih =>
    rw [margin?_append_singleton]
    obtain hline | hline := List.mem_append.mp hline
    · obtain ⟨margin, hmargin, hprefix⟩ := ih hline
      split
      · exact ⟨margin, hmargin, hprefix⟩
      · rw [hmargin]
        exact ⟨_, rfl, (prefix_of_commonStart _ _).1.trans hprefix⟩
    · obtain rfl := List.mem_singleton.mp hline
      rw [hl, if_neg Bool.false_ne_true]
      refine ⟨_, rfl, ?_⟩
      cases margin? lines with
      | none => exact List.takeWhile_prefix isIndent
      | some margin => exact (prefix_of_commonStart _ _).2.trans (List.takeWhile_prefix isIndent)

end Text

namespace Layout

variable {margin lead line l r : Text} {isEmpty : Text → Bool} {n : Node}

/-! ### Moving lines -/

/-- A line that is placed behind white space, without the common indentation; a line that counts as
empty becomes empty. -/
def moveLine (isEmpty : Text → Bool) (lead margin line : Text) : Text :=
  if isEmpty line then [] else lead ++ (Text.after? margin line).getD line

theorem isPad_of_isIndent {c : Char} (h : Text.isIndent c = true) : Code.isPad c = true := by
  simp only [Text.isIndent, Bool.or_eq_true, beq_iff_eq] at h
  obtain rfl | rfl := h <;> rfl

/-- A line that shows something counts as no empty one. -/
theorem isEmpty_eq_false (hempty : ∀ line, isEmpty line = true → Text.isAllBlank line = true)
    (h : Text.isAllBlank line = false) : isEmpty line = false := by
  by_contra hline
  rw [hempty line (by simpa using hline)] at h
  cases h

theorem isMove_moveLine (hlead : ∀ c ∈ lead, Code.isPad c = true)
    (hmargin : ∀ c ∈ margin, Text.isIndent c = true)
    (hempty : ∀ line, isEmpty line = true → Text.isAllBlank line = true) :
    Code.IsMove (moveLine isEmpty lead margin) where
  not_mem line hline hmem := by
    rw [moveLine] at hmem
    split at hmem
    · cases hmem
    · obtain hmem | hmem := List.mem_append.mp hmem
      · cases hlead _ hmem
      · cases hafter : Text.after? margin line with
        | none => exact hline (by simpa [hafter] using hmem)
        | some rest =>
          refine hline ?_
          rw [Text.after?_eq_some_iff.mp hafter]
          exact List.mem_append_right margin (by simpa [hafter] using hmem)
  alike line := by
    rw [moveLine]
    split
    · next h => exact .inr ⟨hempty line h, rfl⟩
    · rw [List.dropWhile_append_of_pos hlead,
        Text.dropWhile_after? fun c hc => isPad_of_isIndent (hmargin c hc)]
      exact .inl rfl
  append line r hline := by
    have hlong : Text.isAllBlank (line ++ r) = false := by
      simp [Text.isAllBlank, List.all_append, show line.all Text.isBlank = false from hline]
    rw [moveLine, moveLine, isEmpty_eq_false hempty hline, isEmpty_eq_false hempty hlong,
      Text.after?_append hmargin hline]
    cases Text.after? margin line <;> simp

private theorem isAllBlank_dropWhile (s : Text) :
    Text.isAllBlank (s.dropWhile Code.isPad) = Text.isAllBlank s := by
  induction s with
  | nil => rfl
  | cons c s ih =>
    by_cases hc : Code.isPad c = true
    · rw [List.dropWhile_cons_of_pos hc, ih]
      simp [Text.isAllBlank, Code.isBlank_of_isPad hc]
    · rw [List.dropWhile_cons_of_neg hc]

private theorem isAllBlank_move {move : Text → Text} (hmove : Code.IsMove move) (line : Text) :
    Text.isAllBlank (move line) = Text.isAllBlank line := by
  obtain h | ⟨hblank, hnil⟩ := hmove.alike line
  · rw [← isAllBlank_dropWhile, h, isAllBlank_dropWhile]
  · rw [hnil, hblank]
    rfl

theorem isAllBlank_of_isIndent (h : line.all Text.isIndent = true) : Text.isAllBlank line = true :=
  List.all_eq_true.mpr fun c hc => Text.isBlank_of_isIndent (List.all_eq_true.mp h c hc)

/-- Dedenting moves lines. -/
theorem isMove_dedentLine (hmargin : ∀ c ∈ margin, Text.isIndent c = true) :
    Code.IsMove (Text.dedentLine margin) := by
  show Code.IsMove (moveLine (·.all Text.isIndent) [] margin)
  exact isMove_moveLine (by simp) hmargin fun _ => isAllBlank_of_isIndent

theorem dedentLine_isEmpty (hmargin : ∀ c ∈ margin, Text.isIndent c = true) (line : Text) :
    (Text.dedentLine margin line).isEmpty = line.all Text.isIndent := by
  cases hall : line.all Text.isIndent with
  | true => simp [Text.dedentLine, hall]
  | false =>
    rw [Text.dedentLine, hall, List.isEmpty_eq_false_iff, if_neg Bool.false_ne_true]
    cases hafter : Text.after? margin line with
    | none =>
      rintro rfl
      cases hall
    | some rest =>
      rintro rfl
      rw [Text.after?_eq_some_iff.mp hafter, List.append_nil, List.all_eq_true.mpr hmargin] at hall
      cases hall

theorem lineAt_dedentLine (hmargin : ∀ c ∈ margin, Text.isIndent c = true) (column : Nat)
    (line : Text) : lineAt column (Text.dedentLine margin line) = moveLine Text.isAllBlank
      (List.replicate (bodyIndent + column) ' ') margin line ++ ['\n'] := by
  rw [lineAt, isAllBlank_move (isMove_dedentLine hmargin), moveLine]
  cases hblank : Text.isAllBlank line with
  | true => rfl
  | false =>
    have hall : line.all Text.isIndent = false :=
      isEmpty_eq_false (fun _ => isAllBlank_of_isIndent) hblank
    simp [Text.dedentLine, hall]

/-! ### Newlines at both ends -/

/-- A list without what satisfies a condition at its ends. -/
def trim {α : Type} (p : α → Bool) (ls : List α) : List α :=
  ((ls.dropWhile p).reverse.dropWhile p).reverse

theorem trim_map {α β : Type} (p : β → Bool) (f : α → β) (ls : List α) :
    trim p (ls.map f) = (trim (p ∘ f) ls).map f := by
  rw [trim, trim, List.dropWhile_map, ← List.map_reverse, List.dropWhile_map, List.map_reverse]

theorem exists_trim {α : Type} (p : α → Bool) (ls : List α) :
    ∃ front back, ls = front ++ trim p ls ++ back ∧ (∀ l ∈ front, p l = true) ∧
      ∀ l ∈ back, p l = true := by
  refine ⟨ls.takeWhile p, ((ls.dropWhile p).reverse.takeWhile p).reverse, ?_,
    fun l hl => List.mem_takeWhile_imp hl,
    fun l hl => List.mem_takeWhile_imp (List.mem_reverse.mp hl)⟩
  rw [trim, List.append_assoc, ← List.reverse_append, List.takeWhile_append_dropWhile,
    List.reverse_reverse, List.takeWhile_append_dropWhile]

private theorem dropLeading_joinWith {ls : List Text} (h : ∀ l ∈ ls, '\n' ∉ l) :
    Text.dropLeading '\n' (Text.joinWith ['\n'] ls) =
      Text.joinWith ['\n'] (ls.dropWhile List.isEmpty) := by
  induction ls with
  | nil => rfl
  | cons l ls ih =>
    rw [List.forall_mem_cons] at h
    cases l with
    | nil =>
      rw [List.dropWhile_cons_of_pos rfl, ← ih h.2]
      cases ls <;> rfl
    | cons c l =>
      have hc : c ≠ '\n' := fun hc => h.1 (by simp [hc])
      rw [List.dropWhile_cons_of_neg (by simp), Code.joinWith_cons, List.cons_append,
        Text.dropLeading, List.dropWhile_cons_of_neg (by simpa using hc)]

private theorem reverse_joinWith (ls : List Text) : (Text.joinWith ['\n'] ls).reverse =
    Text.joinWith ['\n'] (ls.reverse.map List.reverse) := by
  induction ls with
  | nil => rfl
  | cons l ls ih =>
    cases ls with
    | nil => rfl
    | cons m ls =>
      rw [List.reverse_cons, List.map_append, List.map_singleton,
        Text.joinWith_append (by simp) (by simp), ← ih]
      simp [Text.joinWith]

/-- Newlines at both ends of lines that are joined stand for empty lines there. -/
theorem trimNewlines_joinWith {ls : List Text} (h : ∀ l ∈ ls, '\n' ∉ l) :
    trimNewlines (Text.joinWith ['\n'] ls) = Text.joinWith ['\n'] (trim List.isEmpty ls) := by
  have hrest : ∀ l ∈ (ls.dropWhile List.isEmpty).reverse.map List.reverse, '\n' ∉ l := by
    intro reversed hreversed
    obtain ⟨l, hl, rfl⟩ := List.mem_map.mp hreversed
    rw [List.mem_reverse] at hl ⊢
    exact h l ((List.dropWhile_suffix _).mem hl)
  have hsame : List.isEmpty ∘ List.reverse = (List.isEmpty : Text → Bool) := by
    funext l
    simp
  rw [trimNewlines, dropLeading_joinWith h, Text.dropTrailing, reverse_joinWith]
  have hdrop := dropLeading_joinWith hrest
  rw [Text.dropLeading, List.dropWhile_map, hsame] at hdrop
  rw [hdrop, reverse_joinWith, ← List.map_reverse, List.map_map, trim]
  simp

theorem trimNewlines_of_not_mem {s : Text} (h : '\n' ∉ s) : trimNewlines s = s := by
  have hone := trimNewlines_joinWith (List.forall_mem_singleton.mpr h)
  cases s <;> simpa [Text.joinWith, trim] using hone

/-! ### The lines of a directive -/

/-- The code of a directive where it stands. -/
def code (n : Node) : Text := n.indent ++ n.text

/-- The lines of a directive's code. -/
def codeLines (n : Node) : List Text := Text.splitOn '\n' (code n)

/-- The common indentation of a directive's code. -/
def codeMargin (n : Node) : Text := (Text.margin? (codeLines n)).getD []

theorem isIndent_of_mem_codeMargin (n : Node) : ∀ c ∈ codeMargin n, Text.isIndent c = true := by
  rw [codeMargin]
  cases hmargin : Text.margin? (codeLines n) with
  | none => simp
  | some margin => exact Text.isIndent_of_mem_margin? margin hmargin

private theorem not_mem_of_mem_codeLines (h : line ∈ codeLines n) : '\n' ∉ line :=
  Text.not_mem_of_mem_splitOn h

theorem not_mem_dedentLine (hline : line ∈ (codeLines n).map (Text.dedentLine (codeMargin n))) :
    '\n' ∉ line := by
  obtain ⟨l, hl, rfl⟩ := List.mem_map.mp hline
  exact (isMove_dedentLine (isIndent_of_mem_codeMargin n)).not_mem l (not_mem_of_mem_codeLines hl)

theorem dedented_eq (n : Node) : dedented n =
    Text.joinWith ['\n'] ((codeLines n).map (Text.dedentLine (codeMargin n))) := rfl

theorem blockLines_eq (n : Node) : blockLines n =
    (trim Text.isAllBlank (codeLines n)).map (Text.dedentLine (codeMargin n)) := by
  have hne : (codeLines n).map (Text.dedentLine (codeMargin n)) ≠ [] := by
    simpa [codeLines] using Text.splitOn_ne_nil _ _
  have hsame : Text.isAllBlank ∘ Text.dedentLine (codeMargin n) = Text.isAllBlank :=
    funext (isAllBlank_move (isMove_dedentLine (isIndent_of_mem_codeMargin n)))
  rw [blockLines, dedented_eq, Text.splitOn_joinWith hne fun _ => not_mem_dedentLine]
  show trim Text.isAllBlank _ = _
  rw [trim_map, hsame]

end Layout

end ServerPages
