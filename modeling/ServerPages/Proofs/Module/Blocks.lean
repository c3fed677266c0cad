import ServerPages.Module.Layout

/-!
# Placing a block

A block of nothing but comments, and one that continues a statement, close the innermost suite
before they are placed. The lines of any block are added at one column, that of the layout then
(`placeBlock_body`), and what follows the block stands there or further right; in the second case
the column is put on top of the open suites (`placeBlock_suites`).
-/

namespace ServerPages

namespace Layout

/-- The code of a block as it is placed. -/
def blockCode (n : Node) : Text := Text.joinWith ['\n'] (blockLines n)

/-- Whether a block holds comments and nothing else. -/
def isComment (n : Node) : Bool := !(blockLines n).isEmpty && (blockLines n).all isInsignificant

/-- Whether a block closes the innermost suite before it is placed. -/
def closesSuite (n : Node) : Bool :=
  match (blockLines n).find? (!isInsignificant ·) with
  | none => true
  | some first => continues first

/-- The layout to which the lines of a block are added. -/
def before (l : Layout) (n : Node) : Layout := if closesSuite n then l.closeSuite else l

/-- The column at which the lines of a block are placed. -/
def blockColumn (l : Layout) (n : Node) : Nat := (l.before n).column

/-- How far right of a block's column stands what follows it. -/
def width (n : Node) : Nat :=
  let tail := Code.Tail.ofCode (blockCode n)
  if isComment n then 0 else if tail.opens then tail.column + indentWidth else tail.column

variable {l : Layout} {n : Node}

theorem emitAll_eq (l : Layout) (lines : List Text) :
    l.emitAll lines = { l with body := l.body ++ lines.map (lineAt l.column) } := by
  induction lines generalizing l with
  | nil => simp [emitAll]
  | cons line lines ih =>
    rw [emitAll, List.foldl_cons]
    refine (ih (l.emit line)).trans ?_
    simp [emit]

@[simp]
theorem closeSuite_body (l : Layout) : l.closeSuite.body = l.body := by
  cases l with
  | mk _ _ _ suites => cases suites <;> rfl

@[simp]
theorem before_body (l : Layout) (n : Node) : (l.before n).body = l.body := by
  rw [before]
  split
  · exact closeSuite_body l
  · rfl

theorem placeBlock_of_nil (h : blockLines n = []) : l.placeBlock n = l := by
  simp [placeBlock, h]

/-- A comment closes the innermost suite and opens none. -/
theorem placeBlock_of_isComment (h : isComment n = true) :
    closesSuite n = true ∧ l.placeBlock n = l.closeSuite.emitAll (blockLines n) := by
  rw [isComment, Bool.and_eq_true, Bool.not_eq_true', List.isEmpty_eq_false_iff,
    List.all_eq_true] at h
  have hfind : (blockLines n).find? (!isInsignificant ·) = none :=
    List.find?_eq_none.mpr fun line hline => by simp [h.2 line hline]
  constructor
  · simp [closesSuite, hfind]
  · simp [placeBlock, hfind, h.1]

/-- Other code goes where the layout stands, and opens a suite as it ends. -/
theorem placeBlock_of_code (hne : blockLines n ≠ []) (h : isComment n = false) :
    l.placeBlock n =
      ((l.before n).emitAll (blockLines n)).follow (Code.Tail.ofCode (blockCode n)) := by
  have hfind : ∃ first, (blockLines n).find? (!isInsignificant ·) = some first := by
    rw [← Option.isSome_iff_exists, List.find?_isSome]
    simpa [isComment, hne] using h
  obtain ⟨first, hfirst⟩ := hfind
  simp [placeBlock, hne, hfirst, before, closesSuite, blockCode]

private theorem follow_suites (l : Layout) (tail : Code.Tail) :
    l.column ≤ (l.follow tail).column ∧
      (l.follow tail).suites =
        if l.column < (l.follow tail).column then l.column :: l.suites else l.suites := by
  unfold follow
  split
  · simp [openSuite, emit, indentWidth]
  · split
    · simp
    · simp [openSuite, Nat.pos_of_ne_zero ‹_›]

/-- Opening a suite for a header adds the statement that does nothing. -/
theorem follow_body (l : Layout) (tail : Code.Tail) : (l.follow tail).body = l.body ++
    if tail.opens then [lineAt (l.column + (tail.column + indentWidth)) "pass".toList] else [] := by
  unfold follow
  cases tail.opens with
  | true => rfl
  | false =>
    simp only [Bool.false_eq_true, if_false, List.append_nil]
    split <;> rfl

private theorem follow_column (l : Layout) (tail : Code.Tail) : (l.follow tail).column =
    l.column + if tail.opens then tail.column + indentWidth else tail.column := by
  unfold follow
  split
  · rfl
  · split
    · next hzero => rw [hzero, Nat.add_zero]
    · rfl

theorem placeBlock_column (l : Layout) (hne : blockLines n ≠ []) :
    (l.placeBlock n).column = l.blockColumn n + width n := by
  cases hcomment : isComment n with
  | true =>
    obtain ⟨hcloses, hplace⟩ := placeBlock_of_isComment (l := l) hcomment
    simp [blockColumn, before, hcloses, hplace, emitAll_eq, width, hcomment]
  | false =>
    rw [placeBlock_of_code hne hcomment, follow_column, emitAll_eq]
    simp [blockColumn, width, hcomment]

/-- What follows a block stands at its column or further right, and then that column is on top of
the open suites. -/
theorem placeBlock_suites (hne : blockLines n ≠ []) :
    l.blockColumn n ≤ (l.placeBlock n).column ∧
      (l.placeBlock n).suites =
        if l.blockColumn n < (l.placeBlock n).column then l.blockColumn n :: (l.before n).suites
        else (l.before n).suites := by
  cases hcomment : isComment n with
  | true =>
    obtain ⟨hcloses, hplace⟩ := placeBlock_of_isComment (l := l) hcomment
    simp [blockColumn, before, hcloses, hplace, emitAll_eq]
  | false =>
    have h := follow_suites ((l.before n).emitAll (blockLines n)) (Code.Tail.ofCode (blockCode n))
    rw [placeBlock_of_code hne hcomment]
    simpa only [emitAll_eq, blockColumn] using h

/-- A block of white space opens nothing. -/
theorem opens_of_nil (h : blockLines n = []) :
    (Code.Tail.ofCode (blockCode n)).opens = false := by
  rw [blockCode, h]
  decide +kernel

/-- The lines that a block adds where it stands: its own, and the statement that does nothing if it
opens a suite. -/
def blockEntries (column : Nat) (n : Node) : List Text :=
  (blockLines n).map (lineAt column) ++
    if !isComment n && (Code.Tail.ofCode (blockCode n)).opens then
      [lineAt (column + width n) "pass".toList]
    else []

theorem placeBlock_body_eq (l : Layout) (n : Node) :
    (l.placeBlock n).body = l.body ++ blockEntries (l.blockColumn n) n := by
  by_cases hnil : blockLines n = []
  · simp [placeBlock_of_nil hnil, blockEntries, hnil, opens_of_nil hnil]
  cases hcomment : isComment n with
  | true =>
    obtain ⟨hcloses, hplace⟩ := placeBlock_of_isComment (l := l) hcomment
    simp [blockEntries, hcomment, hplace, emitAll_eq, blockColumn, before, hcloses]
  | false =>
    rw [placeBlock_of_code hnil hcomment, follow_body, emitAll_eq, blockEntries, hcomment, width]
    cases hopens : (Code.Tail.ofCode (blockCode n)).opens <;> simp [blockColumn, hcomment]

/-- **The lines of a block are added at one column**, and behind them at most the statement that
does nothing. -/
theorem placeBlock_body (l : Layout) (n : Node) :
    ∃ pass, (pass = [] ∨ pass = [lineAt (l.placeBlock n).column "pass".toList]) ∧
      (l.placeBlock n).body =
        l.body ++ (blockLines n).map (lineAt (l.blockColumn n)) ++ pass := by
  refine ⟨_, ?_, (placeBlock_body_eq l n).trans (List.append_assoc ..).symm⟩
  split
  · next hopens =>
    have hne : blockLines n ≠ [] := fun hnil => by simp [opens_of_nil hnil] at hopens
    rw [placeBlock_column l hne]
    exact .inr rfl
  · exact .inl rfl

end Layout

end ServerPages
