import ServerPages.Proofs.Code.Kept
import ServerPages.Proofs.Module.Blocks
import ServerPages.Proofs.Module.Dedent

/-!
# Placed code says what it said

What a directive adds to a module are the lines of its code, moved (`exists_emitted_eq`), and so
reading it goes as reading the code does, but for strings that go on over lines and for statements
out of line (`emitted_says_iff`). A string keeps its text only if its lines stand where they stood: a
line of white space in it becomes empty, and any other must begin with the common indentation and
that be the white space behind which the code is placed.
-/

namespace ServerPages

namespace Layout

variable {line : Text} {n : Node} {l : Layout}

/-! ### What a directive adds to a module -/

/-- Whether a line of a directive's code becomes empty. -/
def isEmptied (n : Node) (line : Text) : Bool :=
  match n.kind with
  | .block => Text.isAllBlank line
  | _ => line.all Text.isIndent

/-- The column of the module at which the code of a directive is placed. -/
def codeColumn (l : Layout) (n : Node) : Nat :=
  match n.kind with
  | .block => bodyIndent + l.blockColumn n
  | _ => 0

/-- A line of a directive's code as it is placed. -/
def movedLine (l : Layout) (n : Node) : Text → Text :=
  moveLine (isEmptied n) (List.replicate (l.codeColumn n) ' ') (codeMargin n)

/-- The code that a directive adds to a module, but for the statement that does nothing. -/
def emitted (l : Layout) (n : Node) : Text :=
  match n.kind with
  | .block => ((blockLines n).map (lineAt (l.blockColumn n))).flatten
  | _ => topCode n

private theorem isAllBlank_of_isEmptied (h : isEmptied n line = true) : Text.isAllBlank line = true := by
  rw [isEmptied] at h
  split at h
  · exact h
  · exact isAllBlank_of_isIndent h

private theorem isMove_movedLine (l : Layout) (n : Node) : Code.IsMove (l.movedLine n) := by
  refine isMove_moveLine ?_ (isIndent_of_mem_codeMargin n) fun line => isAllBlank_of_isEmptied
  intro c hc
  rw [List.eq_of_mem_replicate hc]
  rfl

/-- What is emitted for a block are the lines of its code, moved. -/
theorem emitted_block (hkind : n.kind = .block) (l : Layout) : l.emitted n =
    (trim Text.isAllBlank (codeLines n)).flatMap (l.movedLine n · ++ ['\n']) := by
  have hempty : isEmptied n = Text.isAllBlank := by
    funext line
    rw [isEmptied, hkind]
  rw [emitted, hkind]
  dsimp only
  rw [blockLines_eq, List.map_map, List.flatMap_def, movedLine, codeColumn, hkind, hempty]
  congr 1
  refine List.map_congr_left fun line _ => ?_
  exact lineAt_dedentLine (isIndent_of_mem_codeMargin n) (l.blockColumn n) line

/-- What is emitted for top-level code that shows something are its lines, dedented. -/
theorem topCode_eq_flatMap (hblank : ¬ Text.isAllBlank n.text = true) : topCode n =
    (trim (·.all Text.isIndent) (codeLines n)).flatMap
      (Text.dedentLine (codeMargin n) · ++ ['\n']) := by
  have hsame : List.isEmpty ∘ Text.dedentLine (codeMargin n) = (·.all Text.isIndent) :=
    funext (dedentLine_isEmpty (isIndent_of_mem_codeMargin n))
  rw [topCode_eq, if_neg hblank, dedented_eq, trimNewlines_joinWith fun _ => not_mem_dedentLine,
    trim_map, hsame]
  cases hkept : trim (·.all Text.isIndent) (codeLines n) with
  | nil =>
    -- then all lines are of white space, which they are not
    obtain ⟨front, back, hlines, hfront, hback⟩ := exists_trim (·.all Text.isIndent) (codeLines n)
    rw [hkept, List.append_nil] at hlines
    have hcode : Text.isAllBlank (Text.joinWith ['\n'] (codeLines n)) = true := by
      refine Code.isAllBlank_joinWith fun line hline => isAllBlank_of_isIndent ?_
      obtain hline | hline := List.mem_append.mp (hlines ▸ hline)
      · exact hfront line hline
      · exact hback line hline
    rw [codeLines, Text.joinWith_splitOn] at hcode
    refine absurd (List.all_eq_true.mpr fun c hc => ?_) hblank
    exact List.all_eq_true.mp hcode c (List.mem_append_right _ hc)
  | cons line kept =>
    have hflat := Code.flatMap_newline_cons (Text.dedentLine (codeMargin n) line)
      (kept.map (Text.dedentLine (codeMargin n)))
    rw [← List.map_cons, List.flatMap_map] at hflat
    rw [hflat, List.map_cons, Code.joinWith_cons, Code.behind_append, List.append_assoc]
    rfl

/-- What is emitted are the lines of the code, moved, without the lines of white space at both
ends. -/
theorem exists_emitted_eq (hkind : n.kind = .block ∨ n.kind = .top)
    (hindent : Text.isAllBlank n.indent = true) (l : Layout) :
    ∃ front kept back, codeLines n = front ++ kept ++ back ∧
      (∀ l ∈ front, Text.isAllBlank l = true) ∧ (∀ l ∈ back, Text.isAllBlank l = true) ∧
      l.emitted n = kept.flatMap (l.movedLine n · ++ ['\n']) := by
  obtain hkind | hkind := hkind
  · obtain ⟨front, back, hlines, hfront, hback⟩ := exists_trim Text.isAllBlank (codeLines n)
    exact ⟨front, _, back, hlines, hfront, hback, emitted_block hkind l⟩
  · have hemitted : l.emitted n = topCode n := by rw [emitted, hkind]
    have hmoved : l.movedLine n = Text.dedentLine (codeMargin n) := by
      have hempty : isEmptied n = (·.all Text.isIndent) := by
        funext line
        rw [isEmptied, hkind]
      rw [movedLine, codeColumn, hkind, hempty]
      rfl
    rw [hemitted, hmoved]
    by_cases hblank : Text.isAllBlank n.text = true
    · refine ⟨codeLines n, [], [], by simp, fun line hline => ?_, by simp, ?_⟩
      · refine List.all_eq_true.mpr fun c hc => ?_
        obtain hc | hc := List.mem_append.mp (Text.mem_of_mem_splitOn hline hc)
        · exact List.all_eq_true.mp hindent c hc
        · exact List.all_eq_true.mp hblank c hc
      · rw [topCode_eq, if_pos hblank]
        rfl
    · obtain ⟨front, back, hlines, hfront, hback⟩ := exists_trim (·.all Text.isIndent) (codeLines n)
      exact ⟨front, _, back, hlines, fun l hl => isAllBlank_of_isIndent (hfront l hl),
        fun l hl => isAllBlank_of_isIndent (hback l hl), topCode_eq_flatMap hblank⟩

/-! ### Code indented with spaces -/

/-- Whether the white space that begins the lines of a directive's code is of spaces. -/
def IsSpaced (n : Node) : Prop :=
  ∀ line ∈ codeLines n, ∀ c ∈ line.takeWhile Code.isPad, c = ' '

instance (n : Node) : Decidable (IsSpaced n) :=
  decidable_of_iff (((codeLines n).all fun line => (line.takeWhile Code.isPad).all (· == ' ')) = true)
    (by simp only [IsSpaced, List.all_eq_true, beq_iff_eq])

private theorem width_of_spaces (h : ∀ c ∈ line.takeWhile Code.isPad, c = ' ') :
    (Code.margin line).width = (line.takeWhile Code.isPad).length := by
  have hlead : line.takeWhile Code.isPad = List.replicate (line.takeWhile Code.isPad).length ' ' :=
    List.eq_replicate_iff.mpr ⟨rfl, h⟩
  rw [← Code.margin_takeWhile, hlead, Code.margin_width_spaces, List.length_replicate]

/-- Code that is indented with spaces is moved in order, from its common indentation on. -/
def spacesAlignment (base : List Nat) (n : Node) : Code.Alignment where
  width w := base.headD 0 + w - (codeMargin n).length
  cut := (codeMargin n).length
  base := base
  width_lt v w _ _ := by omega
  head_base := (Nat.add_sub_cancel ..).symm

private theorem places_movedLine {base : List Nat} (hspaced : IsSpaced n)
    (hcolumn : base.headD 0 = l.codeColumn n) (hline : line ∈ codeLines n) :
    (spacesAlignment base n).Places (l.movedLine n) line := by
  intro hcode
  have hall : line.all Text.isIndent = false :=
    isEmpty_eq_false (fun _ => isAllBlank_of_isIndent) hcode
  obtain ⟨margin, hmargin, rest, rfl⟩ := Text.exists_margin?_of_mem hline hall
  have hcodeMargin : codeMargin n = margin := by rw [codeMargin, hmargin]; rfl
  have hpads : ∀ c ∈ margin, Code.isPad c = true := fun c hc =>
    isPad_of_isIndent (isIndent_of_mem_codeMargin n c (hcodeMargin ▸ hc))
  have hlead : ∀ c ∈ List.replicate (l.codeColumn n) ' ', Code.isPad c = true := by
    intro c hc
    rw [List.eq_of_mem_replicate hc]
    rfl
  have hkept : isEmptied n (margin ++ rest) = false :=
    isEmpty_eq_false (fun _ => isAllBlank_of_isEmptied) hcode
  have hmoved : l.movedLine n (margin ++ rest) = List.replicate (l.codeColumn n) ' ' ++ rest := by
    rw [movedLine, moveLine, hkept, hcodeMargin, Text.after?_eq_some_iff.mpr rfl]
    rfl
  have hspaces := hspaced _ hline
  rw [List.takeWhile_append_of_pos hpads] at hspaces
  have hspaces' : ∀ c ∈ (List.replicate (l.codeColumn n) ' ' ++ rest).takeWhile Code.isPad,
      c = ' ' := by
    rw [List.takeWhile_append_of_pos hlead, List.forall_mem_append]
    exact ⟨fun c hc => List.eq_of_mem_replicate hc,
      fun c hc => hspaces c (List.mem_append_right _ hc)⟩
  rw [width_of_spaces (hspaced _ hline), hmoved, width_of_spaces hspaces',
    List.takeWhile_append_of_pos hpads, List.takeWhile_append_of_pos hlead]
  simp only [spacesAlignment, hcodeMargin, hcolumn, List.length_append, List.length_replicate]
  omega

/-! ### Pages -/

theorem isAllBlank_indentOf (head : Text) {spacing : Text}
    (h : ∀ c ∈ spacing, Text.isBlank c = true) :
    Text.isAllBlank (Node.indentOf head spacing) = true := by
  refine List.all_eq_true.mpr fun c hc => ?_
  rw [Node.indentOf] at hc
  split at hc
  · rw [Text.lastPiece, List.getLastD_eq_getLast?] at hc
    cases hlast : (Text.splitOn '\n' spacing).getLast? with
    | none => rw [hlast] at hc; cases hc
    | some piece =>
      rw [hlast] at hc
      exact h c (Text.mem_of_mem_splitOn (List.mem_of_getLast? hlast) hc)
  · obtain ⟨d, -, rfl⟩ := List.mem_map.mp hc
    split
    · next hd => exact hd
    · rfl

/-- The indentation of a directive's code is white space. -/
theorem isAllBlank_indent {rs : List Region} {s : Text} (h : Region.Tiles rs s) (line : Nat)
    (head : Text) : ∀ n ∈ Node.ofRegions line head rs, Text.isAllBlank n.indent = true := by
  induction h generalizing line head with
  | nil => exact List.forall_mem_nil _
  | literal _ _ _ _ ih => exact List.forall_mem_cons.mpr ⟨rfl, ih _ _⟩
  | directive proper _ _ ih =>
    exact List.forall_mem_cons.mpr ⟨isAllBlank_indentOf head proper.spacing_blank, ih _ _⟩

theorem placeBlock_top (l : Layout) (n : Node) : (l.placeBlock n).top = l.top := by
  have h := placeBlock_withTop l l.top n
  rw [show l.withTop l.top = l from rfl] at h
  rw [h]
  rfl

/-- **What the code of a directive says where it is placed.** A block's lines are added to the body,
where at most the statement that does nothing follows them, and top-level code to the top. If the
code is read without faults and stray characters, what is added says the same as the code, names,
numbers, strings and operators in their order, if and only if each line on which a string goes on
stays as it is and no statement gets out of line. With an indentation of spaces, and a suite open at
the column where the code is placed, none does. -/
theorem emitted_says_iff {text : Text} (hn : n ∈ Node.ofText text)
    (hkind : n.kind = .block ∨ n.kind = .top) (hnone : (Code.tokens (code n)).2 = none)
    (hstray : ∀ t ∈ (Code.tokens (code n)).1, t.kind ≠ .stray) (l : Layout) :
    (n.kind = .block → ∃ l' pass, place l n = .ok l' ∧ l'.top = l.top ∧
      (pass = [] ∨ pass = lineAt l'.column "pass".toList) ∧
      l'.body.flatten = l.body.flatten ++ l.emitted n ++ pass) ∧
    (n.kind = .top → place l n = .ok { l with top := l.top ++ [l.emitted n] }) ∧
    ∀ st : Code.LexState, st.depth = 0 →
      let source := (Code.tokens (code n)).1
      let read := Code.scan .lenient st true (l.emitted n)
      let stays := Code.StringsStay (l.movedLine n) source
      (Code.SaysSame source read ↔ stays ∧ read.2 ≠ some .badDedent) ∧
        (IsSpaced n → st.width.1 = l.codeColumn n → (Code.SaysSame source read ↔ stays)) := by
  refine ⟨fun hblock => ?_, fun htop => ?_, fun st hdepth => ?_⟩
  · obtain ⟨pass, hpass, hbody⟩ := placeBlock_body l n
    have hplace : place l n = .ok (l.placeBlock n) := by rw [place, hblock]
    have hemitted : l.emitted n = ((blockLines n).map (lineAt (l.blockColumn n))).flatten := by
      rw [emitted, hblock]
    refine ⟨_, pass.flatten, hplace, placeBlock_top l n, ?_, by simp [hbody, hemitted]⟩
    obtain rfl | rfl := hpass
    · exact .inl rfl
    · exact .inr (List.flatten_singleton ..)
  · rw [place, emitted, htop]
  · have hindent := isAllBlank_indent (Region.tiles_scan text) 1 [] n hn
    obtain ⟨front, kept, back, hlines, hfront, hback, hemitted⟩ := exists_emitted_eq hkind hindent l
    have hkept : (IsSpaced n ∧ st.width.1 = l.codeColumn n) →
        ∀ line ∈ kept, (spacesAlignment st.widths n).Places (l.movedLine n) line := by
      rintro ⟨hspaced, hwidth⟩ line hline
      refine places_movedLine hspaced ((st.headD_widths).trans hwidth) ?_
      rw [hlines]
      exact List.mem_append_left back (List.mem_append_right front hline)
    have h := Code.kept_tokens (isMove_movedLine l n) hlines hfront hback hkept (fun _ => rfl) hnone
      hstray hdepth
    rw [← hemitted] at h
    refine ⟨h.saysSame_iff, fun hspaced hwidth => h.saysSame_iff.trans ?_⟩
    exact and_iff_left_of_imp (h.ne_badDedent ⟨hspaced, hwidth⟩)

/-- A string with a line of its own that stands where the block is placed. -/
theorem emitted_says_iff_indented :
    let n : Node := ⟨.block, "if x:\n            s = '''a\n\n        b'''\n".toList, [],
      List.replicate 8 ' ', 1⟩
    let text := "<?go:block\n        ".toList ++ n.text ++ "?>".toList
    let l : Layout := {}
    let st : Code.LexState := { indents := [(8, 8)] }
    let source := (Code.tokens (code n)).1
    n ∈ Node.ofText text ∧ n.kind = .block ∧ (Code.tokens (code n)).2 = none ∧
      (∀ t ∈ source, t.kind ≠ .stray) ∧ st.depth = 0 ∧ IsSpaced n ∧ st.width.1 = l.codeColumn n ∧
      Code.StringsStay (l.movedLine n) source ∧
      Code.SaysSame source (Code.scan .lenient st true (l.emitted n)) := by
  intro n text l st source
  have hn : n ∈ Node.ofText text := by decide +kernel
  have hnone : (Code.tokens (code n)).2 = none := by decide +kernel
  have hstray : ∀ t ∈ source, t.kind ≠ .stray := by decide +kernel
  have hspaced : IsSpaced n := by decide +kernel
  have hwidth : st.width.1 = l.codeColumn n := by decide +kernel
  have hstays : Code.StringsStay (l.movedLine n) source := by decide +kernel
  obtain ⟨-, -, hread⟩ := emitted_says_iff hn (.inl rfl) hnone hstray l
  exact ⟨hn, rfl, hnone, hstray, rfl, hspaced, hwidth, hstays,
    ((hread st rfl).2 hspaced hwidth).mpr hstays⟩

/-- A string that goes on over lines gets the white space behind which its block is placed, and
another text. -/
theorem emitted_says_other :
    let n : Node := ⟨.block, "s = '''a\nb''' ".toList, [], [], 1⟩
    let text := "<?go:block ".toList ++ n.text ++ "?>".toList
    let l : Layout := {}
    let source := (Code.tokens (code n)).1
    let read := Code.tokens (l.emitted n)
    n ∈ Node.ofText text ∧ n.kind = .block ∧ (Code.tokens (code n)).2 = none ∧
      (∀ t ∈ source, t.kind ≠ .stray) ∧ read.2 = none ∧
      Code.said source = [(.name, ['s']), (.operator, ['=']), (.string, "'''a\nb'''".toList)] ∧
      Code.said read.1 =
        [(.name, ['s']), (.operator, ['=']), (.string, "'''a\n        b'''".toList)] := by
  decide +kernel

end Layout

end ServerPages
