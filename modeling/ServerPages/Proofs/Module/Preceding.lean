import ServerPages.Proofs.Module.Verbatim

/-!
# What stands before a directive

The code of a directive is indented by what stands before the directive on its line, with a blank in
the place of all that shows something, and dedenting takes the indentation away again. The two have
different notions of white space: what is kept as it is before a directive is any white space, and
what is taken away again are spaces and tabs. So any other white space is left before the code, with
all that stands behind it (`Node.leftover`, `Node.Stands.dedented`).

The main statement says exactly when code of one line is placed as if nothing stood before it
(`Layout.added_eq_iff`).
-/

namespace ServerPages

theorem Region.Tiles.isProper {rs : List Region} {s : Text} {d : Directive} (h : Tiles rs s)
    (hd : .directive d ∈ rs) : d.IsProper := by
  induction h with
  | nil => cases hd
  | literal _ _ _ _ ih => exact ih ((List.mem_cons.mp hd).resolve_left nofun)
  | directive proper _ _ ih =>
    obtain heq | hd := List.mem_cons.mp hd
    · cases heq
      exact proper
    · exact ih hd

namespace Node

variable {page head : Text} {d : Directive} {n : Node}

/-! ### Where a directive stands -/

/-- A directive stands in a page behind `head` on its line, and a node shows it. -/
def Stands (page head : Text) (d : Directive) (n : Node) : Prop :=
  ∃ before behind, Region.scan page = before ++ .directive d :: behind ∧
    head = Text.lastPiece '\n' (before.flatMap Region.source) ∧
    (ofText page)[before.length]? = some n

/-- What dedenting code of one line leaves of its indentation. -/
def leftover (n : Node) : Text := n.indent.dropWhile Text.isIndent

private theorem lineHead_eq (hhead : '\n' ∉ head) (s : Text) :
    lineHead head s = Text.lastPiece '\n' (head ++ s) := by
  rw [lineHead]
  split
  · next h =>
    obtain hs | ⟨r, u, rfl, hu⟩ := Text.not_mem_or_eq_append_cons '\n' s
    · exact absurd h hs
    · rw [Text.lastPiece_append_cons_right, ← List.append_assoc, Text.lastPiece_append_cons_right]
  · next h =>
    rw [Text.lastPiece_of_not_mem (by simp [hhead, h])]

/-- The nodes of regions behind others: what stands before them on their line is the last piece of
the others. -/
theorem ofRegions_append (line : Nat) (hhead : '\n' ∉ head) (rs more : List Region) :
    ofRegions line head (rs ++ more) = ofRegions line head rs ++
      ofRegions (line + (rs.flatMap Region.source).count '\n')
        (Text.lastPiece '\n' (head ++ rs.flatMap Region.source)) more := by
  induction rs generalizing line head with
  | nil => simp [ofRegions, Text.lastPiece_of_not_mem hhead]
  | cons r rs ih =>
    have hline : '\n' ∉ lineHead head r.source :=
      lineHead_eq hhead _ ▸ Text.not_mem_lastPiece '\n' _
    have hrest := ih (line + r.source.count '\n') hline
    rw [lineHead_eq hhead, Text.lastPiece_lastPiece_append, Nat.add_assoc, ← List.count_append,
      List.append_assoc, ← List.flatMap_cons, ← lineHead_eq hhead] at hrest
    exact congrArg (_ :: ·) hrest

private theorem length_ofRegions (line : Nat) (head : Text) (rs : List Region) :
    (ofRegions line head rs).length = rs.length :=
  (shows_ofRegions rs line head).length_eq

/-- A node shows its directive, whose code is indented by what stands before it. -/
theorem Stands.exists_eq (h : Stands page head d n) :
    ∃ line, n = ⟨d.kind, d.code, d.trailing, indentOf head d.spacing, line⟩ := by
  obtain ⟨before, behind, hscan, rfl, hn⟩ := h
  rw [ofText, hscan, ofRegions_append 1 List.not_mem_nil, List.getElem?_append_right
    (length_ofRegions ..).le, length_ofRegions, Nat.sub_self, List.nil_append] at hn
  exact ⟨_, (Option.some.inj hn).symm⟩

theorem Stands.eq (h : Stands page head d n) :
    n.kind = d.kind ∧ n.text = d.code ∧ n.indent = indentOf head d.spacing := by
  obtain ⟨line, rfl⟩ := h.exists_eq
  exact ⟨rfl, rfl, rfl⟩

theorem Stands.trailing_eq (h : Stands page head d n) : n.trailing = d.trailing := by
  obtain ⟨line, rfl⟩ := h.exists_eq
  rfl

theorem Stands.newline_not_mem (h : Stands page head d n) : '\n' ∉ head := by
  obtain ⟨before, behind, -, rfl, -⟩ := h
  exact Text.not_mem_lastPiece '\n' _

theorem Stands.isProper (h : Stands page head d n) : d.IsProper := by
  obtain ⟨before, behind, hscan, -, -⟩ := h
  refine (Region.tiles_scan page).isProper ?_
  rw [hscan]
  exact List.mem_append_right before List.mem_cons_self

/-! ### What is left before the code -/

private theorem Stands.newline_not_mem_indent (h : Stands page head d n) : '\n' ∉ n.indent := by
  rw [h.eq.2.2, indentOf]
  split
  · exact Text.not_mem_lastPiece '\n' _
  · intro hmem
    obtain ⟨c, hc, heq⟩ := List.mem_map.mp hmem
    split at heq
    · exact h.newline_not_mem (heq ▸ hc)
    · cases heq

theorem Stands.newline_not_mem_leftover (h : Stands page head d n) : '\n' ∉ n.leftover :=
  fun hmem => h.newline_not_mem_indent ((List.dropWhile_suffix _).mem hmem)

private theorem Stands.isAllBlank_leftover (h : Stands page head d n) :
    Text.isAllBlank n.leftover = true := by
  have hblank := Layout.isAllBlank_indentOf head h.isProper.spacing_blank
  rw [← h.eq.2.2] at hblank
  exact List.all_eq_true.mpr fun c hc =>
    List.all_eq_true.mp hblank c ((List.dropWhile_suffix _).mem hc)

/-- Before code that stands right behind its keyword nothing is left if and only if all white space
before the directive is of spaces and tabs. -/
theorem Stands.leftover_eq_nil_iff (h : Stands page head d n) (hspacing : '\n' ∉ d.spacing) :
    n.leftover = [] ↔ ∀ c ∈ head, Text.isBlank c = true → c = ' ' ∨ c = '\t' := by
  rw [leftover, h.eq.2.2, indentOf, if_neg hspacing, List.dropWhile_eq_nil_iff,
    List.forall_mem_map]
  refine forall₂_congr fun c _ => ?_
  cases hc : Text.isBlank c with
  | true => simp [Text.isIndent]
  | false => simp [Text.isIndent]

/-- Code of one line, dedented. -/
theorem Stands.dedented (h : Stands page head d n) (hline : '\n' ∉ d.code) :
    Layout.dedented n = n.leftover ++ d.code := by
  obtain ⟨-, htext, -⟩ := h.eq
  have hdrop : d.code.dropWhile Text.isIndent = d.code := by
    cases hcode : d.code with
    | nil => rfl
    | cons c code =>
      refine List.dropWhile_cons_of_neg fun hc => ?_
      have hblank := h.isProper.code_head c (by rw [hcode]; rfl)
      rw [Text.isBlank_of_isIndent hc] at hblank
      cases hblank
  have hlines : '\n' ∉ n.indent ++ d.code := by
    rw [List.mem_append, not_or]
    exact ⟨h.newline_not_mem_indent, hline⟩
  rw [Layout.dedented, htext, Text.dedent_of_not_mem hlines, List.dropWhile_append, hdrop,
    ← leftover]
  split
  · next hnil => rw [List.isEmpty_iff.mp hnil, List.nil_append]
  · rfl

end Node

namespace Layout

variable {page other head white code line line₀ : Text} {c : Char} {d : Directive} {n n₀ : Node}
  {l l₀ : Layout}

/-! ### What a directive adds -/

/-- What a node adds to a module: to its top level and to its body. -/
def added (l : Layout) (n : Node) : Except Misplaced (List Text × List Text) :=
  (l.place n).map fun l' => (l'.top.drop l.top.length, l'.body.drop l.body.length)

private theorem added_block (hkind : n.kind = .block) (l : Layout) :
    l.added n = .ok ([], blockEntries (l.blockColumn n) n) := by
  rw [added, place, hkind]
  simp [Except.map, placeBlock_top, placeBlock_body_eq]

private theorem added_top (hkind : n.kind = .top) (l : Layout) : l.added n = .ok ([topCode n], []) := by
  rw [added, place, hkind]
  simp [Except.map]

private theorem blockColumn_congr (hcolumn : l.column = l₀.column) (hsuites : l.suites = l₀.suites)
    (hcloses : closesSuite n = closesSuite n₀) : l.blockColumn n = l₀.blockColumn n₀ := by
  simp only [blockColumn, before, hcloses, closeSuite, hsuites]
  split
  · split <;> simp [hcolumn]
  · exact hcolumn

/-- What is added depends on the code, dedented, and on where the layout stands. -/
theorem added_congr (hkind : n.kind = n₀.kind) (hcode : n.kind = .block ∨ n.kind = .top)
    (htext : n.text = n₀.text) (hdedented : dedented n = dedented n₀)
    (hcolumn : l.column = l₀.column) (hsuites : l.suites = l₀.suites) :
    l.added n = l₀.added n₀ := by
  obtain hblock | htop := hcode
  · have hlines : blockLines n = blockLines n₀ := by rw [blockLines, hdedented, blockLines]
    have hcloses : closesSuite n = closesSuite n₀ := by rw [closesSuite, hlines, closesSuite]
    have hcomment : isComment n = isComment n₀ := by rw [isComment, hlines, isComment]
    have hblockCode : blockCode n = blockCode n₀ := by rw [blockCode, hlines, blockCode]
    have hwidth : width n = width n₀ := by rw [width, hcomment, hblockCode, width]
    rw [added_block hblock, added_block (hkind ▸ hblock),
      blockColumn_congr hcolumn hsuites hcloses, blockEntries, hlines, hcomment, hblockCode, hwidth,
      blockEntries]
  · rw [added_top htop, added_top (hkind ▸ htop), topCode, topCode, htext, hdedented]

/-! ### Code of one line -/

/-- White space before a line does not change whether it closes a suite. -/
theorem closesSuite_congr (hlines : blockLines n = [line]) (hlines₀ : blockLines n₀ = [line₀])
    (hblank : Text.isAllBlank line = Text.isAllBlank line₀)
    (htrim : Text.trimLeft line = Text.trimLeft line₀) : closesSuite n = closesSuite n₀ := by
  have hinsignificant : isInsignificant line = isInsignificant line₀ := by
    rw [isInsignificant, hblank, htrim, isInsignificant]
  have hcontinues : continues line = continues line₀ := by rw [continues, htrim, continues]
  simp only [closesSuite, hlines, hlines₀, List.find?_singleton, hinsignificant]
  cases isInsignificant line₀ with
  | true => rfl
  | false => exact hcontinues

/-- Where no code stands, nothing is added to the body and an empty piece to the top level. -/
theorem added_of_nil (htext : n.text = []) (hblank : Text.isAllBlank (dedented n) = true)
    (hline : '\n' ∉ dedented n) (l : Layout) :
    (n.kind = .block → l.added n = .ok ([], [])) ∧
      (n.kind = .top → l.added n = .ok ([[]], [])) := by
  constructor
  · intro hkind
    have hlines : blockLines n = [] := by
      rw [blockLines, Text.splitOn_of_not_mem hline]
      simp [hblank]
    simp [added_block hkind, blockEntries, hlines, opens_of_nil hlines]
  · intro hkind
    rw [added_top hkind, topCode, htext]
    rfl

/-- Code that shows something, with white space left before it. -/
theorem blockLines_of_dedented (white : Text) (hdedented : dedented n = white ++ c :: code)
    (hc : Text.isBlank c = false) (hline : '\n' ∉ white ++ c :: code) :
    blockLines n = [white ++ c :: code] := by
  have hshows : Text.isAllBlank (white ++ c :: code) = false :=
    List.all_eq_false.mpr ⟨c, by simp, by simp [hc]⟩
  simp [blockLines, hdedented, Text.splitOn_of_not_mem hline, hshows]

private theorem topCode_of_dedented (white : Text) (htext : n.text = c :: code)
    (hdedented : dedented n = white ++ c :: code) (hc : Text.isBlank c = false)
    (hline : '\n' ∉ white ++ c :: code) : topCode n = white ++ c :: code ++ ['\n'] := by
  have hshows : Text.isAllBlank n.text = false :=
    List.all_eq_false.mpr ⟨c, by simp [htext], by simp [hc]⟩
  rw [topCode, hshows, if_neg Bool.false_ne_true, hdedented, trimNewlines_of_not_mem hline]
  simp

/-- White space that is left before a line of code shows in what is added. -/
theorem added_ne (hkind : n.kind = n₀.kind) (hcode : n.kind = .block ∨ n.kind = .top)
    (htext : n.text = c :: code) (htext₀ : n₀.text = c :: code)
    (hdedented : dedented n = white ++ c :: code) (hdedented₀ : dedented n₀ = c :: code)
    (hc : Text.isBlank c = false) (hwhite : Text.isAllBlank white = true) (hne : white ≠ [])
    (hline : '\n' ∉ white ++ c :: code) (hcolumn : l.column = l₀.column)
    (hsuites : l.suites = l₀.suites) : l.added n ≠ l₀.added n₀ := by
  have hline₀ : '\n' ∉ [] ++ c :: code := fun hmem => hline (List.mem_append_right white hmem)
  have hlonger : ∀ s t : Text, s ++ (white ++ c :: code) ++ t ≠ s ++ (c :: code) ++ t := by
    intro s t heq
    rw [List.append_cancel_right_eq, List.append_cancel_left_eq, List.append_left_eq_self] at heq
    exact hne heq
  obtain hblock | htop := hcode
  · have hlines := blockLines_of_dedented white hdedented hc hline
    have hlines₀ := blockLines_of_dedented [] hdedented₀ hc hline₀
    have hshows : ∀ s : Text, Text.isAllBlank (s ++ c :: code) = false := fun s =>
      List.all_eq_false.mpr ⟨c, by simp, by simp [hc]⟩
    have hcloses : closesSuite n = closesSuite n₀ := by
      refine closesSuite_congr hlines hlines₀ ((hshows _).trans (hshows []).symm) ?_
      rw [Directive.trimLeft_append (List.all_eq_true.mp hwhite) (by simp [hc]), List.nil_append,
        Text.trimLeft, List.dropWhile_cons_of_neg (by simp [hc])]
    rw [added_block hblock, added_block (hkind ▸ hblock), blockColumn_congr hcolumn hsuites hcloses]
    intro heq
    have hfirst := congrArg List.head? (congrArg Prod.snd (Except.ok.inj heq))
    simp only [blockEntries, hlines, hlines₀, List.map_cons, List.map_nil, List.cons_append,
      List.head?_cons, Option.some.injEq, lineAt, hshows] at hfirst
    exact hlonger _ _ hfirst
  · rw [added_top htop, added_top (hkind ▸ htop),
      topCode_of_dedented white htext hdedented hc hline,
      topCode_of_dedented [] htext₀ hdedented₀ hc hline₀]
    intro heq
    exact hlonger [] _ (List.head_eq_of_cons_eq (congrArg Prod.fst (Except.ok.inj heq)))

/-! ### Pages -/

/-- **What stands before a directive of one line shows in its code** only with its white space.
Wherever a directive stands, what it adds to a module is what it adds where nothing stands before it
on its line if and only if its code begins on a line of its own, or there is none, or all white
space before it on its line is of spaces and tabs. -/
theorem added_eq_iff (hn : Node.Stands page head d n) (hn₀ : Node.Stands other [] d n₀)
    (hkind : d.kind = .block ∨ d.kind = .top) (hline : '\n' ∉ d.code)
    (hcolumn : l.column = l₀.column) (hsuites : l.suites = l₀.suites) :
    (∃ entries, l₀.added n₀ = .ok entries) ∧
      (l.added n = l₀.added n₀ ↔ '\n' ∈ d.spacing ∨ d.code = [] ∨
        ∀ c ∈ head, Text.isBlank c = true → c = ' ' ∨ c = '\t') := by
  obtain ⟨hnKind, hnText, hnIndent⟩ := hn.eq
  obtain ⟨hnKind₀, hnText₀, hnIndent₀⟩ := hn₀.eq
  have hkinds : n.kind = n₀.kind := hnKind.trans hnKind₀.symm
  have hcode : n.kind = .block ∨ n.kind = .top := hnKind ▸ hkind
  have htexts : n.text = n₀.text := hnText.trans hnText₀.symm
  have hdedented := hn.dedented hline
  have hdedented₀ := hn₀.dedented hline
  constructor
  · obtain hblock | htop := hcode
    · exact ⟨_, added_block (hkinds ▸ hblock) l₀⟩
    · exact ⟨_, added_top (hkinds ▸ htop) l₀⟩
  by_cases hspacing : '\n' ∈ d.spacing
  · -- the code is indented by its own line, whatever stands before the directive
    have hleftovers : n.leftover = n₀.leftover := by
      rw [Node.leftover, Node.leftover, hnIndent, hnIndent₀, Node.indentOf, if_pos hspacing,
        Node.indentOf, if_pos hspacing]
    refine iff_of_true (added_congr hkinds hcode htexts ?_ hcolumn hsuites) (.inl hspacing)
    rw [hdedented, hleftovers, hdedented₀]
  rw [or_iff_right hspacing, ← hn.leftover_eq_nil_iff hspacing]
  cases hcodeText : d.code with
  | nil =>
    -- there is nothing but white space in both places
    rw [hcodeText, List.append_nil] at hdedented hdedented₀
    refine iff_of_true ?_ (.inl rfl)
    obtain ⟨hblock, htop⟩ := added_of_nil (hnText.trans hcodeText)
      (hdedented ▸ hn.isAllBlank_leftover) (hdedented ▸ hn.newline_not_mem_leftover) l
    obtain ⟨hblock₀, htop₀⟩ := added_of_nil (hnText₀.trans hcodeText)
      (hdedented₀ ▸ hn₀.isAllBlank_leftover) (hdedented₀ ▸ hn₀.newline_not_mem_leftover) l₀
    obtain hkind | hkind := hcode
    · rw [hblock hkind, hblock₀ (hkinds ▸ hkind)]
    · rw [htop hkind, htop₀ (hkinds ▸ hkind)]
  | cons c code =>
    have hempty : n₀.leftover = [] :=
      (hn₀.leftover_eq_nil_iff hspacing).mpr (List.forall_mem_nil _)
    rw [hempty, List.nil_append] at hdedented₀
    rw [or_iff_right (List.cons_ne_nil c code)]
    constructor
    · intro hsame
      by_contra hne
      refine added_ne hkinds hcode (hnText.trans hcodeText) (hnText₀.trans hcodeText)
        (hcodeText ▸ hdedented) (hcodeText ▸ hdedented₀)
        (hn.isProper.code_head c (by rw [hcodeText]; rfl)) hn.isAllBlank_leftover hne ?_ hcolumn
        hsuites hsame
      rw [List.mem_append, not_or]
      exact ⟨hn.newline_not_mem_leftover, hcodeText ▸ hline⟩
    · intro hnil
      refine added_congr hkinds hcode htexts ?_ hcolumn hsuites
      rw [hdedented, hnil, hdedented₀, List.nil_append]

/-- A tab and a letter before a block show in nothing that it adds. -/
theorem added_eq_iff_tab :
    let d : Directive := ⟨.block, [' '], "for x in y: ".toList, []⟩
    let n : Node := ⟨.block, d.code, [], "\t  ".toList, 1⟩
    let n₀ : Node := ⟨.block, d.code, [], [], 1⟩
    let l : Layout := placeText {} "\ta ".toList
    let l₀ : Layout := {}
    Node.Stands "\ta <?go:block for x in y: ?>".toList "\ta ".toList d n ∧
      Node.Stands "<?go:block for x in y: ?>".toList [] d n₀ ∧
      (d.kind = .block ∨ d.kind = .top) ∧ '\n' ∉ d.code ∧ l.column = l₀.column ∧
      l.suites = l₀.suites ∧ l.added n = l₀.added n₀ := by
  intro d n n₀ l l₀
  have hn : Node.Stands "\ta <?go:block for x in y: ?>".toList "\ta ".toList d n :=
    ⟨[.literal "\ta ".toList], [], by decide +kernel, by decide +kernel, by decide +kernel⟩
  have hn₀ : Node.Stands "<?go:block for x in y: ?>".toList [] d n₀ :=
    ⟨[], [], by decide +kernel, by decide +kernel, by decide +kernel⟩
  have hline : '\n' ∉ d.code := by decide +kernel
  have hhead : ∀ c ∈ ['\t', 'a', ' '], Text.isBlank c = true → c = ' ' ∨ c = '\t' := by
    intro c hc hblank
    obtain rfl | rfl | rfl : c = '\t' ∨ c = 'a' ∨ c = ' ' := by simpa using hc
    · exact .inr rfl
    · cases hblank
    · exact .inl rfl
  have hcolumn : l.column = l₀.column := by decide +kernel
  have hsuites : l.suites = l₀.suites := by decide +kernel
  exact ⟨hn, hn₀, .inl rfl, hline, hcolumn, hsuites,
    (added_eq_iff hn hn₀ (.inl rfl) hline hcolumn hsuites).2.mpr (.inr (.inr hhead))⟩

/-- A no-break space before a block stands before its code too. -/
theorem added_other :
    let d : Directive := ⟨.block, [' '], "x = 1 ".toList, []⟩
    let n : Node := ⟨.block, d.code, [], ['\u00a0'], 1⟩
    let n₀ : Node := ⟨.block, d.code, [], [], 1⟩
    Node.Stands "\u00a0<?go:block x = 1 ?>".toList ['\u00a0'] d n ∧
      Node.Stands "<?go:block x = 1 ?>".toList [] d n₀ ∧ '\n' ∉ d.code ∧
      added {} n = .ok ([], ["        \u00a0x = 1 \n".toList]) ∧
      added {} n₀ = .ok ([], ["        x = 1 \n".toList]) := by
  refine ⟨⟨[.literal ['\u00a0']], [], ?_, ?_, ?_⟩, ⟨[], [], ?_, ?_, ?_⟩, ?_, ?_, ?_⟩ <;>
    decide +kernel

end Layout

end ServerPages
