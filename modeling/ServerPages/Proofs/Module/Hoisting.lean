import ServerPages.Module.Assembly
import ServerPages.Proofs.Module.Nesting
import ServerPages.Proofs.Page.Tiling
import ServerPages.Proofs.Text.Pieces

/-!
# Top-level code and the body

The nodes of a page are laid out one after the other, but its `top` directives and its other nodes
never meet: the former only add to the top-level code and the latter do not look at it. So a layout
is the layout of the other nodes, with the code of the `top` directives in their order
(`Layout.exists_foldlM_place_withTop`), and only the number of these can keep a page from becoming
a module (`Page.compile_hoisted`). Whatever code they hold, none is lost and each piece is a line
of its own (`Layout.topCode_eq`).
-/

namespace ServerPages

namespace Text

/-! ### Dedenting loses no code -/

private theorem isIndent_of_mem_commonStart {s t : Text} (h : ∀ c ∈ s, isIndent c = true) :
    ∀ c ∈ commonStart s t, isIndent c = true := by
  obtain ⟨r, hr⟩ := commonStart_append_left s t
  intro c hc
  exact h c (hr ▸ List.mem_append_left r hc)

/-- A margin indents: it begins as the indentation of a line, and less of it is left from line to
line. -/
theorem isIndent_of_mem_margin? {lines : List Text} :
    ∀ margin ∈ margin? lines, ∀ c ∈ margin, isIndent c = true := by
  refine List.foldlRecOn (motive := fun so => ∀ m ∈ so, ∀ c ∈ m, isIndent c = true) lines _ nofun
    fun so hso line _ m hm => ?_
  dsimp only at hm
  split at hm
  · exact hso m hm
  · cases so with
    | none =>
      cases hm
      exact fun c hc => List.mem_takeWhile_imp hc
    | some margin =>
      cases hm
      exact isIndent_of_mem_commonStart (hso margin rfl)

private theorem mem_dedentLine {margin line : Text} {c : Char} (hmargin : ∀ d ∈ margin, isIndent d = true)
    (h : c ∈ line) (hc : isIndent c = false) : c ∈ dedentLine margin line := by
  have hall : line.all isIndent = false := List.all_eq_false.mpr ⟨c, h, by simp [hc]⟩
  rw [dedentLine, hall]
  cases hafter : after? margin line with
  | none => exact h
  | some rest =>
    rw [after?_eq_some_iff.mp hafter, List.mem_append] at h
    exact h.resolve_left fun hin => absurd (hmargin c hin) (by simp [hc])

private theorem mem_joinWith_of_mem {x : Char} {sep piece : Text} {pieces : List Text}
    (h : piece ∈ pieces) (hx : x ∈ piece) : x ∈ joinWith sep pieces := by
  induction pieces with
  | nil => cases h
  | cons p rest ih =>
    cases rest with
    | nil => exact List.mem_singleton.mp h ▸ hx
    | cons q rest =>
      rw [joinWith, List.append_assoc]
      rcases List.mem_cons.mp h with rfl | h
      · exact List.mem_append_left _ hx
      · exact List.mem_append_right _ (List.mem_append_right _ (ih h))

/-- Dedenting takes away nothing but spaces and tabs. -/
theorem mem_dedent {s : Text} {c : Char} (h : c ∈ s) (hc : isIndent c = false) (hn : c ≠ '\n') :
    c ∈ dedent s := by
  rw [← joinWith_splitOn '\n' s] at h
  obtain ⟨line, hline, hmem⟩ := (mem_joinWith h).resolve_left fun hsep =>
    hn (List.mem_singleton.mp hsep)
  refine mem_joinWith_of_mem (List.mem_map_of_mem hline) (mem_dedentLine ?_ hmem hc)
  cases hmargin : margin? (splitOn '\n' s) with
  | none => exact nofun
  | some margin => exact isIndent_of_mem_margin? margin hmargin

end Text

namespace Layout

/-! ### Top-level code -/

theorem mem_dropWhile {p : Char → Bool} {s : Text} {c : Char} (h : c ∈ s) (hc : p c = false) :
    c ∈ s.dropWhile p := by
  rw [← List.takeWhile_append_dropWhile (p := p) (l := s), List.mem_append] at h
  exact h.resolve_left fun hin => absurd (List.mem_takeWhile_imp hin) (by simp [hc])

private theorem mem_trimNewlines {s : Text} {c : Char} (h : c ∈ s) (hc : c ≠ '\n') :
    c ∈ trimNewlines s := by
  have hc : decide (c = '\n') = false := decide_eq_false hc
  exact List.mem_reverse.mpr (mem_dropWhile (List.mem_reverse.mpr (mem_dropWhile h hc)) hc)

/-- Top-level code is a directive's code without the common indentation, its newlines at both ends
made one behind it; nothing comes of white space. -/
theorem topCode_eq (n : Node) : topCode n =
    if Text.isAllBlank n.text then [] else trimNewlines (dedented n) ++ ['\n'] := by
  rw [topCode]
  split
  · rfl
  · next hblank =>
    obtain ⟨c, hc, hword⟩ := List.all_eq_false.mp (Bool.not_eq_true _ ▸ hblank)
    have hne : ∀ d, Text.isBlank d = true → c ≠ d := fun d hd hcd => hword (hcd ▸ hd)
    have hindent : Text.isIndent c = false := by
      simp [Text.isIndent, hne ' ' rfl, hne '\t' rfl]
    have hmem : c ∈ trimNewlines (dedented n) :=
      mem_trimNewlines (Text.mem_dedent (List.mem_append_right _ hc) hindent (hne '\n' rfl))
        (hne '\n' rfl)
    exact if_neg (by simpa using List.ne_nil_of_mem hmem)

/-! ### Two kinds of nodes -/

/-- A layout with other top-level code. -/
def withTop (l : Layout) (top : List Text) : Layout := { l with top }

variable {l l' : Layout} {n : Node}

private theorem emitAll_withTop (l : Layout) (top lines : List Text) :
    (l.withTop top).emitAll lines = (l.emitAll lines).withTop top := by
  induction lines generalizing l with
  | nil => rfl
  | cons line lines ih => exact ih (l.emit line)

private theorem closeSuite_withTop (l : Layout) (top : List Text) :
    (l.withTop top).closeSuite = l.closeSuite.withTop top := by
  cases l with
  | mk _ _ _ suites => cases suites <;> rfl

private theorem follow_withTop (l : Layout) (top : List Text) (tail : Code.Tail) :
    (l.withTop top).follow tail = (l.follow tail).withTop top := by
  unfold follow
  split
  · rfl
  · split <;> rfl

private theorem placeText_withTop (l : Layout) (top : List Text) (s : Text) :
    (l.withTop top).placeText s = (l.placeText s).withTop top := by
  unfold placeText
  split <;> rfl

private theorem placeExpr_withTop (l : Layout) (top : List Text) (n : Node) :
    (l.withTop top).placeExpr n = (l.placeExpr n).withTop top := by
  unfold placeExpr
  dsimp only
  split
  · exact congrArg (emit · _) (emitAll_withTop (l.emit _) top _)
  · rfl

theorem placeBlock_withTop (l : Layout) (top : List Text) (n : Node) :
    (l.withTop top).placeBlock n = (l.placeBlock n).withTop top := by
  unfold placeBlock
  dsimp only
  split
  · rfl
  · split
    · rw [closeSuite_withTop, emitAll_withTop]
    · split
      · rw [closeSuite_withTop, emitAll_withTop, follow_withTop]
      · rw [emitAll_withTop, follow_withTop]

/-- A node that is neither included nor hoisted is placed, and the top-level code does not matter to
it. -/
theorem exists_place_withTop (l : Layout) (hincl : n.kind ≠ .incl) (htop : n.kind ≠ .top) :
    ∃ l' : Layout, ∀ top, place (l.withTop top) n = .ok (l'.withTop top) := by
  unfold place
  cases hkind : n.kind with
  | text => exact ⟨l.placeText n.text, fun top => by rw [← placeText_withTop]⟩
  | block => exact ⟨l.placeBlock n, fun top => by rw [← placeBlock_withTop]⟩
  | expr => exact ⟨l.placeExpr n, fun top => by rw [← placeExpr_withTop]⟩
  | top => exact absurd hkind htop
  | incl => exact absurd hkind hincl

/-- What is hoisted from nodes: for each `top` directive its code without the common indentation,
ended by a newline, and nothing for one of white space. -/
def hoisted (nodes : List Node) : List Text :=
  (nodes.filter (·.kind = .top)).map fun n =>
    if Text.isAllBlank n.text then [] else trimNewlines (dedented n) ++ ['\n']

private theorem place_of_top (h : n.kind = .top) (l : Layout) (top : List Text) :
    place (l.withTop top) n = .ok (l.withTop (top ++ [topCode n])) := by
  rw [place, h]
  rfl

/-- **Nodes are laid out as without those that are hoisted**, and these add their code to the
top-level code. -/
theorem exists_foldlM_place_withTop {nodes : List Node} (h : ∀ n ∈ nodes, n.kind ≠ .incl)
    (l : Layout) :
    ∃ l' : Layout,
      (∀ top, (nodes.filter (·.kind ≠ .top)).foldlM place (l.withTop top) =
        .ok (l'.withTop top)) ∧
      ∀ top, nodes.foldlM place (l.withTop top) = .ok (l'.withTop (top ++ hoisted nodes)) := by
  induction nodes generalizing l with
  | nil =>
    refine ⟨l, fun top => rfl, fun top => ?_⟩
    show Except.ok (l.withTop top) = .ok (l.withTop (top ++ []))
    rw [List.append_nil]
  | cons n nodes ih =>
    rw [List.forall_mem_cons] at h
    by_cases hkind : n.kind = .top
    · obtain ⟨l', hothers, hall⟩ := ih h.2 l
      refine ⟨l', fun top => ?_, fun top => ?_⟩
      · rw [List.filter_cons_of_neg (by simp [hkind])]
        exact hothers top
      · rw [foldlM_place_cons (place_of_top hkind l top), hall, hoisted, hoisted,
          List.filter_cons_of_pos (by simp [hkind]), List.map_cons, List.append_assoc, topCode_eq]
        rfl
    · obtain ⟨l₁, hplace⟩ := exists_place_withTop l h.1 hkind
      obtain ⟨l', hothers, hall⟩ := ih h.2 l₁
      refine ⟨l', fun top => ?_, fun top => ?_⟩
      · rw [List.filter_cons_of_pos (by simp [hkind]), foldlM_place_cons (hplace top)]
        exact hothers top
      · rw [foldlM_place_cons (hplace top), hall, hoisted, hoisted,
          List.filter_cons_of_neg (by simp [hkind])]

end Layout

namespace Region

/-- Whether a region is a `top` directive. -/
def isTop : Region → Bool
  | .literal _ => false
  | .directive d => d.kind = .top

/-- The nodes of regions are literal text and directives with code. -/
theorem Tiles.kind_ne_incl {rs : List Region} {s : Text} (h : Tiles rs s) (line : Nat)
    (head : Text) : ∀ n ∈ Node.ofRegions line head rs, n.kind ≠ .incl := by
  induction h generalizing line head with
  | nil => exact nofun
  | literal _ _ _ _ ih => exact List.forall_mem_cons.mpr ⟨nofun, ih _ _⟩
  | @directive d _ _ proper _ _ ih =>
    refine List.forall_mem_cons.mpr ⟨fun hincl => ?_, ih _ _⟩
    have hkind : d.kind = .incl := hincl
    have hcode : Kind.incl ∈ Directive.codeKinds := hkind ▸ proper.kind_mem
    exact absurd hcode (by decide)

theorem length_filter_ofRegions (rs : List Region) (line : Nat) (head : Text) :
    ((Node.ofRegions line head rs).filter (·.kind = .top)).length = rs.countP isTop := by
  induction rs generalizing line head with
  | nil => rfl
  | cons r rs ih =>
    have hrest := ih (line + r.source.count '\n') (Node.lineHead head r.source)
    cases r with
    | literal s =>
      rw [List.countP_cons_of_neg (by simp [isTop]), ← hrest]
      rfl
    | directive d =>
      by_cases hd : d.kind = .top
      · rw [List.countP_cons_of_pos (by simpa [isTop] using hd), ← hrest, Node.ofRegions,
          List.filter_cons_of_pos (by simpa using hd)]
        rfl
      · rw [List.countP_cons_of_neg (by simpa [isTop] using hd), ← hrest, Node.ofRegions,
          List.filter_cons_of_neg (by simpa using hd)]

end Region

namespace Page

variable {e : Inclusion.Setting} {source text : Text} {st : Inclusion.State}

theorem compile_of_parse {nodes : List Node} {layout : Layout}
    (hparse : (parse e source).1 = .ok nodes) (hnodes : Layout.ofNodes nodes = .ok layout) :
    (compile e source).result = if layout.top.length > e.policy.maxTop then
      .error (.tooManyTop layout.top.length e.policy.maxTop) else .ok (Module.assemble layout) := by
  unfold compile
  cases hresult : parse e source with
  | mk result notes =>
    rw [hresult] at hparse
    obtain rfl : result = .ok nodes := hparse
    simp only [hnodes]
    split <;> rfl

/-- **Whether and to what a page is compiled** once its inclusions are expanded. Only too many `top`
directives are in the way, whatever code the page holds. The module is the frame around the code of
the `top` directives in their order and the body of the other nodes, which are laid out in any
case; so it does not matter where among the other nodes the `top` directives stand. -/
theorem compile_hoisted (hstart : Inclusion.start e = .ok st)
    (htext : (Inclusion.expand e source st).1 = .ok text) :
    let nodes := Node.ofText text
    let count := (Region.scan text).countP Region.isTop
    ∃ others, Layout.ofNodes (nodes.filter (·.kind ≠ .top)) = .ok others ∧
      let module := Module.header ++ (Layout.hoisted nodes).flatten ++ Module.bodyBegin ++
        others.body.flatten ++ Module.bodyEnd
      (compile e source).result =
          (if e.policy.maxTop < count then .error (.tooManyTop count e.policy.maxTop)
          else .ok module) ∧
        ∀ moved : List Node, moved.filter (·.kind = .top) = nodes.filter (·.kind = .top) →
          moved.filter (·.kind ≠ .top) = nodes.filter (·.kind ≠ .top) →
          (Layout.ofNodes moved).map Module.assemble = .ok module := by
  intro nodes count
  have hincl : ∀ n ∈ nodes, n.kind ≠ .incl := (Region.tiles_scan text).kind_ne_incl 1 []
  obtain ⟨others, hothers, hall⟩ := Layout.exists_foldlM_place_withTop hincl {}
  have hcount : (Layout.hoisted nodes).length = count :=
    (List.length_map _).trans (Region.length_filter_ofRegions _ 1 [])
  refine ⟨others.withTop [], hothers [], ?_, fun moved htops hrest => ?_⟩
  · have hnodes : Layout.ofNodes nodes = .ok (others.withTop (Layout.hoisted nodes)) := hall []
    have htops : (others.withTop (Layout.hoisted nodes)).top.length = count := hcount
    rw [compile_of_parse (parse_of_expand hstart htext) hnodes, htops]
    rfl
  · have hmoved : ∀ n ∈ moved, n.kind ≠ .incl := by
      intro n hn hkind
      have hmem : n ∈ moved.filter (·.kind ≠ .top) :=
        List.mem_filter.mpr ⟨hn, by simp [hkind]⟩
      rw [hrest] at hmem
      exact hincl n (List.mem_filter.mp hmem).1 hkind
    obtain ⟨same, hsame, hall'⟩ := Layout.exists_foldlM_place_withTop hmoved {}
    have hothers' : same.withTop [] = others.withTop [] :=
      Except.ok.inj ((hsame []).symm.trans (hrest ▸ hothers []))
    have hbody : (same.withTop []).body = (others.withTop []).body := congrArg _ hothers'
    have hlayout : Layout.ofNodes moved = .ok (same.withTop (Layout.hoisted nodes)) := by
      rw [Layout.hoisted, ← htops]
      exact hall' []
    rw [hlayout]
    show Except.ok (Module.header ++ _ ++ _ ++ (same.withTop []).body.flatten ++ _) = _
    rw [hbody]
    rfl

/-- A page with a `top` directive of white space, a block that is no code, and one `top` directive
more than it may have. -/
theorem compile_hoisted_unclosed :
    let text := Directive.source ⟨.top, [' '], [], []⟩ ++
      Directive.source ⟨.block, [' '], ['('], []⟩ ++ Directive.source ⟨.top, [' '], ['x'], []⟩
    let e : Inclusion.Setting := { tree := ⟨[]⟩, cwd := [], policy := { includeDir := ['/'] } }
    let nodes := Node.ofText text
    Inclusion.start e = .ok ⟨[['/']], []⟩ ∧
      (Inclusion.expand e text ⟨[['/']], []⟩).1 = .ok text ∧
      ∃ others, Layout.ofNodes (nodes.filter (·.kind ≠ .top)) = .ok others ∧
        let module := Module.header ++ (Layout.hoisted nodes).flatten ++ Module.bodyBegin ++
          others.body.flatten ++ Module.bodyEnd
        (compile e text).result = .error (.tooManyTop 2 1) ∧
          ∀ moved : List Node, moved.filter (·.kind = .top) = nodes.filter (·.kind = .top) →
            moved.filter (·.kind ≠ .top) = nodes.filter (·.kind ≠ .top) →
            (Layout.ofNodes moved).map Module.assemble = .ok module := by
  intro text e nodes
  have habsent : Inclusion.Absent text := Inclusion.absent_of_not_infix (by decide)
  have hstart : Inclusion.start e = .ok ⟨[['/']], []⟩ := by cbv
  have htext : (Inclusion.expand e text ⟨[['/']], []⟩).1 = .ok text := by
    rw [Inclusion.expand_of_absent habsent]
  have hlast : Region.scan (Directive.source ⟨.top, [' '], ['x'], []⟩) =
      [.directive ⟨.top, [' '], ['x'], []⟩] := by
    have hmatch : Directive.match? (Directive.source ⟨.top, [' '], ['x'], []⟩) =
        some (⟨.top, [' '], ['x'], []⟩, []) := rfl
    rw [Region.scan_of_match hmatch, Region.scan]
  have hscan : Region.scan text = [.directive ⟨.top, [' '], [], []⟩,
      .directive ⟨.block, [' '], ['('], []⟩, .directive ⟨.top, [' '], ['x'], []⟩] := by
    rw [Region.scan_of_match rfl, Region.scan_of_match rfl]
    exact congrArg (fun rs => _ :: _ :: rs) hlast
  have hcount : (Region.scan text).countP Region.isTop = 2 := by
    rw [hscan]
    rfl
  obtain ⟨others, hothers, hresult, hmoved⟩ := compile_hoisted hstart htext
  rw [hcount] at hresult
  exact ⟨hstart, htext, others, hothers, hresult, hmoved⟩

end Page

end ServerPages
