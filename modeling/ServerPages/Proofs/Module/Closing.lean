import ServerPages.Proofs.Module.Blocks
import ServerPages.Proofs.Module.Nesting

/-!
# Closing suites

A block may leave several suites open: it ends with one header inside another, or inside nested
suites. The suites that are open behind it are told from its tokens (`Code.openHeaders`): each has a
header, and what stands at the header's column or left of it is outside.

A layout keeps one column for each block in force, not one for each suite. So a closing comment
closes all the suites that the last block in force has left open, and it closes exactly the
innermost suite if and only if these are one suite whose header stands in the block's first column
(`closing_iff`).
-/

namespace ServerPages

namespace Code

/-! ### The suites that code leaves open -/

/-- What has been seen of the suites of code that is read token by token. -/
structure Outline where
  seen : Tail.Seen := {}
  /-- For each indentation at hand, the innermost first, the column of the header before it; none if
  what stands before it is no header. -/
  inside : List (Option Nat) := []
  /-- The same around the last statement. -/
  around : List (Option Nat) := []
  deriving DecidableEq, Repr

namespace Outline

/-- Whether the last token is the colon of a header. -/
def opens (o : Outline) : Bool := o.seen.last.any (·.isOperator ":")

/-- The header that has just ended. -/
def header (o : Outline) : Option Nat := if o.opens then some o.seen.column else none

/-- What has been seen after one more token. -/
def step (o : Outline) (t : Token) : Outline :=
  let seen := o.seen.step t
  match t.kind with
  | .indent => { o with seen, inside := o.header :: o.inside }
  | .dedent => { o with seen, inside := o.inside.tail }
  | .newline | .comment | .blankLine => { o with seen }
  | .name | .number | .string | .operator | .stray => { o with seen, around := o.inside }

end Outline

/-- The columns of the headers whose suites the last statement of code leaves open, the innermost
first. -/
def openHeaders (code : Text) : List Nat :=
  let o := (tokens code).1.foldl Outline.step {}
  (o.header :: o.around).filterMap id

end Code

namespace Layout

/-! ### Blocks in force -/

/-- A block in force: what follows it stands further right than its own lines. -/
structure Stand where
  /-- The column at which the lines of the block are placed. -/
  column : Nat
  /-- The columns at which the headers of the suites stand that the block has left open, the
  innermost first. -/
  headers : List Nat
  deriving DecidableEq, Repr

/-- The blocks in force behind one more block. -/
def standsBehind (l : Layout) (stands : List Stand) (n : Node) : List Stand :=
  let column := l.blockColumn n
  let next := (l.placeBlock n).column
  let headers := ((Code.openHeaders (blockCode n)).map (column + ·)).filter (· < next)
  let kept := stands.filter (·.column < column)
  if column < next then ⟨column, headers⟩ :: kept else kept

/-- Whether a node is a block that adds lines. -/
def isPlaced (n : Node) : Bool := n.kind = .block && !(blockLines n).isEmpty

/-- The blocks in force behind nodes that are added to a layout, the last first. -/
def standsFrom (l : Layout) (stands : List Stand) : List Node → List Stand
  | [] => stands
  | n :: nodes =>
    match l.place n with
    | .error _ => stands
    | .ok next => standsFrom next (if isPlaced n then l.standsBehind stands n else stands) nodes

/-- The blocks in force behind the nodes of a page. -/
def stands (nodes : List Node) : List Stand := standsFrom {} [] nodes

/-- The columns of the headers whose suites are open behind the nodes of a page, the innermost
first. -/
def openSuites (nodes : List Node) : List Nat := (stands nodes).flatMap Stand.headers

/-- Blocks one inside the other, all left of a column: the suites that each has left open begin
between its own column and that of the next. -/
inductive Stand.Inside : Nat → List Stand → Prop where
  | nil (limit : Nat) : Inside limit []
  | cons {limit : Nat} {stand : Stand} {rest : List Stand} (hcolumn : stand.column < limit)
      (hheaders : ∀ h ∈ stand.headers, stand.column ≤ h ∧ h < limit)
      (hrest : Inside stand.column rest) : Inside limit (stand :: rest)

/-- The layout's own record of the suites names the blocks in force. -/
structure Records (l : Layout) (stands : List Stand) : Prop where
  suites_eq : l.suites = stands.map Stand.column
  inside : Stand.Inside l.column stands

variable {l l' : Layout} {n : Node} {nodes : List Node} {stands rest : List Stand} {stand : Stand}
  {limit column : Nat}

private theorem Stand.Inside.column_lt (h : Stand.Inside limit stands) :
    ∀ stand ∈ stands, stand.column < limit := by
  induction h with
  | nil => simp
  | cons hcolumn _ _ ih =>
    intro s hs
    obtain rfl | hs := List.mem_cons.mp hs
    · exact hcolumn
    · exact (ih s hs).trans hcolumn

private theorem Stand.Inside.header_lt (h : Stand.Inside limit stands) :
    ∀ header ∈ stands.flatMap Stand.headers, header < limit := by
  induction h with
  | nil => simp
  | cons hcolumn hheaders _ ih =>
    intro header hheader
    obtain hheader | hheader := List.mem_append.mp (List.flatMap_cons ▸ hheader)
    · exact (hheaders header hheader).2
    · exact (ih header hheader).trans hcolumn

/-- All of the blocks are left of the column where the layout stands. -/
theorem Stand.Inside.filter_limit (h : Stand.Inside limit stands) :
    stands.filter (·.column < limit) = stands :=
  List.filter_eq_self.mpr fun s hs => by simpa using h.column_lt s hs

/-- All but the last block are left of its column. -/
theorem Stand.Inside.filter_column (h : Stand.Inside limit (stand :: rest)) :
    (stand :: rest).filter (·.column < stand.column) = rest := by
  cases h with
  | cons _ _ hrest => rw [List.filter_cons_of_neg (by simp), hrest.filter_limit]

theorem Records.closeSuite (h : l.Records stands) :
    l.closeSuite.Records stands.tail ∧
      stands.filter (·.column < l.closeSuite.column) = stands.tail := by
  cases stands with
  | nil =>
    have hnil : l.suites = [] := h.suites_eq
    simpa [Layout.closeSuite, hnil] using h
  | cons stand rest =>
    have hsuites : l.suites = stand.column :: rest.map Stand.column := h.suites_eq
    rw [closeSuite_cons l hsuites]
    exact ⟨⟨rfl, by cases h.inside; assumption⟩, h.inside.filter_column⟩

theorem Records.before (h : l.Records stands) :
    (l.before n).Records (stands.filter (·.column < l.blockColumn n)) := by
  rw [blockColumn, Layout.before]
  split
  · rw [h.closeSuite.2]
    exact h.closeSuite.1
  · rw [h.inside.filter_limit]
    exact h

theorem Records.placeBlock (h : l.Records stands) (hne : blockLines n ≠ []) :
    (l.placeBlock n).Records (l.standsBehind stands n) := by
  obtain ⟨hle, hsuites⟩ := placeBlock_suites (l := l) hne
  have hbefore := h.before (n := n)
  rw [standsBehind]
  -- a block is in force if what follows it stands further right
  by_cases hlt : l.blockColumn n < (l.placeBlock n).column
  · rw [if_pos hlt] at hsuites ⊢
    refine ⟨by rw [hsuites, hbefore.suites_eq, List.map_cons], .cons hlt ?_ hbefore.inside⟩
    intro header hheader
    obtain ⟨hmem, hheader⟩ := List.mem_filter.mp hheader
    obtain ⟨column, -, rfl⟩ := List.mem_map.mp hmem
    exact ⟨Nat.le_add_right _ _, by simpa using hheader⟩
  · have hcolumn : (l.before n).column = (l.placeBlock n).column := le_antisymm hle (not_lt.mp hlt)
    rw [if_neg hlt] at hsuites ⊢
    exact ⟨hsuites.trans hbefore.suites_eq, hcolumn ▸ hbefore.inside⟩

/-! ### Whole pages -/

theorem place_of_not_isPlaced (h : l.place n = .ok l') (hn : isPlaced n = false) :
    l'.column = l.column ∧ l'.suites = l.suites := by
  rw [place] at h
  split at h
  · obtain rfl := Except.ok.inj h
    rw [placeText]
    split <;> exact ⟨rfl, rfl⟩
  · obtain rfl := Except.ok.inj h
    exact ⟨rfl, rfl⟩
  · next hkind =>
    obtain rfl := Except.ok.inj h
    rw [placeBlock_of_nil (by simpa [isPlaced, hkind] using hn)]
    exact ⟨rfl, rfl⟩
  · obtain rfl := Except.ok.inj h
    rw [placeExpr]
    dsimp only
    split
    · simp [emitAll_eq, emit]
    · exact ⟨rfl, rfl⟩
  · cases h

theorem isPlaced_iff : isPlaced n = true ↔ n.kind = .block ∧ blockLines n ≠ [] := by
  rw [isPlaced, Bool.and_eq_true, decide_eq_true_eq, Bool.not_eq_true', List.isEmpty_eq_false_iff]

theorem Records.place (h : l.Records stands) (hl : l.place n = .ok l') :
    l'.Records (if isPlaced n then l.standsBehind stands n else stands) := by
  cases hn : isPlaced n with
  | true =>
    obtain ⟨hkind, hne⟩ := isPlaced_iff.mp hn
    rw [Layout.place, hkind] at hl
    obtain rfl := Except.ok.inj hl
    exact h.placeBlock hne
  | false =>
    obtain ⟨hcolumn, hsuites⟩ := place_of_not_isPlaced hl hn
    exact ⟨hsuites.trans h.suites_eq, hcolumn ▸ h.inside⟩

/-- Nodes are laid out if the first is, and the others behind it. -/
theorem exists_place_of_foldlM (hl : (n :: nodes).foldlM Layout.place l = .ok l') :
    ∃ next, l.place n = .ok next ∧ nodes.foldlM Layout.place next = .ok l' := by
  cases hn : l.place n with
  | error e =>
    rw [List.foldlM_cons, hn] at hl
    cases hl
  | ok next =>
    rw [foldlM_place_cons hn] at hl
    exact ⟨next, rfl, hl⟩

private theorem Records.standsFrom (h : l.Records stands) (hl : nodes.foldlM Layout.place l = .ok l') :
    l'.Records (l.standsFrom stands nodes) := by
  induction nodes generalizing l stands with
  | nil =>
    obtain rfl := Except.ok.inj hl
    exact h
  | cons n nodes ih =>
    obtain ⟨next, hn, hl⟩ := exists_place_of_foldlM hl
    rw [Layout.standsFrom, hn]
    exact ih (h.place hn) hl

private theorem standsFrom_append (hl : nodes.foldlM Layout.place l = .ok l') (more : List Node) :
    l.standsFrom stands (nodes ++ more) = l'.standsFrom (l.standsFrom stands nodes) more := by
  induction nodes generalizing l stands with
  | nil =>
    obtain rfl := Except.ok.inj hl
    rfl
  | cons n nodes ih =>
    obtain ⟨next, hn, hl⟩ := exists_place_of_foldlM hl
    simp only [List.cons_append, Layout.standsFrom, hn]
    exact ih hl

/-- The blocks in force behind the nodes of a page are those that its layout names. -/
theorem records_stands (hl : ofNodes nodes = .ok l) : l.Records (Layout.stands nodes) :=
  Records.standsFrom ⟨rfl, .nil 0⟩ hl

/-- A comment ends the last block in force: what follows stands at that block's column, and the
blocks before it are in force as they were. -/
theorem place_comment (hl : ofNodes nodes = .ok l) (hkind : n.kind = .block)
    (hn : isComment n = true) (hstands : Layout.stands nodes = stand :: rest) :
    ∃ l', ofNodes (nodes ++ [n]) = .ok l' ∧ l'.column = stand.column ∧
      Layout.stands (nodes ++ [n]) = rest := by
  have hrecords : l.Records (stand :: rest) := hstands ▸ records_stands hl
  obtain ⟨hcloses, hblock⟩ := placeBlock_of_isComment (l := l) hn
  have hplace : l.place n = .ok (l.placeBlock n) := by rw [Layout.place, hkind]
  have hplaced : isPlaced n = true := by
    rw [isComment, Bool.and_eq_true] at hn
    rw [isPlaced, hn.1, hkind]
    rfl
  have hbefore : l.blockColumn n = stand.column := by
    rw [blockColumn, Layout.before, if_pos hcloses, closeSuite_cons l hrecords.suites_eq]
  have hcolumn : (l.placeBlock n).column = stand.column := by
    rw [← hbefore, hblock, blockColumn, Layout.before, if_pos hcloses, emitAll_eq]
  refine ⟨l.placeBlock n, ?_, hcolumn, ?_⟩
  · rw [ofNodes, foldlM_place_append hl, foldlM_place_cons hplace]
    rfl
  · rw [Layout.stands, standsFrom_append hl, ← Layout.stands, hstands]
    simp only [Layout.standsFrom, hplace, hplaced, if_true]
    rw [standsBehind, hbefore, hcolumn, if_neg (lt_irrefl _), hrecords.inside.filter_column]

/-- **What a closing comment closes.** Behind the nodes of a page suites are open, and a block of
nothing but comments follows. It ends the last block in force, with all the suites that this block
has left open. So it closes the innermost suite and no other, with what follows at the column of
that suite's header, if and only if the block has left open this one suite, with its header in the
block's first column. -/
theorem closing_iff {innermost : Nat} {outer : List Nat} (hl : ofNodes nodes = .ok l)
    (hkind : n.kind = .block) (hn : isComment n = true)
    (hopen : openSuites nodes = innermost :: outer) :
    ∃ l' stand rest, ofNodes (nodes ++ [n]) = .ok l' ∧ Layout.stands nodes = stand :: rest ∧
      l'.column = stand.column ∧ Layout.stands (nodes ++ [n]) = rest ∧
      (l'.column = innermost ∧ openSuites (nodes ++ [n]) = outer ↔
        stand.headers = [stand.column]) := by
  cases hstands : Layout.stands nodes with
  | nil =>
    rw [openSuites, hstands] at hopen
    cases hopen
  | cons stand rest =>
    obtain ⟨l', hl', hcolumn, hrest⟩ := place_comment hl hkind hn hstands
    have hinside : Stand.Inside l.column (stand :: rest) := hstands ▸ (records_stands hl).inside
    refine ⟨l', stand, rest, hl', rfl, hcolumn, hrest, ?_⟩
    rw [openSuites, hstands, List.flatMap_cons] at hopen
    rw [hcolumn, openSuites, hrest]
    constructor
    · rintro ⟨rfl, rfl⟩
      cases hheaders : stand.headers with
      | nil =>
        -- then the innermost suite is of a block further out, and its header is left of this one
        rw [hheaders, List.nil_append] at hopen
        have hmem : stand.column ∈ rest.flatMap Stand.headers := hopen ▸ List.mem_cons_self
        cases hinside with
        | cons _ _ hrest => exact absurd (hrest.header_lt _ hmem) (lt_irrefl _)
      | cons header headers =>
        rw [hheaders, List.cons_append] at hopen
        obtain ⟨rfl, htail⟩ := List.cons.inj hopen
        have hnil : headers = [] := by simpa using htail
        rw [hnil]
    · intro hheaders
      rw [hheaders] at hopen
      exact List.cons.inj hopen

/-- A loop in whose suite a condition opens another: each block leaves open one suite. -/
theorem closing_iff_nested :
    let header : Node := { kind := .block, text := "for r in range(2):".toList }
    let inner : Node := { kind := .block, text := "x = r
if x:".toList }
    let comment : Node := { kind := .block, text := "# end".toList }
    ∃ l l' stand rest, ofNodes [header, inner] = .ok l ∧ isComment comment = true ∧
      openSuites [header, inner] = [4, 0] ∧ ofNodes [header, inner, comment] = .ok l' ∧
      Layout.stands [header, inner] = stand :: rest ∧ l'.column = stand.column ∧
      Layout.stands [header, inner, comment] = rest ∧
      (l'.column = 4 ∧ openSuites [header, inner, comment] = [0] ↔
        stand.headers = [stand.column]) := by
  intro header inner comment
  have hl : ∃ l, ofNodes [header, inner] = .ok l := ⟨_, rfl⟩
  obtain ⟨l, hl⟩ := hl
  have hcomment : isComment comment = true := by decide +kernel
  have hopen : openSuites [header, inner] = [4, 0] := by decide +kernel
  obtain ⟨l', stand, rest, h⟩ := closing_iff hl rfl hcomment hopen
  exact ⟨l, l', stand, rest, hl, hcomment, hopen, h⟩

/-- Two headers in one block: one comment closes both suites, and the code behind it is outside. -/
theorem closing_both :
    let headers : Node :=
      { kind := .block, text := "
for r in range(2):
    for c in range(2):
".toList }
    let text : Node := { kind := .text, text := "x".toList }
    let comment : Node := { kind := .block, text := "# end".toList }
    ∃ l l', ofNodes [headers, text] = .ok l ∧ isComment comment = true ∧
      openSuites [headers, text] = [4, 0] ∧ ofNodes [headers, text, comment] = .ok l' ∧
      l'.column = 0 ∧ openSuites [headers, text, comment] = [] := by
  intro headers text comment
  exact ⟨_, _, rfl, by decide +kernel, by decide +kernel, rfl, by decide +kernel,
    by decide +kernel⟩

end Layout

end ServerPages
