import ServerPages.Module.Layout
import ServerPages.Proofs.Code.OneLine

/-!
# Well nested fragments

A fragment of a page is *well nested* if every suite that a header opens is closed: by a clause
that continues the statement and opens a suite of its own, or at the end by a comment. Text,
expressions and statements of one line may stand anywhere.

Such fragments are laid out by their syntax alone. A header stands where the fragment stands, what
is inside one level further in, and behind the closing comment everything is as before: laying out
adds the lines that the syntax spells, and nothing else changes (`foldlM_place_fragment`). As the
column and the open suites are the same before and behind, fragments may follow one another and
stand inside whatever suites are open.
-/

namespace ServerPages

/-- Text of one line loses all spaces and tabs with which it begins. -/
theorem Text.dedent_of_not_mem {s : Text} (h : '\n' ∉ s) : dedent s = s.dropWhile isIndent := by
  have hafter : after? (s.takeWhile isIndent) s = some (s.dropWhile isIndent) :=
    after?_eq_some_iff.mpr List.takeWhile_append_dropWhile.symm
  rw [dedent, splitOn_of_not_mem h]
  cases hall : s.all isIndent with
  | true =>
    have hnil : s.dropWhile isIndent = [] :=
      List.dropWhile_eq_nil_iff.mpr (List.all_eq_true.mp hall)
    simp [dedentLine, hall, joinWith, hnil]
  | false =>
    simp only [margin?, List.foldl_cons, List.foldl_nil, hall, Bool.false_eq_true, if_false,
      Option.getD_some, List.map_cons, List.map_nil, dedentLine, hafter, joinWith]

namespace Layout

/-! ### Lines of code -/

/-- A block whose code is one line. -/
structure CodeLine where
  node : Node
  kind_eq : node.kind = .block
  indent_blank : ∀ c ∈ node.indent, Text.isIndent c = true
  newline_not_mem : '\n' ∉ node.text
  /-- The code begins at once. -/
  begins : ∃ c s, node.text = c :: s ∧ Text.isBlank c = false

namespace CodeLine

/-- The word that begins a line, empty if no word does. -/
def word (line : CodeLine) : Text := line.node.text.takeWhile Text.isWord

/-- How a line ends. -/
def tail (line : CodeLine) : Code.Tail := Code.Tail.ofCode line.node.text

end CodeLine

/-- A line that begins a statement and leaves its suite open. -/
structure Header extends CodeLine where
  not_continues : toCodeLine.word ∉ continuationWords
  opens : toCodeLine.tail.opens = true

/-- A line that continues a statement and leaves a suite open. -/
structure Clause extends CodeLine where
  continues : toCodeLine.word ∈ continuationWords
  opens : toCodeLine.tail.opens = true

/-- A line that is a statement of its own. -/
structure Statement extends CodeLine where
  not_continues : toCodeLine.word ∉ continuationWords
  not_opens : toCodeLine.tail.opens = false
  not_comment : ¬ ['#'] <+: node.text

/-- A line that is a comment. -/
structure Closing extends CodeLine where
  comment : ['#'] <+: node.text

/-- An expression that stands on one line with the call that writes its value. -/
structure Inline where
  node : Node
  kind_eq : node.kind = .expr
  newline_not_mem : '\n' ∉ Text.trim node.text
  sign_not_mem : '#' ∉ Text.trim node.text

/-- Literal text. -/
structure Literal where
  node : Node
  kind_eq : node.kind = .text

/-! ### Fragments -/

mutual

/-- A well nested fragment: its items in order. -/
inductive Fragment where
  | nil
  | text (item : Literal) (rest : Fragment)
  | expr (item : Inline) (rest : Fragment)
  | statement (item : Statement) (rest : Fragment)
  | suite (header : Header) (body : Fragment) (ending : Ending) (rest : Fragment)

/-- What stands behind the first suite of a statement: clauses with their suites, then the
comment that closes the last one. -/
inductive Ending where
  | clause (header : Clause) (body : Fragment) (rest : Ending)
  | closing (comment : Closing)

end

mutual

/-- The nodes of a fragment. -/
def Fragment.nodes : Fragment → List Node
  | .nil => []
  | .text item rest => item.node :: rest.nodes
  | .expr item rest => item.node :: rest.nodes
  | .statement item rest => item.node :: rest.nodes
  | .suite header body ending rest => header.node :: (body.nodes ++ ending.nodes ++ rest.nodes)

/-- The nodes of what stands behind a suite. -/
def Ending.nodes : Ending → List Node
  | .clause header body rest => header.node :: (body.nodes ++ rest.nodes)
  | .closing comment => [comment.node]

end

/-- A line at a column of the body. -/
def printed (column : Nat) (code : Text) : Text :=
  List.replicate (bodyIndent + column) ' ' ++ code ++ ['\n']

/-- The call that writes literal text; none if there is nothing to write. -/
def Literal.lines (column : Nat) (item : Literal) : List Text :=
  if item.node.text = [] then []
  else [printed column (writeCall ++ Quoted.encode item.node.text ++ [')'])]

/-- The call that writes the value of an expression and what trails it. -/
def Inline.line (column : Nat) (item : Inline) : Text :=
  printed column
    (writeCall ++ Text.trim item.node.text ++ (", ".toList ++ Quoted.encode item.node.trailing ++
      [')']))

mutual

/-- The lines that a fragment spells at a column. -/
def Fragment.lines (column : Nat) : Fragment → List Text
  | .nil => []
  | .text item rest => item.lines column ++ rest.lines column
  | .expr item rest => item.line column :: rest.lines column
  | .statement item rest => printed column item.node.text :: rest.lines column
  | .suite header body ending rest =>
    printed column header.node.text :: printed (column + indentWidth) "pass".toList ::
      (body.lines (column + indentWidth) ++ ending.lines column ++ rest.lines column)

/-- The lines of what stands behind a suite that was opened at a column. -/
def Ending.lines (column : Nat) : Ending → List Text
  | .clause header body rest =>
    printed column header.node.text :: printed (column + indentWidth) "pass".toList ::
      (body.lines (column + indentWidth) ++ rest.lines column)
  | .closing comment => [printed column comment.node.text]

end

/-! ### One node -/

section

variable {n : Node} (l : Layout)

theorem lineAt_of_not_blank {column : Nat} {code : Text} {c : Char} (hc : c ∈ code)
    (hblank : Text.isBlank c = false) : lineAt column code = printed column code := by
  have h : Text.isAllBlank code = false :=
    List.all_eq_false.2 ⟨c, hc, by simp [hblank]⟩
  rw [lineAt, h]
  rfl

theorem lineAt_writeCall (column : Nat) (s : Text) :
    lineAt column (writeCall ++ s) = printed column (writeCall ++ s) :=
  lineAt_of_not_blank (c := 'g') (List.mem_append_left s (by decide)) rfl

private theorem CodeLine.lineAt_text (line : CodeLine) (column : Nat) :
    lineAt column line.node.text = printed column line.node.text := by
  obtain ⟨c, s, htext, hc⟩ := line.begins
  exact lineAt_of_not_blank (htext ▸ List.mem_cons_self) hc

theorem Literal.place_node (item : Literal) :
    place l item.node = .ok { l with body := l.body ++ item.lines l.column } := by
  rw [place, item.kind_eq]
  simp only [placeText, Literal.lines, List.isEmpty_iff]
  split
  · simp
  · rw [emit, List.append_assoc, lineAt_writeCall]

theorem Inline.place_node (item : Inline) :
    place l item.node = .ok { l with body := l.body ++ [item.line l.column] } := by
  rw [place, item.kind_eq]
  have hone : ¬('\n' ∈ Text.trim item.node.text ∨ '#' ∈ Text.trim item.node.text) :=
    not_or.2 ⟨item.newline_not_mem, item.sign_not_mem⟩
  simp only [placeExpr, if_neg hone]
  rw [emit, List.append_assoc writeCall, lineAt_writeCall, Inline.line, List.append_assoc writeCall]

/-- One line has no margin but its own indentation. -/
theorem dedent_line {indent code : Text} {c : Char} {s : Text} (hcode : code = c :: s)
    (hindent : ∀ c ∈ indent, Text.isIndent c = true) (hc : Text.isIndent c = false)
    (hline : '\n' ∉ indent ++ code) : Text.dedent (indent ++ code) = code := by
  rw [Text.dedent_of_not_mem hline, List.dropWhile_append_of_pos hindent, hcode,
    List.dropWhile_cons_of_neg (by simp [hc])]

private theorem CodeLine.blockLines_node (line : CodeLine) : blockLines line.node = [line.node.text] := by
  obtain ⟨c, s, htext, hc⟩ := line.begins
  have hindent : Text.isIndent c = false := by
    rw [Text.isIndent, Bool.or_eq_false_iff, beq_eq_false_iff_ne, beq_eq_false_iff_ne]
    refine ⟨?_, ?_⟩ <;> rintro rfl <;> cases hc
  have hline : '\n' ∉ line.node.indent ++ line.node.text := by
    rw [List.mem_append, not_or]
    exact ⟨fun h => absurd (line.indent_blank _ h) (by decide), line.newline_not_mem⟩
  have hcode : Text.isAllBlank line.node.text = false :=
    List.all_eq_false.2 ⟨c, by simp [htext], by simp [hc]⟩
  have hdedented : dedented line.node = line.node.text :=
    dedent_line htext line.indent_blank hindent hline
  simp [blockLines, hdedented, Text.splitOn_of_not_mem line.newline_not_mem, hcode]

private theorem CodeLine.trimLeft_text (line : CodeLine) :
    Text.trimLeft line.node.text = line.node.text := by
  obtain ⟨c, s, htext, hc⟩ := line.begins
  rw [Text.trimLeft, htext, List.dropWhile_cons_of_neg (by simp [hc])]

/-- A word begins a text if it is the word that ends first. -/
theorem after?_atWordEnd_iff {w : Text} (hw : ∀ c ∈ w, Text.isWord c = true) (s : Text) :
    (∃ rest, Text.after? w s = some rest ∧ Text.atWordEnd rest = true) ↔
      s.takeWhile Text.isWord = w := by
  constructor
  · rintro ⟨rest, hafter, hend⟩
    rw [Text.after?_eq_some_iff] at hafter
    have hrest : rest.takeWhile Text.isWord = [] := by
      cases rest with
      | nil => rfl
      | cons c rest => exact List.takeWhile_cons_of_neg (by simpa [Text.atWordEnd] using hend)
    rw [hafter, List.takeWhile_append_of_pos hw, hrest, List.append_nil]
  · intro h
    refine ⟨s.dropWhile Text.isWord, ?_, ?_⟩
    · rw [Text.after?_eq_some_iff, ← h, List.takeWhile_append_dropWhile]
    · cases hrest : s.dropWhile Text.isWord with
      | nil => rfl
      | cons c rest =>
        have := List.head?_dropWhile_not Text.isWord s
        rw [hrest] at this
        simpa [Text.atWordEnd] using this

private theorem CodeLine.continues_iff (line : CodeLine) :
    Layout.continues line.node.text = true ↔ line.word ∈ continuationWords := by
  have hwords : continuationWords.all (fun w => w.all Text.isWord) = true := by decide
  have hword : ∀ w ∈ continuationWords, ∀ c ∈ w, Text.isWord c = true := fun w hw =>
    List.all_eq_true.1 (List.all_eq_true.1 hwords w hw)
  rw [Layout.continues, line.trimLeft_text, List.any_eq_true]
  constructor
  · rintro ⟨w, hw, h⟩
    split at h
    · next rest hafter =>
      have hsame : line.word = w := (after?_atWordEnd_iff (hword w hw) _).1 ⟨rest, hafter, h⟩
      rwa [hsame]
    · cases h
  · intro h
    obtain ⟨rest, hafter, hend⟩ := (after?_atWordEnd_iff (hword _ h) line.node.text).2 rfl
    refine ⟨_, h, ?_⟩
    rw [hafter]
    exact hend

private theorem CodeLine.column_tail (line : CodeLine) : line.tail.column = 0 := by
  obtain ⟨c, s, htext, hc⟩ := line.begins
  have hnewline := line.newline_not_mem
  rw [CodeLine.tail, htext]
  exact Code.Tail.column_ofCode (htext ▸ hnewline) hc

private theorem CodeLine.not_comment_of_opens (line : CodeLine) (h : line.tail.opens = true) :
    ¬ ['#'] <+: line.node.text := by
  rintro ⟨s, hs⟩
  have hnewline := line.newline_not_mem
  rw [CodeLine.tail, ← hs] at h
  rw [← hs] at hnewline
  have hcomment : (Code.Tail.ofCode (['#'] ++ s)).opens = false :=
    Code.Tail.opens_ofCode_comment (List.not_mem_of_not_mem_cons hnewline)
  rw [hcomment] at h
  cases h

private theorem CodeLine.isInsignificant_text (line : CodeLine) :
    isInsignificant line.node.text = true ↔ ['#'] <+: line.node.text := by
  obtain ⟨c, s, htext, hc⟩ := line.begins
  have hcode : Text.isAllBlank line.node.text = false :=
    List.all_eq_false.2 ⟨c, by simp [htext], by simp [hc]⟩
  rw [isInsignificant, hcode, line.trimLeft_text, Bool.false_or, Text.beginsWith_iff]

/-- What a line that is no comment does. -/
theorem CodeLine.place_code (line : CodeLine) (h : ¬ ['#'] <+: line.node.text) :
    place l line.node = .ok (((if Layout.continues line.node.text then l.closeSuite else l).emit
      line.node.text).follow line.tail) := by
  have hfind : [line.node.text].find? (!isInsignificant ·) = some line.node.text :=
    List.find?_cons_of_pos (by simpa using mt line.isInsignificant_text.1 h)
  rw [place, line.kind_eq]
  simp only [placeBlock, line.blockLines_node, hfind, emitAll, List.foldl_cons, List.foldl_nil,
    Text.joinWith, CodeLine.tail]
  rfl

/-- What a comment does. -/
theorem CodeLine.place_comment (line : CodeLine) (h : ['#'] <+: line.node.text) :
    place l line.node = .ok (l.closeSuite.emit line.node.text) := by
  have hfind : [line.node.text].find? (!isInsignificant ·) = none := by
    simpa [line.isInsignificant_text] using h
  rw [place, line.kind_eq]
  simp only [placeBlock, line.blockLines_node, hfind, emitAll, List.foldl_cons, List.foldl_nil]
  rfl

theorem closeSuite_cons {column : Nat} {suites : List Nat} (h : l.suites = column :: suites) :
    l.closeSuite = { l with column := column, suites := suites } := by
  rw [closeSuite, h]

private theorem follow_of_opens {tail : Code.Tail} (hopens : tail.opens = true) (hcol : tail.column = 0) :
    l.follow tail = { l with
      body := l.body ++ [printed (l.column + indentWidth) "pass".toList]
      column := l.column + indentWidth
      suites := l.column :: l.suites } := by
  have hpass : lineAt (l.column + indentWidth) "pass".toList =
      printed (l.column + indentWidth) "pass".toList :=
    lineAt_of_not_blank (c := 'p') (by decide) rfl
  rw [follow, if_pos hopens, hcol, Nat.zero_add, openSuite, emit, hpass]

private theorem follow_of_not_opens {tail : Code.Tail} (hopens : tail.opens = false)
    (hcol : tail.column = 0) : l.follow tail = l := by
  rw [follow, hopens, if_neg Bool.false_ne_true, if_pos hcol]

theorem Statement.place_node (item : Statement) :
    place l item.node = .ok { l with body := l.body ++ [printed l.column item.node.text] } := by
  have hcontinues : Layout.continues item.node.text = false := by
    simpa using mt item.continues_iff.1 item.not_continues
  rw [item.place_code l item.not_comment, hcontinues, if_neg Bool.false_ne_true,
    follow_of_not_opens _ item.not_opens item.column_tail, emit, item.lineAt_text]

theorem Header.place_node (item : Header) :
    place l item.node = .ok { l with
      body := l.body ++ [printed l.column item.node.text,
        printed (l.column + indentWidth) "pass".toList]
      column := l.column + indentWidth
      suites := l.column :: l.suites } := by
  have hcontinues : Layout.continues item.node.text = false := by
    simpa using mt item.continues_iff.1 item.not_continues
  rw [item.place_code l (item.not_comment_of_opens item.opens), hcontinues,
    if_neg Bool.false_ne_true, follow_of_opens _ item.opens item.column_tail, emit,
    item.lineAt_text]
  simp

/-- A clause leaves the suites as it finds them: it closes one and opens one at its place. -/
theorem Clause.place_node (item : Clause) {column : Nat} {suites : List Nat}
    (h : l.suites = column :: suites) :
    place l item.node = .ok { l with
      body := l.body ++ [printed column item.node.text,
        printed (column + indentWidth) "pass".toList]
      column := column + indentWidth } := by
  have hcontinues : Layout.continues item.node.text = true := item.continues_iff.2 item.continues
  rw [item.place_code l (item.not_comment_of_opens item.opens), hcontinues, if_pos rfl,
    closeSuite_cons _ h, follow_of_opens _ item.opens item.column_tail, emit, item.lineAt_text]
  simp [h]

theorem Closing.place_node (item : Closing) {column : Nat} {suites : List Nat}
    (h : l.suites = column :: suites) :
    place l item.node = .ok { l with
      body := l.body ++ [printed column item.node.text]
      column := column
      suites := suites } := by
  rw [item.place_comment l item.comment, closeSuite_cons _ h, emit, item.lineAt_text]

end

/-! ### Whole fragments -/

/-- Nodes that add lines for the column where they are placed, and change nothing else. -/
def Adds (nodes : List Node) (lines : Nat → List Text) : Prop :=
  ∀ l : Layout, nodes.foldlM place l = .ok { l with body := l.body ++ lines l.column }

/-- Nodes that add lines for the column at which the innermost suite was opened, and close it. -/
def Closes (nodes : List Node) (lines : Nat → List Text) : Prop :=
  ∀ (l : Layout) (column : Nat) (suites : List Nat), l.suites = column :: suites →
    nodes.foldlM place l = .ok { l with
      body := l.body ++ lines column
      column := column
      suites := suites }

section

variable {nodes more : List Node} {lines moreLines : Nat → List Text}

theorem foldlM_place_cons {n : Node} {l l' : Layout} (h : place l n = .ok l') :
    (n :: nodes).foldlM place l = nodes.foldlM place l' := by
  rw [List.foldlM_cons, h]
  rfl

theorem foldlM_place_append {l l' : Layout} (h : nodes.foldlM place l = .ok l') :
    (nodes ++ more).foldlM place l = more.foldlM place l' := by
  rw [List.foldlM_append, h]
  rfl

theorem Adds.nil : Adds [] fun _ => [] := fun l => by simp [pure, Except.pure]

theorem Adds.append (h : Adds nodes lines) (h' : Adds more moreLines) :
    Adds (nodes ++ more) fun column => lines column ++ moreLines column := by
  intro l
  rw [foldlM_place_append (h l), h' _, List.append_assoc]

theorem Adds.single {n : Node}
    (h : ∀ l, place l n = .ok { l with body := l.body ++ lines l.column }) : Adds [n] lines := by
  intro l
  rw [foldlM_place_cons (h l)]
  rfl

theorem Literal.adds (item : Literal) : Adds [item.node] fun column => item.lines column :=
  .single fun l => item.place_node l

theorem Inline.adds (item : Inline) : Adds [item.node] fun column => [item.line column] :=
  .single fun l => item.place_node l

theorem Statement.adds (item : Statement) :
    Adds [item.node] fun column => [printed column item.node.text] :=
  .single fun l => item.place_node l

/-- A header puts the place of the statement on top of the open suites, and the ending takes it
off again. -/
theorem Header.adds (header : Header) (hbody : Adds nodes lines) (hending : Closes more moreLines) :
    Adds (header.node :: (nodes ++ more)) fun column =>
      printed column header.node.text :: printed (column + indentWidth) "pass".toList ::
        (lines (column + indentWidth) ++ moreLines column) := by
  intro l
  rw [foldlM_place_cons (header.place_node l), foldlM_place_append (hbody _),
    hending _ l.column l.suites rfl]
  simp

theorem Clause.closes (header : Clause) (hbody : Adds nodes lines)
    (hending : Closes more moreLines) :
    Closes (header.node :: (nodes ++ more)) fun column =>
      printed column header.node.text :: printed (column + indentWidth) "pass".toList ::
        (lines (column + indentWidth) ++ moreLines column) := by
  intro l column suites h
  rw [foldlM_place_cons (header.place_node l h), foldlM_place_append (hbody _)]
  refine (hending _ column suites (by exact h)).trans ?_
  simp

theorem Closing.closes (comment : Closing) :
    Closes [comment.node] fun column => [printed column comment.node.text] := by
  intro l column suites h
  rw [foldlM_place_cons (comment.place_node l h)]
  rfl

end

mutual

theorem Fragment.adds : (f : Fragment) → Adds f.nodes fun column => f.lines column
  | .nil => .nil
  | .text item rest => item.adds.append rest.adds
  | .expr item rest => item.adds.append rest.adds
  | .statement item rest => item.adds.append rest.adds
  | .suite header body ending rest => by
    have h := (header.adds body.adds ending.closes).append rest.adds
    simpa [Fragment.nodes, Fragment.lines] using h

theorem Ending.closes : (e : Ending) → Closes e.nodes fun column => e.lines column
  | .clause header body rest => header.closes body.adds rest.closes
  | .closing comment => comment.closes

end

/-- **Well nested fragments are laid out by their syntax.** Wherever a layout stands and whatever
suites are open, the nodes of a fragment add the lines that it spells at that column, and leave the
column and the open suites as they are. -/
theorem foldlM_place_fragment (f : Fragment) (l : Layout) :
    f.nodes.foldlM place l = .ok { l with body := l.body ++ f.lines l.column } :=
  f.adds l

/-- There are headers: one that begins a conditional statement. -/
example : Nonempty Header := ⟨{
  node := { kind := .block, text := "if x:".toList }
  kind_eq := rfl
  indent_blank := by simp
  newline_not_mem := by decide
  begins := ⟨_, _, rfl, rfl⟩
  not_continues := by decide
  opens := by decide +kernel }⟩

end Layout

end ServerPages
