import ServerPages.Proofs.Code.Edge.Splicing
import ServerPages.Proofs.Module.Hoisting
import ServerPages.Proofs.Module.Preceding

/-!
# The calls that write expressions

An expression of one line stands on the line of its call as it is; with a comment behind it, it
stands in brackets of its own, on a line of its own. The first call hands on the value that the
expression has in brackets if and only if it is an expression without them, and the second does if
and only if its brackets belong together and one more may be open around it
(`Layout.added_calls_iff`). So a tuple is several arguments of the first call, and one of the second
(`Layout.added_call_tuple`).
-/

namespace ServerPages

namespace Layout

variable {e gap comment page head page' head' : Text} {d d' : Directive} {n n' : Node} {l : Layout}
  {w : Code.Tree}

private theorem mem_trim {s : Text} {c : Char} (h : c ∈ s) (hc : Text.isBlank c = false) :
    c ∈ Text.trim s :=
  List.mem_reverse.mpr (mem_dropWhile (List.mem_reverse.mpr (mem_dropWhile h hc)) hc)

/-- An expression of one line without a comment is written on the line of its call. -/
theorem added_spliced (hkind : n.kind = .expr) (hline : '\n' ∉ Text.trim n.text)
    (hsign : '#' ∉ Text.trim n.text) (l : Layout) :
    l.added n = .ok ([], [printed l.column
      (writeCall ++ (Text.trim n.text ++ Code.callEnd n.trailing))]) := by
  have hplace := Inline.place_node l ⟨n, hkind, hline, hsign⟩
  rw [added, hplace]
  simp [Except.map, Inline.line, Code.callEnd]

/-- An expression of one line with a comment is written in brackets, on a line of its own. -/
theorem added_bracketed (hkind : n.kind = .expr) (hsign : '#' ∈ n.text) (hline : '\n' ∉ dedented n)
    (hblank : Text.isAllBlank (dedented n) = false) (l : Layout) :
    l.added n = .ok ([], [printed l.column (writeCall ++ ['(']),
      printed l.column (List.replicate indentWidth ' ' ++ dedented n),
      printed l.column (')' :: Code.callEnd n.trailing)]) := by
  obtain ⟨c, hc, hcode⟩ := List.all_eq_false.mp hblank
  have hfilled : lineAt l.column (List.replicate indentWidth ' ' ++ dedented n) =
      printed l.column (List.replicate indentWidth ' ' ++ dedented n) :=
    lineAt_of_not_blank (List.mem_append_right _ hc) (by simpa using hcode)
  have hclosed (s : Text) : lineAt l.column (')' :: s) = printed l.column (')' :: s) :=
    lineAt_of_not_blank List.mem_cons_self rfl
  have hlines : '\n' ∈ Text.trim n.text ∨ '#' ∈ Text.trim n.text := .inr (mem_trim hsign rfl)
  rw [added, place, hkind]
  simp only [placeExpr, if_pos hlines, trimNewlines_of_not_mem hline,
    Text.splitOn_of_not_mem hline, emitAll_eq, emit, List.map_cons, List.map_nil, hfilled,
    lineAt_writeCall, hclosed]
  simp [Except.map, Code.callEnd]

/-- Code on the line of its call is handed on if and only if it is one expression. -/
theorem exists_added_spliced (h : Code.HasValue e w) (hkind : n.kind = .expr)
    (htext : Text.trim n.text = e) (l : Layout) :
    ∃ lines, l.added n = .ok ([], lines) ∧ (Code.IsStatement (bodyIndent + l.column) lines.flatten
      (Code.writing w n.trailing) ↔ Code.IsOne (Code.inner e)) := by
  have hline : '\n' ∉ Text.trim n.text := fun hmem =>
    absurd (h.line _ (htext ▸ hmem)).1 (by decide)
  have hsign : '#' ∉ Text.trim n.text := fun hmem => (h.line _ (htext ▸ hmem)).2 rfl
  refine ⟨_, added_spliced hkind hline hsign l, ?_⟩
  have hstatement := h.isStatement_spliced_iff (bodyIndent + l.column) n.trailing
  simpa [printed, htext] using hstatement

/-- Code with a comment behind it is handed on if and only if the brackets that are put around it
belong together, and it may stand one bracket deeper. -/
theorem exists_added_bracketed (h : Code.HasValue e w) (hkind : n.kind = .expr)
    (hn : Node.Stands page head d n) (hcode : d.code = e ++ (gap ++ '#' :: comment))
    (hgap : ∀ c ∈ gap, Code.isPad c = true) (hcomment : ∀ c ∈ comment, Code.isInLine c = true)
    (hindent : ∀ c ∈ n.indent, Code.isPad c = true) (l : Layout) :
    ∃ lines, l.added n = .ok ([], lines) ∧ (Code.IsStatement (bodyIndent + l.column) lines.flatten
      (Code.writing w n.trailing) ↔
        Code.IsOne (Code.bracketToken '(' :: (Code.inner e ++ [Code.bracketToken ')'])) ∧
          (Code.programTokens (Code.enclosed 1 e)).2 = none) := by
  have hline : '\n' ∉ d.code := by
    rw [hcode]
    intro hmem
    simp only [List.mem_append, List.mem_cons] at hmem
    obtain hmem | hmem | hmem | hmem := hmem
    · exact absurd (h.line _ hmem).1 (by decide)
    · exact absurd (hgap _ hmem) (by decide)
    · exact absurd hmem (by decide)
    · exact absurd (hcomment _ hmem) (by decide)
  have hsign : '#' ∈ d.code := by simp [hcode]
  have hdedented := hn.dedented hline
  have hlines : '\n' ∉ dedented n := by
    rw [hdedented, List.mem_append, not_or]
    exact ⟨hn.newline_not_mem_leftover, hline⟩
  have hblank : Text.isAllBlank (dedented n) = false :=
    List.all_eq_false.mpr ⟨'#', by rw [hdedented]; exact List.mem_append_right _ hsign, by decide⟩
  refine ⟨_, added_bracketed hkind (hn.eq.2.1 ▸ hsign) hlines hblank l, ?_⟩
  -- what is left of the indentation stands before the expression, in the brackets
  have hbefore : ∀ c ∈ List.replicate (bodyIndent + l.column) ' ' ++
      (List.replicate indentWidth ' ' ++ n.leftover), Code.isPad c = true := by
    intro c hc
    simp only [List.mem_append, List.mem_replicate] at hc
    obtain ⟨-, rfl⟩ | ⟨-, rfl⟩ | hc := hc
    · rfl
    · rfl
    · exact hindent c ((List.dropWhile_suffix _).mem hc)
  have hbehind : ∀ c ∈ List.replicate (bodyIndent + l.column) ' ', Code.isPad c = true := by
    intro c hc
    rw [List.eq_of_mem_replicate hc]
    rfl
  have hstatement := h.isStatement_bracketed_iff hbefore hgap hbehind hcomment
    (bodyIndent + l.column) n.trailing
  simpa [printed, hdedented, hcode] using hstatement

/-- **When the calls for an expression hand on the value that it has in brackets**: the call of a
directive whose code is the expression does if and only if it is one expression without brackets;
the call of a directive whose code is the expression and a comment does if and only if it is one in
brackets and may stand one bracket deeper. So both do where it needs no brackets. -/
theorem added_calls_iff (h : Code.HasValue e w) (hn : Node.Stands page head d n)
    (hn' : Node.Stands page' head' d' n') (hkind : d.kind = .expr) (hkind' : d'.kind = .expr)
    (hcode : Text.trim d.code = e) (hcode' : d'.code = e ++ (gap ++ '#' :: comment))
    (hgap : ∀ c ∈ gap, Code.isPad c = true) (hcomment : ∀ c ∈ comment, Code.isInLine c = true)
    (hindent : ∀ c ∈ n'.indent, Code.isPad c = true) (htrailing : d'.trailing = d.trailing)
    (l l' : Layout) :
    let bare := Code.inner e
    let group := Code.bracketToken '(' :: (bare ++ [Code.bracketToken ')'])
    (Code.IsOne bare → Code.IsOne group) ∧
      (∃ lines, l.added n = .ok ([], lines) ∧ (Code.IsStatement (bodyIndent + l.column)
        lines.flatten (Code.writing w d.trailing) ↔ Code.IsOne bare)) ∧
      ∃ lines, l'.added n' = .ok ([], lines) ∧ (Code.IsStatement (bodyIndent + l'.column)
        lines.flatten (Code.writing w d.trailing) ↔
          Code.IsOne group ∧ (Code.programTokens (Code.enclosed 1 e)).2 = none) := by
  refine ⟨fun hone => hone.group rfl rfl, ?_, ?_⟩
  · rw [← hn.trailing_eq]
    exact exists_added_spliced h (hn.eq.1.trans hkind) (hn.eq.2.1 ▸ hcode) l
  · rw [← htrailing, ← hn'.trailing_eq]
    exact exists_added_bracketed h (hn'.eq.1.trans hkind') hn' hcode' hgap hcomment hindent l'

/-- Both calls for a lambda hand it on, from wherever in a page. -/
theorem added_calls_lambda :
    let e := "lambda a: b if a else c".toList
    let name (s : Text) : Code.Tree := .node (.name s) 1 []
    let parameters : Code.Tree := .node (.arguments [['a']]) 1 [.node (.parameter ['a']) 1 []]
    let v : Code.Tree :=
      .node .lambda 1 [parameters, .node .conditional 1 [name ['a'], name ['b'], name ['c']]]
    let d : Directive := ⟨.expr, [' '], e ++ [' '], ['\n']⟩
    let d' : Directive := ⟨.expr, [' '], e ++ ([' '] ++ '#' :: " why ".toList), ['\n']⟩
    let n : Node := ⟨.expr, d.code, ['\n'], "  ".toList, 1⟩
    let n' : Node := ⟨.expr, d'.code, ['\n'], "\t  ".toList, 1⟩
    let l : Layout := { column := 4 }
    Code.HasValue e v ∧
      Node.Stands ("a <?go:expr ".toList ++ d.code ++ "?>\n".toList) "a ".toList d n ∧
      Node.Stands ("\tb <?go:expr ".toList ++ d'.code ++ "?>\n".toList) "\tb ".toList d' n' ∧
      d.kind = .expr ∧ d'.kind = .expr ∧ Text.trim d.code = e ∧
      (∀ c ∈ [' '], Code.isPad c = true) ∧ (∀ c ∈ " why ".toList, Code.isInLine c = true) ∧
      (∀ c ∈ n'.indent, Code.isPad c = true) ∧ d'.trailing = d.trailing ∧
      (∃ lines, added {} n = .ok ([], lines) ∧ Code.IsStatement (bodyIndent + 0)
        lines.flatten (Code.writing v d.trailing)) ∧
      ∃ lines, l.added n' = .ok ([], lines) ∧ Code.IsStatement (bodyIndent + l.column)
        lines.flatten (Code.writing v d.trailing) := by
  intro e name parameters v d d' n n' l
  have h : Code.HasValue e v := ⟨by simp [e, Code.isInLine], by decide +kernel⟩
  have hn : Node.Stands ("a <?go:expr ".toList ++ d.code ++ "?>\n".toList) "a ".toList d n :=
    ⟨[.literal "a ".toList], [], by decide +kernel, by decide +kernel, by decide +kernel⟩
  have hn' : Node.Stands ("\tb <?go:expr ".toList ++ d'.code ++ "?>\n".toList) "\tb ".toList d' n' :=
    ⟨[.literal "\tb ".toList], [], by decide +kernel, by decide +kernel, by decide +kernel⟩
  have hcode : Text.trim d.code = e := by decide +kernel
  have hgap : ∀ c ∈ [' '], Code.isPad c = true := by simp [Code.isPad]
  have hcomment : ∀ c ∈ " why ".toList, Code.isInLine c = true := by simp [Code.isInLine]
  have hindent : ∀ c ∈ n'.indent, Code.isPad c = true := by simp [n', Code.isPad]
  have hcode' : d'.code = e ++ ([' '] ++ '#' :: " why ".toList) := rfl
  have hone : Code.IsOne (Code.inner e) := ⟨Code.Program.bound e, v, by decide +kernel⟩
  have hdeeper : (Code.programTokens (Code.enclosed 1 e)).2 = none := by decide +kernel
  obtain ⟨hgroup, ⟨lines, hlines, hiff⟩, lines', hlines', hiff'⟩ :=
    added_calls_iff h hn hn' rfl rfl hcode hcode' hgap hcomment hindent rfl {} l
  exact ⟨h, hn, hn', rfl, rfl, hcode, hgap, hcomment, hindent, rfl, ⟨lines, hlines, hiff.mpr hone⟩,
    lines', hlines', hiff'.mpr ⟨hgroup hone, hdeeper⟩⟩

/-- Code that is a tuple in brackets is two arguments without them, and one with a comment. -/
theorem added_call_tuple :
    let e := "1, 2".toList
    let pair : Code.Tree := .node .tuple 1 [.node (.constant (.int 1)) 1 [],
      .node (.constant (.int 2)) 1 []]
    let d : Directive := ⟨.expr, [' '], e ++ [' '], []⟩
    let d' : Directive := ⟨.expr, [' '], e ++ " # a pair ".toList, []⟩
    let n : Node := ⟨.expr, d.code, [], [], 1⟩
    let n' : Node := ⟨.expr, d'.code, [], [], 1⟩
    Node.Stands "<?go:expr 1, 2 ?>".toList [] d n ∧
      Node.Stands "<?go:expr 1, 2 # a pair ?>".toList [] d' n' ∧
      (∀ c ∈ e, Code.isInLine c = true ∧ c ≠ '#') ∧
      Code.Program.parse (Code.enclosed 0 e) =
        .ok (.node .module 1 [.node .expression 1 [pair]]) ∧
      ∃ lines lines', added {} n = .ok ([], lines) ∧ added {} n' = .ok ([], lines') ∧
        Code.Program.parse (Text.dedent lines.flatten) = .ok (.node .module 1
          [.node .expression 1 [Code.Expression.memberCall 1 "gosp".toList "fprint".toList
            [Code.Expression.nameTree 1 "gosp_out".toList, .node (.constant (.int 1)) 1 [],
              .node (.constant (.int 2)) 1 [], .node (.constant (.text [])) 1 []]]]) ∧
        Code.Alike (Code.Program.parse (Text.dedent lines'.flatten))
          (.ok (.node .module 1 [Code.writing pair []])) := by
  intro e pair d d' n n'
  have hn : Node.Stands "<?go:expr 1, 2 ?>".toList [] d n :=
    ⟨[], [], by decide +kernel, by decide +kernel, by decide +kernel⟩
  have hn' : Node.Stands "<?go:expr 1, 2 # a pair ?>".toList [] d' n' :=
    ⟨[], [], by decide +kernel, by decide +kernel, by decide +kernel⟩
  refine ⟨hn, hn', by simp [e, Code.isInLine], by decide +kernel, _, _,
    added_spliced rfl (by decide +kernel) (by decide +kernel) {},
    added_bracketed rfl (by decide +kernel) (by decide +kernel) (by decide +kernel) {}, ?_, ?_⟩ <;>
    decide +kernel

end Layout

end ServerPages
