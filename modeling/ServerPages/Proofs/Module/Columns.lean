import ServerPages.Proofs.Code.Quoted
import ServerPages.Proofs.Module.Closing

/-!
# The columns of the open suites

A layout keeps the columns at which the open suites were opened. Whatever nodes it holds, each suite
was opened right of the one around it, the outermost one in the first column, and what follows
stands right of them all (`IsOrdered`): blocks that open suites and blocks that close them keep this
order, wherever code ends and however little of it can be read (`IsOrdered.placeBlock`). Every entry
of the body is one line, which is empty or begins with the spaces of the body (`IsBodyLine`).

The main statement says this of a layout behind each of its nodes, and that a block that closes a
suite where none is open does no harm (`ofNodes_ordered`).
-/

namespace ServerPages

namespace Layout

/-- The suites of a layout are open one inside the other. -/
structure IsOrdered (l : Layout) : Prop where
  /-- From the bottom of the open suites to the top, the columns grow. -/
  increasing : l.suites.reverse.Pairwise (· < ·)
  bottom : ∀ column ∈ l.suites.getLast?, column = 0
  top : ∀ column ∈ l.suites.head?, column < l.column
  column_of_nil : l.suites = [] → l.column = 0

/-- An entry of a body: one line, which is empty or begins with the spaces of the body. -/
def IsBodyLine (entry : Text) : Prop :=
  ∃ line, entry = line ++ ['\n'] ∧ '\n' ∉ line ∧
    (line = [] ∨ List.replicate bodyIndent ' ' <+: line)

variable {l l' : Layout} {n : Node} {nodes : List Node} {line : Text} {lines : List Text}

/-! ### Opening and closing suites -/

/-- The column of the layout on top of the open suites goes down to the first column. -/
theorem isOrdered_iff : l.IsOrdered ↔
    (l.column :: l.suites).Pairwise (· > ·) ∧ (l.column :: l.suites).getLast? = some 0 := by
  constructor
  · rintro ⟨increasing, bottom, top, column_of_nil⟩
    rw [List.pairwise_reverse] at increasing
    cases hsuites : l.suites with
    | nil => simp [column_of_nil hsuites]
    | cons column outer =>
      rw [hsuites] at increasing bottom top
      have hlast := List.getLast?_eq_some_getLast (List.cons_ne_nil column outer)
      refine ⟨List.pairwise_cons.mpr ⟨fun c hc => ?_, increasing⟩, ?_⟩
      · have htop : column < l.column := top column rfl
        obtain rfl | hc := List.mem_cons.mp hc
        · exact htop
        · exact (List.rel_of_pairwise_cons increasing hc).trans htop
      · rw [List.getLast?_cons_cons, hlast, bottom _ hlast]
  · rintro ⟨hdescending, hlast⟩
    have hinner := List.pairwise_cons.mp hdescending
    refine ⟨List.pairwise_reverse.mpr hinner.2, fun column hcolumn => ?_,
      fun column hcolumn => hinner.1 column (List.mem_of_mem_head? hcolumn), fun hnil => ?_⟩
    · rw [List.getLast?_cons, show l.suites.getLast? = some column from hcolumn] at hlast
      exact Option.some.inj hlast
    · rw [hnil] at hlast
      exact Option.some.inj hlast

theorem IsOrdered.congr (h : l.IsOrdered) (hcolumn : l'.column = l.column)
    (hsuites : l'.suites = l.suites) : l'.IsOrdered := by
  rw [isOrdered_iff, hcolumn, hsuites]
  exact isOrdered_iff.mp h

/-- Closing a suite keeps the order: what follows stands where the suite was opened. -/
theorem IsOrdered.closeSuite (h : l.IsOrdered) : l.closeSuite.IsOrdered := by
  cases hsuites : l.suites with
  | nil => rwa [Layout.closeSuite, hsuites]
  | cons column outer =>
    rw [isOrdered_iff, hsuites, List.getLast?_cons_cons] at h
    rw [closeSuite_cons l hsuites, isOrdered_iff]
    exact ⟨h.1.of_cons, h.2⟩

/-- Opening a suite keeps the order: what follows stands further right. -/
theorem IsOrdered.opened (h : l.IsOrdered) (hlt : l.column < l'.column)
    (hsuites : l'.suites = l.column :: l.suites) : l'.IsOrdered := by
  rw [isOrdered_iff] at h ⊢
  rw [hsuites, List.getLast?_cons_cons]
  refine ⟨List.pairwise_cons.mpr ⟨fun column hcolumn => ?_, h.1⟩, h.2⟩
  obtain rfl | hcolumn := List.mem_cons.mp hcolumn
  · exact hlt
  · exact (List.rel_of_pairwise_cons h.1 hcolumn).trans hlt

theorem IsOrdered.before (h : l.IsOrdered) (n : Node) : (l.before n).IsOrdered := by
  rw [Layout.before]
  split
  · exact h.closeSuite
  · exact h

/-- A block keeps the order, whatever its code is. -/
theorem IsOrdered.placeBlock (h : l.IsOrdered) (hne : blockLines n ≠ []) :
    (l.placeBlock n).IsOrdered := by
  obtain ⟨hle, hsuites⟩ := placeBlock_suites (l := l) hne
  have hbefore := h.before n
  by_cases hlt : l.blockColumn n < (l.placeBlock n).column
  · rw [if_pos hlt] at hsuites
    exact hbefore.opened hlt hsuites
  · rw [if_neg hlt] at hsuites
    exact hbefore.congr (le_antisymm (not_lt.mp hlt) hle) hsuites

/-- **One node** keeps the order. -/
theorem IsOrdered.place (h : l.IsOrdered) (hl : l.place n = .ok l') : l'.IsOrdered := by
  cases hn : isPlaced n with
  | true =>
    obtain ⟨hkind, hne⟩ := isPlaced_iff.mp hn
    rw [Layout.place, hkind] at hl
    obtain rfl := Except.ok.inj hl
    exact h.placeBlock hne
  | false =>
    obtain ⟨hcolumn, hsuites⟩ := place_of_not_isPlaced hl hn
    exact h.congr hcolumn hsuites

/-! ### Lines of the body -/

private theorem isBodyLine_lineAt (column : Nat) (h : '\n' ∉ line) : IsBodyLine (lineAt column line) := by
  rw [lineAt]
  split
  · exact ⟨[], rfl, by simp, .inl rfl⟩
  · refine ⟨List.replicate (bodyIndent + column) ' ' ++ line, rfl, ?_, .inr ?_⟩
    · rw [List.mem_append, not_or]
      exact ⟨fun hmem => absurd (List.eq_of_mem_replicate hmem) (by decide), h⟩
    · rw [List.replicate_add, List.append_assoc]
      exact List.prefix_append ..

theorem newline_not_mem_encode (s : Text) : '\n' ∉ Quoted.encode s := by
  have hmark : Quoted.mark s ≠ '\n' := by
    obtain h | h := Code.mark_eq s <;> rw [h] <;> decide
  have hinside : '\n' ∉ s.flatMap (Quoted.encodeChar (Quoted.mark s)) := fun hmem =>
    Code.ne_newline_of_isInLine ((Code.Spells.encode (Code.mark_eq s) s).inLine _ hmem) rfl
  simp [Quoted.encode, Ne.symm hmark, hinside]

private theorem newline_not_mem_blockLines (h : line ∈ blockLines n) : '\n' ∉ line := by
  have hkept := (List.dropWhile_suffix _).mem (List.mem_reverse.mp h)
  exact Text.not_mem_of_mem_splitOn ((List.dropWhile_suffix _).mem (List.mem_reverse.mp hkept))

/-- A layout becomes another by lines that are added to its body. -/
def Grows (l l' : Layout) : Prop :=
  ∃ added, l'.body = l.body ++ added ∧ ∀ entry ∈ added, IsBodyLine entry

private theorem Grows.of_body_eq (h : l'.body = l.body) : l.Grows l' :=
  ⟨[], by rw [h, List.append_nil], List.forall_mem_nil _⟩

theorem Grows.trans {l'' : Layout} (h : l.Grows l') (h' : l'.Grows l'') : l.Grows l'' := by
  obtain ⟨added, hbody, hadded⟩ := h
  obtain ⟨more, hbody', hmore⟩ := h'
  exact ⟨added ++ more, by rw [hbody', hbody, List.append_assoc],
    List.forall_mem_append.mpr ⟨hadded, hmore⟩⟩

private theorem grows_emitAll (l : Layout) (h : ∀ line ∈ lines, '\n' ∉ line) :
    l.Grows (l.emitAll lines) := by
  rw [emitAll_eq]
  exact ⟨_, rfl, List.forall_mem_map.mpr fun line hline => isBodyLine_lineAt _ (h line hline)⟩

private theorem grows_emit (l : Layout) (h : '\n' ∉ line) : l.Grows (l.emit line) := by
  show l.Grows (l.emitAll [line])
  exact grows_emitAll l (List.forall_mem_singleton.mpr h)

private theorem grows_placeText (l : Layout) (s : Text) : l.Grows (l.placeText s) := by
  rw [placeText]
  split
  · exact .of_body_eq rfl
  · refine grows_emit l ?_
    simp [newline_not_mem_encode, show '\n' ∉ writeCall by decide]

private theorem grows_placeExpr (l : Layout) (n : Node) : l.Grows (l.placeExpr n) := by
  have hcall : '\n' ∉ writeCall := by decide
  have hclosing : '\n' ∉ ", ".toList ++ Quoted.encode n.trailing ++ [')'] := by
    simp [newline_not_mem_encode]
  rw [placeExpr]
  dsimp only
  split
  · refine ((grows_emit l ?_).trans (grows_emitAll _ ?_)).trans (grows_emit _ ?_)
    · simp [hcall]
    · refine List.forall_mem_map.mpr fun line hline => ?_
      simp [Text.not_mem_of_mem_splitOn hline]
    · simpa using hclosing
  · next hone =>
    refine grows_emit l ?_
    rw [List.mem_append, List.mem_append, not_or, not_or]
    exact ⟨⟨hcall, fun h => hone (.inl h)⟩, hclosing⟩

private theorem grows_placeBlock (l : Layout) (n : Node) : l.Grows (l.placeBlock n) := by
  obtain ⟨pass, hpass, hbody⟩ := placeBlock_body l n
  refine ⟨_, hbody.trans (List.append_assoc ..), List.forall_mem_append.mpr ⟨?_, ?_⟩⟩
  · exact List.forall_mem_map.mpr fun line hline =>
      isBodyLine_lineAt _ (newline_not_mem_blockLines hline)
  · obtain rfl | rfl := hpass
    · exact List.forall_mem_nil _
    · exact List.forall_mem_singleton.mpr (isBodyLine_lineAt _ (by decide))

/-- **One node** adds lines to the body. -/
theorem grows_place (hl : l.place n = .ok l') : l.Grows l' := by
  rw [place] at hl
  split at hl
  · exact Except.ok.inj hl ▸ grows_placeText l n.text
  · exact .of_body_eq (by rw [← Except.ok.inj hl])
  · exact Except.ok.inj hl ▸ grows_placeBlock l n
  · exact Except.ok.inj hl ▸ grows_placeExpr l n
  · cases hl

/-! ### Whole pages -/

/-- Only a node that names a file cannot be placed. -/
theorem exists_place_of_ne_incl (l : Layout) (h : n.kind ≠ .incl) : ∃ l', l.place n = .ok l' := by
  rw [place]
  cases hkind : n.kind with
  | incl => exact absurd hkind h
  | _ => exact ⟨_, rfl⟩

/-- **All nodes.** They are laid out, the suites are open in order, and lines are added. -/
theorem IsOrdered.foldlM_place (hl : l.IsOrdered) (h : ∀ n ∈ nodes, n.kind ≠ .incl) :
    ∃ l', nodes.foldlM Layout.place l = .ok l' ∧ l'.IsOrdered ∧ l.Grows l' := by
  induction nodes generalizing l with
  | nil => exact ⟨l, rfl, hl, .of_body_eq rfl⟩
  | cons n nodes ih =>
    rw [List.forall_mem_cons] at h
    obtain ⟨next, hnext⟩ := exists_place_of_ne_incl l h.1
    obtain ⟨l', hl', hordered, hgrows⟩ := ih (hl.place hnext) h.2
    exact ⟨l', (foldlM_place_cons hnext).trans hl', hordered, (grows_place hnext).trans hgrows⟩

private theorem before_of_suites_eq_nil (hsuites : l.suites = []) (n : Node) : l.before n = l := by
  rw [before, closeSuite, hsuites]
  split <;> rfl

/-- Where no suite is open a block closes none: its lines are added in the first column, and behind
a comment all else is as before. -/
theorem place_of_suites_eq_nil (hcolumn : l.column = 0) (hsuites : l.suites = [])
    (hkind : n.kind = .block) (hne : blockLines n ≠ []) : ∃ l' pass, place l n = .ok l' ∧
      l'.body = l.body ++ (blockLines n).map (lineAt 0) ++ pass ∧
      (pass = [] ∨ pass = [lineAt l'.column "pass".toList]) ∧ l'.column = width n ∧
      l'.suites = (if 0 < width n then [0] else []) ∧
      (isComment n = true → l' = { l with body := l.body ++ (blockLines n).map (lineAt 0) }) := by
  have hblock : l.blockColumn n = 0 := by
    rw [blockColumn, before_of_suites_eq_nil hsuites, hcolumn]
  have hplace : place l n = .ok (l.placeBlock n) := by rw [place, hkind]
  obtain ⟨pass, hpass, hbody⟩ := placeBlock_body l n
  have hwidth := placeBlock_column l hne
  have hopen := (placeBlock_suites (l := l) hne).2
  rw [hblock] at hbody hwidth hopen
  rw [Nat.zero_add] at hwidth
  rw [hwidth, before_of_suites_eq_nil hsuites, hsuites] at hopen
  refine ⟨_, pass, hplace, hbody, hpass, hwidth, hopen, fun hcomment => ?_⟩
  have hclosed : l.closeSuite = l := by rw [closeSuite, hsuites]
  rw [(placeBlock_of_isComment hcomment).2, hclosed, emitAll_eq, hcolumn]

/-- **The suites of a layout are open in order**, behind each of its nodes, whatever the nodes hold,
and each entry of the body is one line that is empty or begins with the spaces of the body. So a
block that closes a suite does no harm where none is open: it is placed in the first column like any
other, and behind a comment all else is as before. -/
theorem ofNodes_ordered (h : ∀ n ∈ nodes, n.kind ≠ .incl) {done : List Node}
    (hdone : done <+: nodes) :
    ∃ l, ofNodes done = .ok l ∧ l.IsOrdered ∧ (∀ entry ∈ l.body, IsBodyLine entry) ∧
      (l.suites = [] → ∀ n : Node, n.kind = .block → blockLines n ≠ [] →
        ∃ l' pass, place l n = .ok l' ∧
          l'.body = l.body ++ (blockLines n).map (lineAt 0) ++ pass ∧
          (pass = [] ∨ pass = [lineAt l'.column "pass".toList]) ∧ l'.column = width n ∧
          l'.suites = (if 0 < width n then [0] else []) ∧
          (isComment n = true →
            l' = { l with body := l.body ++ (blockLines n).map (lineAt 0) })) := by
  have hempty : IsOrdered {} := isOrdered_iff.mpr ⟨List.pairwise_singleton _ _, rfl⟩
  obtain ⟨l, hl, hordered, added, hbody, hadded⟩ :=
    hempty.foldlM_place fun n hn => h n (hdone.subset hn)
  refine ⟨l, hl, hordered, fun entry hentry => hadded entry ?_, fun hsuites n hkind hne => ?_⟩
  · rwa [hbody, List.nil_append] at hentry
  · exact place_of_suites_eq_nil (hordered.column_of_nil hsuites) hsuites hkind hne

/-- Headers one inside the other, code that ends within brackets, and more comments than suites. -/
theorem ofNodes_ordered_comments :
    let block (s : String) : Node := { kind := .block, text := s.toList }
    let done := [block "for r in x:\n  if r:", block "else:", block "((\n   y", block "# end",
      block "# end", block "# end"]
    let nodes := done ++ [block "# end"]
    (∀ n ∈ nodes, n.kind ≠ .incl) ∧ done <+: nodes ∧ ∃ l, ofNodes done = .ok l ∧ l.IsOrdered ∧
      (∀ entry ∈ l.body, IsBodyLine entry) ∧ l.suites = [] ∧ l.column = 0 := by
  intro block done nodes
  have hkinds : ∀ n ∈ nodes, n.kind ≠ .incl := by decide
  have hdone : done <+: nodes := List.prefix_append ..
  obtain ⟨l, hl, hordered, hbody, -⟩ := ofNodes_ordered hkinds hdone
  have hsuites : (ofNodes done).map Layout.suites = .ok [] := by decide +kernel
  rw [hl] at hsuites
  have hnil : l.suites = [] := Except.ok.inj hsuites
  exact ⟨hkinds, hdone, l, hl, hordered, hbody, hnil, hordered.column_of_nil hnil⟩

end Layout

end ServerPages
