import Mathlib.Data.List.Chain
import ServerPages.Proofs.Page.Tiling

/-!
# Writing nodes and cutting them out again

Nodes are written as a page one after the other: literal text as it stands, a directive with one
space behind its keyword. If no node holds what would open a directive, end its own, or belong to
the node before it (`Node.IsWritable`, `Node.MayFollow`), then the regions of that page are those of
the nodes (`Region.tiles_region`) and nothing is included in it (`Node.absent_flatMap_source`).

The main statement is that cutting such a page into nodes gives back the nodes that were written
(`Page.parse_flatMap_source`).
-/

namespace ServerPages

/-! ### Where a text stands in two -/

section Occurrence

variable {α : Type} {p s t : List α}

/-- A beginning that would go on in the second part stops before it, if the second part begins
with nothing that the beginning goes on with. -/
theorem prefix_of_prefix_append (h : p <+: s ++ t) (hs : s ≠ [])
    (ht : ∀ c ∈ t.head?, c ∉ p.tail) : p <+: s := by
  rcases List.prefix_or_prefix_of_prefix h (List.prefix_append s t) with hp | ⟨b, rfl⟩
  · exact hp
  · -- what follows `s` in it is the beginning of `t`
    have hb : b <+: t := (List.prefix_append_right_inj s).mp h
    cases b with
    | nil => exact (List.append_nil s).symm ▸ List.prefix_rfl
    | cons c b =>
      obtain ⟨u, rfl⟩ := hb
      obtain ⟨x, s, rfl⟩ := List.exists_cons_of_ne_nil hs
      exact absurd (List.mem_append_right s List.mem_cons_self) (ht c rfl)

/-- What stands in two parts stands in one of them, if the second part begins with nothing that it
goes on with. -/
theorem infix_or_infix_of_head? (h : p <:+: s ++ t) (ht : ∀ c ∈ t.head?, c ∉ p.tail) :
    p <:+: s ∨ p <:+: t := by
  obtain ⟨u, hp, hu⟩ := List.infix_iff_prefix_suffix.mp h
  rcases List.suffix_or_suffix_of_suffix hu (List.suffix_append s t) with hut | ⟨b, rfl⟩
  · exact .inr (hp.isInfix.trans hut.isInfix)
  · obtain ⟨a, ha⟩ := hu
    have hs : a ++ b = s := List.append_cancel_right ((List.append_assoc ..).trans ha)
    by_cases hb : b = []
    · rw [hb, List.nil_append] at hp
      exact .inr hp.isInfix
    · exact .inl ((prefix_of_prefix_append hp hb ht).isInfix.trans (hs ▸ List.infix_append_right))

/-- What stands in two parts stands in one of them, if the first part ends with nothing of it. -/
theorem infix_or_infix_of_getLast? (h : p <:+: s ++ t) (hs : ∀ c ∈ s.getLast?, c ∉ p) :
    p <:+: s ∨ p <:+: t := by
  rw [← List.reverse_infix, List.reverse_append] at h
  have hhead : ∀ c ∈ s.reverse.head?, c ∉ p.reverse.tail := by
    intro c hc hmem
    exact hs c (List.head?_reverse ▸ hc) (List.mem_reverse.mp (List.mem_of_mem_tail hmem))
  exact (infix_or_infix_of_head? h hhead).symm.imp List.reverse_infix.mp List.reverse_infix.mp

end Occurrence

/-- What can be seen of a region: its kind, its text, and the white space behind it. -/
def Region.parts : Region → Kind × Text × Text
  | .literal s => (.text, s, [])
  | .directive d => (d.kind, d.code, d.trailing)

namespace Node

open Directive

/-! ### Nodes as they are written -/

/-- The region that a node is written as. -/
def region (n : Node) : Region :=
  if n.kind = .text then .literal n.text else .directive ⟨n.kind, [' '], n.text, n.trailing⟩

/-- A node as it is written in a page. -/
def source (n : Node) : Text := n.region.source

/-- What can be seen of a node. -/
def parts (n : Node) : Kind × Text × Text := (n.kind, n.text, n.trailing)

/-- A node that can be found again where it is written. -/
structure IsWritable (n : Node) : Prop where
  /-- Inclusions are gone before a page is cut into nodes. -/
  kind_mem : n.kind = .text ∨ n.kind ∈ codeKinds
  /-- Neither text nor code opens a directive. -/
  free : ¬ opening <:+: n.text
  literal : n.kind = .text → n.text ≠ [] ∧ n.trailing = []
  /-- Code does not end before it is over, and begins behind the white space. -/
  code : n.kind ≠ .text →
    ¬ terminator <:+: n.text ∧ ∀ c ∈ n.text.head?, Text.isBlank c = false
  trailing : ∃ blanks : Text, (∀ c ∈ blanks, c = ' ' ∨ c = '\t') ∧
    (n.trailing = blanks ∨ n.trailing = blanks ++ ['\n'])

/-- Literal text stands behind a directive, and begins with nothing that the directive would
take. -/
def MayFollow (before n : Node) : Prop :=
  n.kind = .text → before.kind ≠ .text ∧
    ('\n' ∉ before.trailing → ∀ c ∈ n.text.head?, c ≠ ' ' ∧ c ≠ '\t' ∧ c ≠ '\n')

variable {n : Node} {nodes : List Node}

private theorem source_of_text (h : n.kind = .text) : n.source = n.text := by
  rw [source, region, if_pos h]
  rfl

private theorem source_of_directive (h : n.kind ≠ .text) :
    n.source = opening ++ n.kind.word ++ [' '] ++ n.text ++ terminator ++ n.trailing := by
  rw [source, region, if_neg h]
  rfl

/-- What is written behind a node begins with an angle bracket, unless it is literal text. -/
theorem head?_flatMap_source (h : ∀ m ∈ nodes.head?, m.kind ≠ .text) :
    ∀ c ∈ (nodes.flatMap source).head?, c = '<' := by
  intro c hc
  cases nodes with
  | nil => cases hc
  | cons m nodes =>
    rw [List.flatMap_cons, source_of_directive (h m rfl)] at hc
    exact (Option.some.inj hc).symm

/-- What stands behind the code of a directive and its question mark. -/
theorem IsWritable.mem_behind (h : n.IsWritable) :
    ∀ c ∈ '>' :: n.trailing, c ∈ ['>', ' ', '\t', '\n'] := by
  obtain ⟨blanks, hblanks, htrailing⟩ := h.trailing
  have hblank : ∀ c ∈ blanks, c ∈ ['>', ' ', '\t', '\n'] := by
    intro c hc
    rcases hblanks c hc with rfl | rfl <;> decide
  refine List.forall_mem_cons.mpr ⟨by decide, ?_⟩
  rcases htrailing with htrailing | htrailing
  · rw [htrailing]
    exact hblank
  · rw [htrailing, List.forall_mem_append]
    exact ⟨hblank, by simp⟩

theorem IsWritable.takesAll {rest : Text} (h : n.IsWritable)
    (hrest : '\n' ∉ n.trailing → ∀ c ∈ rest.head?, c ≠ ' ' ∧ c ≠ '\t' ∧ c ≠ '\n') :
    TakesAll n.trailing rest := by
  obtain ⟨blanks, hblanks, htrailing⟩ := h.trailing
  refine ⟨blanks, hblanks, htrailing.symm.imp_right fun htrailing => ⟨htrailing, hrest ?_⟩⟩
  intro hmem
  rcases hblanks _ (htrailing ▸ hmem) with heq | heq <;> cases heq

/-- A directive without a newline behind it takes nothing of what follows. -/
theorem head?_behind (h : ∀ m ∈ nodes, m.IsWritable) (hnext : ∀ m ∈ nodes.head?, n.MayFollow m)
    (hnewline : '\n' ∉ n.trailing) :
    ∀ c ∈ (nodes.flatMap source).head?, c ≠ ' ' ∧ c ≠ '\t' ∧ c ≠ '\n' := by
  intro c hc
  cases nodes with
  | nil => cases hc
  | cons m nodes =>
    by_cases hkind : m.kind = .text
    · obtain ⟨x, t, htext⟩ := List.exists_cons_of_ne_nil
        ((h m List.mem_cons_self).literal hkind).1
      have hhead := (hnext m rfl hkind).2 hnewline
      rw [htext] at hhead
      rw [List.flatMap_cons, source_of_text hkind, htext] at hc
      exact hhead c hc
    · rw [List.flatMap_cons, source_of_directive hkind] at hc
      obtain rfl : '<' = c := Option.some.inj hc
      decide

/-- The nodes of regions have the parts of the regions. -/
theorem map_parts_ofRegions (rs : List Region) (line : Nat) (head : Text) :
    (ofRegions line head rs).map parts = rs.map Region.parts := by
  induction rs generalizing line head with
  | nil => rfl
  | cons r rs ih =>
    cases r with
    | literal s | directive d => exact congrArg (_ :: ·) (ih _ _)

private theorem IsWritable.parts_region (h : n.IsWritable) : n.region.parts = n.parts := by
  rw [region]
  split
  · next hkind => rw [parts, hkind, (h.literal hkind).2]; rfl
  · rfl

/-! ### Nothing is included -/

private theorem not_infix_keyword {k : Kind} (h : k ∈ codeKinds) :
    ¬ Inclusion.opening <:+: opening ++ k.word ++ [' '] := by
  simp only [codeKinds, List.mem_cons, List.not_mem_nil, or_false] at h
  rcases h with rfl | rfl | rfl <;> decide

/-- Nothing is included in a node, and none that begins in it goes on behind it. -/
theorem IsWritable.not_infix_source {rest : Text} (h : n.IsWritable)
    (hrest : n.kind = .text → ∀ c ∈ rest.head?, c = '<')
    (hfree : ¬ Inclusion.opening <:+: rest) : ¬ Inclusion.opening <:+: n.source ++ rest := by
  intro hinside
  have htext : ¬ Inclusion.opening <:+: n.text := fun htext =>
    h.free ((List.prefix_append ..).isInfix.trans htext)
  by_cases hkind : n.kind = .text
  · rw [source_of_text hkind] at hinside
    have hhead : ∀ c ∈ rest.head?, c ∉ Inclusion.opening.tail := by
      intro c hc
      rw [hrest hkind c hc]
      decide
    exact (infix_or_infix_of_head? hinside hhead).elim htext hfree
  · have hsource : n.source ++ rest = opening ++ n.kind.word ++ [' '] ++
        (n.text ++ ['?'] ++ ('>' :: n.trailing ++ rest)) := by
      rw [source_of_directive hkind]
      simp [terminator]
    rw [hsource] at hinside
    -- it would have to stand before the code, in it, or in what is taken behind the directive
    rcases infix_or_infix_of_getLast? hinside (by simp; decide) with hkeyword | hinside
    · exact not_infix_keyword (h.kind_mem.resolve_left hkind) hkeyword
    rcases infix_or_infix_of_head? hinside (by simp; decide) with hcode | hinside
    · rcases List.infix_concat_iff.mp hcode with hlast | hcode
      · exact absurd (hlast.getLast (by decide)) (by simp; decide)
      · exact htext hcode
    have hlast : ∀ c ∈ ('>' :: n.trailing).getLast?, c ∉ Inclusion.opening := fun c hc =>
      have hfirst : ∀ x ∈ ['>', ' ', '\t', '\n'], x ∉ Inclusion.opening := by
        simp only [List.forall_mem_cons]
        exact ⟨by decide, by decide, by decide, by decide, List.forall_mem_nil _⟩
      hfirst c (h.mem_behind c (List.mem_of_mem_getLast? hc))
    rcases infix_or_infix_of_getLast? hinside hlast with htrailing | hrest
    · exact absurd (h.mem_behind '<' (htrailing.subset (by decide))) (by decide)
    · exact hfree hrest

theorem absent_flatMap_source (h : ∀ n ∈ nodes, n.IsWritable) (hchain : nodes.IsChain MayFollow) :
    Inclusion.Absent (nodes.flatMap source) := by
  refine Inclusion.absent_of_not_infix ?_
  induction nodes with
  | nil => decide
  | cons n nodes ih =>
    obtain ⟨hnext, hchain⟩ := List.isChain_cons.mp hchain
    rw [List.forall_mem_cons] at h
    rw [List.flatMap_cons]
    exact h.1.not_infix_source
      (fun hkind => head?_flatMap_source fun m hm htext => (hnext m hm htext).1 hkind)
      (ih h.2 hchain)

end Node

namespace Region

open Directive

/-! ### The regions of the page -/

/-- Literal text that opens no directive begins none, not even with what stands behind it. -/
theorem not_begins_append {behind rest : Text} (hne : behind ≠ [])
    (hfree : ¬ opening <:+: behind) (hrest : ∀ c ∈ rest.head?, c = '<') :
    ¬ Begins (behind ++ rest) := by
  rintro ⟨kind, -, spacing, code, after, -, -, hbegins⟩
  have hopening : opening <+: behind ++ rest := by
    rw [hbegins]
    simp only [List.append_assoc]
    exact List.prefix_append ..
  have hhead : ∀ c ∈ rest.head?, c ∉ opening.tail := by
    intro c hc
    rw [hrest c hc]
    decide
  exact hfree (prefix_of_prefix_append hopening hne hhead).isInfix

/-- **The nodes that are written tile the page** as the regions they are written as. -/
theorem tiles_region {nodes : List Node} (h : ∀ n ∈ nodes, n.IsWritable)
    (hchain : nodes.IsChain Node.MayFollow) :
    Tiles (nodes.map Node.region) (nodes.flatMap Node.source) := by
  induction nodes with
  | nil => exact .nil
  | cons n nodes ih =>
    obtain ⟨hnext, hchain⟩ := List.isChain_cons.mp hchain
    rw [List.forall_mem_cons] at h
    obtain ⟨hn, h⟩ := h
    have htiles := ih h hchain
    rw [List.map_cons, List.flatMap_cons, Node.source, Node.region]
    by_cases hkind : n.kind = .text
    · -- what follows is a directive, so that literal text neither goes on nor opens one with it
      have hdirective : ∀ m ∈ nodes.head?, m.kind ≠ .text := fun m hm htext =>
        (hnext m hm htext).1 hkind
      rw [if_pos hkind]
      refine .literal (hn.literal hkind).1 (fun before behind hsplit hne => ?_) ?_ htiles
      · refine not_begins_append hne (fun hi => hn.free ?_) (Node.head?_flatMap_source hdirective)
        exact hi.trans (hsplit ▸ List.infix_append_right)
      · intro t ts htext
        cases nodes with
        | nil => cases htext
        | cons m nodes =>
          rw [List.map_cons, Node.region, if_neg (hdirective m rfl)] at htext
          cases htext
    · obtain ⟨hcode, hhead⟩ := hn.code hkind
      rw [if_neg hkind]
      exact .directive ⟨hn.kind_mem.resolve_left hkind, by simp, by simp; decide, hcode, hhead⟩
        (hn.takesAll (Node.head?_behind h hnext)) htiles

end Region

namespace Page

variable {e : Inclusion.Setting} {st : Inclusion.State} {nodes : List Node}

/-- **Cutting a page into nodes undoes writing them.** -/
theorem parse_flatMap_source (hstart : Inclusion.start e = .ok st)
    (h : ∀ n ∈ nodes, n.IsWritable) (hchain : nodes.IsChain Node.MayFollow) :
    ∃ parsed, (parse e (nodes.flatMap Node.source)).1 = .ok parsed ∧
      parsed.map Node.parts = nodes.map Node.parts := by
  have htext : (Inclusion.expand e (nodes.flatMap Node.source) st).1 =
      .ok (nodes.flatMap Node.source) := by
    rw [Inclusion.expand_of_absent (Node.absent_flatMap_source h hchain)]
  refine ⟨_, parse_of_expand hstart htext, ?_⟩
  rw [Node.ofText, Region.scan_eq_iff.mpr (Region.tiles_region h hchain),
    Node.map_parts_ofRegions, List.map_map]
  exact List.map_congr_left fun n hn => (h n hn).parts_region

/-- Literal text that ends within an opening, a directive whose code ends with a question mark, and
behind its newline text that begins with a blank. -/
theorem parse_flatMap_source_marks :
    let nodes : List Node := [{ kind := .text, text := ['<', '?', 'g', 'o'] },
      { kind := .expr, text := ['b', '?'], trailing := ['\t', '\n'] },
      { kind := .text, text := [' ', '?', '>'] }, { kind := .top, text := [] },
      { kind := .block, text := ['<'] }]
    let e : Inclusion.Setting := { tree := ⟨[]⟩, cwd := [], policy := { includeDir := ['/'] } }
    Inclusion.start e = .ok ⟨[['/']], []⟩ ∧ (∀ n ∈ nodes, n.IsWritable) ∧
      nodes.IsChain Node.MayFollow ∧
      ∃ parsed, (parse e (nodes.flatMap Node.source)).1 = .ok parsed ∧
        parsed.map Node.parts = nodes.map Node.parts := by
  intro nodes e
  have hstart : Inclusion.start e = .ok ⟨[['/']], []⟩ := by cbv
  have hnone : ∃ blanks : Text, (∀ c ∈ blanks, c = ' ' ∨ c = '\t') ∧
      (([] : Text) = blanks ∨ ([] : Text) = blanks ++ ['\n']) := ⟨[], by simp, .inl rfl⟩
  have hhead : ∀ (c : Char) (s : Text), Text.isBlank c = false →
      ∀ d ∈ (c :: s).head?, Text.isBlank d = false :=
    fun c s hc d hd => Option.some.inj hd ▸ hc
  have hwritable : ∀ n ∈ nodes, n.IsWritable := by
    simp only [nodes, List.forall_mem_cons]
    exact ⟨⟨by decide, by decide, by decide, fun h => absurd rfl h, hnone⟩,
      ⟨by decide, by decide, fun h => absurd h (by decide),
        fun _ => ⟨by decide, hhead 'b' ['?'] rfl⟩, ['\t'], by simp, .inr rfl⟩,
      ⟨by decide, by decide, by decide, fun h => absurd rfl h, hnone⟩,
      ⟨by decide, by decide, fun h => absurd h (by decide), fun _ => ⟨by decide, by simp⟩, hnone⟩,
      ⟨by decide, by decide, fun h => absurd h (by decide),
        fun _ => ⟨by decide, hhead '<' [] rfl⟩, hnone⟩, List.forall_mem_nil _⟩
  have hchain : nodes.IsChain Node.MayFollow := by
    simp only [nodes, List.isChain_cons_cons, List.IsChain.singleton, and_true]
    exact ⟨fun h => absurd h (by decide),
      fun _ => ⟨by decide, fun hnone => absurd (by decide) hnone⟩,
      fun h => absurd h (by decide), fun h => absurd h (by decide)⟩
  exact ⟨hstart, hwritable, hchain, parse_flatMap_source hstart hwritable hchain⟩

end Page

end ServerPages
