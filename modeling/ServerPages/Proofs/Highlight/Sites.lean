import ServerPages.Proofs.Highlight.Lossless
import ServerPages.Proofs.Page.Printing

/-!
# The directives that are highlighted

A page is cut twice: into tokens for display, and into nodes for the module that it becomes. Both
show where the directives of the page stand, which keyword each has and what its code is: a
directive is displayed as a group of tokens, from the mark that opens it to the mark that ends it
(`Highlight.groups`), and becomes a node that is no literal text (`Node.sites`). The tokens are
found from one angle bracket to the next, the nodes character by character, and only these take the
blanks behind a directive with it; no directive begins in such blanks.

The main statement is that in a page that includes nothing both are the same
(`Highlight.groups_eq_sites`).
-/

namespace ServerPages

/-- Where a directive stands in a page, its keyword and its code. -/
structure Site where
  offset : Nat
  keyword : Text := []
  code : Text := []
  deriving DecidableEq, Repr

/-- The sites of nodes, the first of which begins at some offset. Each node is given with the region
of the page that it shows. -/
def Node.sites (offset : Nat) : List (Node × Region) → List Site
  | [] => []
  | (n, r) :: rest =>
    let behind := sites (offset + r.source.length) rest
    if n.kind = .text then behind else ⟨offset, n.kind.word, n.text⟩ :: behind

/-! ### White space at the ends of a page -/

namespace Text

variable {w s : Text}

private theorem prefix_of_prefix_unifyNewlines (hr : '\r' ∉ w) (hn : '\n' ∉ w)
    (h : w <+: unifyNewlines s) : w <+: s := by
  fun_induction unifyNewlines s generalizing w with
  | case1 => exact h
  | case2 s ih =>
    cases w with
    | nil => exact List.nil_prefix
    | cons c w =>
      obtain rfl := (List.cons_prefix_cons.mp h).1
      exact absurd List.mem_cons_self hn
  | case3 c s _ ih =>
    cases w with
    | nil => exact List.nil_prefix
    | cons d w =>
      obtain ⟨hd, h⟩ := List.cons_prefix_cons.mp h
      split at hd
      · exact absurd (hd ▸ List.mem_cons_self) hn
      · exact List.cons_prefix_cons.mpr
          ⟨hd, ih (List.not_mem_of_not_mem_cons hr) (List.not_mem_of_not_mem_cons hn) h⟩

/-- What holds no line end stands in a text if it stands there once line ends are uniform. -/
theorem infix_of_infix_unifyNewlines (hr : '\r' ∉ w) (hn : '\n' ∉ w)
    (h : w <:+: unifyNewlines s) : w <:+: s := by
  fun_induction unifyNewlines s with
  | case1 => exact h
  | case2 s ih =>
    rcases List.infix_cons_iff.mp h with h | h
    · exact (prefix_of_prefix_unifyNewlines (s := '\r' :: '\n' :: s) hr hn h).isInfix
    · exact List.infix_cons (List.infix_cons (ih h))
  | case3 c s hs ih =>
    rcases List.infix_cons_iff.mp h with hhere | h
    · refine (prefix_of_prefix_unifyNewlines (s := c :: s) hr hn ?_).isInfix
      rwa [unifyNewlines.eq_3 _ _ hs]
    · exact List.infix_cons (ih h)

end Text

namespace Highlight

open Directive

variable {s t : Text} {c : Char} {o : Nat} {current : Option Site} {ts : List Token}

/-- Making a page uniform for display brings in no inclusion. -/
theorem infix_of_infix_normalise (h : Inclusion.opening <:+: normalise s) :
    Inclusion.opening <:+: s := by
  have hr : '\r' ∉ Inclusion.opening := by decide
  have hn : '\n' ∉ Inclusion.opening := by decide
  -- the newline that is added at the end completes no opening
  have trimmed {t : Text} (h : Inclusion.opening <:+:
      Text.dropTrailing '\n' (Text.dropLeading '\n' (Text.unifyNewlines t)) ++ ['\n']) :
      Inclusion.opening <:+: t := by
    have hhead : ∀ c ∈ ['\n'].head?, c ∉ Inclusion.opening.tail := by
      rintro _ ⟨⟩
      decide
    rcases infix_or_infix_of_head? h hhead with h | h
    · refine Text.infix_of_infix_unifyNewlines hr hn (h.trans ?_)
      have hleft : Text.dropTrailing '\n' (Text.dropLeading '\n' (Text.unifyNewlines t)) <+:
          Text.dropLeading '\n' (Text.unifyNewlines t) := by
        rw [← List.reverse_suffix, Text.dropTrailing, List.reverse_reverse]
        exact List.dropWhile_suffix _
      exact hleft.isInfix.trans (List.dropWhile_suffix _).isInfix
    · exact absurd (h.subset (show 'g' ∈ Inclusion.opening by decide)) (by decide)
  unfold normalise at h
  dsimp only at h
  split at h
  · exact List.infix_cons (trimmed h)
  · exact trimmed h

/-! ### Groups of tokens -/

/-- The groups of tokens, the first of which stands at some offset: each from the mark that opens a
directive to the one that ends it. `current` is the group that has been opened and not ended. -/
def groups (offset : Nat) (current : Option Site) : List Token → List Site
  | [] => []
  | t :: ts =>
    let behind := offset + t.text.length
    match current, t with
    | none, .piece ⟨.mark, w⟩ => groups behind (if w = opening then some { offset } else none) ts
    | none, _ => groups behind none ts
    | some site, .piece ⟨.mark, w⟩ =>
      if w = terminator then site :: groups behind none ts else groups behind (some site) ts
    | some site, .piece ⟨.keyword, w⟩ =>
      groups behind (some { site with keyword := site.keyword ++ w }) ts
    | some site, .piece ⟨.code, w⟩ => groups behind (some { site with code := site.code ++ w }) ts
    | some site, _ => groups behind (some site) ts

/-- The groups of a text that is displayed, wherever it begins. -/
abbrev groupsOf (offset : Nat) (s : Text) : List Site := groups offset none ((pieces s).map .piece)

private theorem groups_text (w : Text) :
    groups o none (.piece ⟨.text, w⟩ :: ts) = groups (o + w.length) none ts := by
  rw [groups]
  · rfl
  · exact fun w h => by cases h

/-- The tokens of a directive are one group. -/
theorem groups_directive (k : Kind) (space code : Text) :
    groups o none ([⟨.mark, opening⟩, ⟨.keyword, k.word⟩, ⟨.space, space⟩, ⟨.code, code⟩,
        ⟨.mark, terminator⟩].map Token.piece ++ ts) =
      ⟨o, k.word, code⟩ ::
        groups (o + (opening ++ k.word ++ space ++ code ++ terminator).length) none ts := by
  simp [groups, Token.text, Nat.add_assoc]

/-! ### Tokens and text -/

private theorem pieces_of_plain (hc : c ≠ '<') :
    pieces (c :: t) = ⟨.text, c :: t.takeWhile isPlain⟩ :: pieces (t.dropWhile isPlain) := by
  rw [pieces, if_neg hc]

/-- A character that opens no directive belongs to no group. -/
theorem groupsOf_plain (hc : c ≠ '<') : groupsOf o (c :: t) = groupsOf (o + 1) t := by
  rw [groupsOf, groupsOf, pieces_of_plain hc, List.map_cons, groups_text]
  cases t with
  | nil => rfl
  | cons d t =>
    by_cases hd : d = '<'
    · have hplain : ¬ isPlain d = true := by simp [isPlain, hd]
      rw [List.takeWhile_cons_of_neg hplain, List.dropWhile_cons_of_neg hplain]
      rfl
    · have hplain : isPlain d = true := by simpa [isPlain] using hd
      rw [List.takeWhile_cons_of_pos hplain, List.dropWhile_cons_of_pos hplain,
        pieces_of_plain hd, List.map_cons, groups_text]
      congr 1
      simp only [List.length_cons]
      omega

private theorem groupsOf_append_of_plain (h : '<' ∉ s) :
    groupsOf o (s ++ t) = groupsOf (o + s.length) t := by
  induction s generalizing o with
  | nil => rfl
  | cons c s ih =>
    rw [List.cons_append, groupsOf_plain fun hc => h (hc ▸ List.mem_cons_self),
      ih (List.not_mem_of_not_mem_cons h), List.length_cons, Nat.add_comm s.length, Nat.add_assoc]

private theorem groupsOf_of_none (h : directive? (c :: t) = none) :
    groupsOf o (c :: t) = groupsOf (o + 1) t := by
  by_cases hc : c = '<'
  · subst hc
    have hpieces : pieces ('<' :: t) = ⟨.text, ['<']⟩ :: pieces t := by
      rw [pieces, if_pos rfl]
      split
      · next hd => cases hd.symm.trans h
      · rfl
    rw [groupsOf, hpieces, List.map_cons, groups_text]
    rfl
  · exact groupsOf_plain hc

/-- Where no inclusion begins, a directive is displayed where a page is cut at one. What follows a
directive is not displayed with it. -/
theorem directive?_eq (h : ¬ Inclusion.opening <+: s) :
    directive? s = (match? s).map fun (d, rest) =>
      ([⟨.mark, opening⟩, ⟨.keyword, d.kind.word⟩, ⟨.space, d.spacing⟩, ⟨.code, d.code⟩,
        ⟨.mark, terminator⟩], d.trailing ++ rest) := by
  rw [directive?, match?]
  cases hopening : Text.after? opening s with
  | none => rfl
  | some behind =>
    have hnone : Text.after? Kind.incl.word behind = none := by
      by_contra hsome
      obtain ⟨r, hr⟩ := Option.ne_none_iff_exists'.mp hsome
      rw [Text.after?_eq_some_iff.mp hopening, Text.after?_eq_some_iff.mp hr] at h
      exact h ⟨r, by rw [← List.append_assoc]; rfl⟩
    simp only [Option.bind_eq_bind, Option.bind_some, hnone]
    cases keyword? behind with
    | none => rfl
    | some found =>
      simp only [Option.bind_some]
      split
      · rfl
      · cases untilTerminator (Text.trimLeft found.2) with
        | none => rfl
        | some found => simp [splitTrailing_append]

/-- The tokens of a directive that begins a page. -/
theorem groupsOf_directive {d : Directive} (hopening : ¬ Inclusion.opening <+: d.source ++ t)
    (hproper : d.IsProper) (htrailing : TakesAll d.trailing t) :
    groupsOf o (d.source ++ t) =
      ⟨o, d.kind.word, d.code⟩ :: groupsOf (o + d.source.length) t := by
  have hmatch : match? (d.source ++ t) = some (d, t) :=
    match?_eq_some_iff.mpr ⟨rfl, hproper, htrailing⟩
  have hdirective := directive?_eq hopening
  rw [hmatch, Option.map_some] at hdirective
  -- what trails the directive is displayed as text, up to what begins the next one
  have hplain : '<' ∉ d.trailing := by
    obtain ⟨blanks, hblanks, htrailing⟩ := htrailing
    have hmem : '<' ∉ blanks := fun hmem => absurd (hblanks _ hmem) (by decide)
    rcases htrailing with h | ⟨h, -⟩
    · rw [h, List.mem_append]
      exact fun h => h.elim hmem (by decide)
    · rwa [h]
  obtain ⟨tail, htail⟩ : ∃ tail, d.source ++ t = '<' :: tail := ⟨_, rfl⟩
  have hpieces : pieces (d.source ++ t) =
      [⟨.mark, opening⟩, ⟨.keyword, d.kind.word⟩, ⟨.space, d.spacing⟩, ⟨.code, d.code⟩,
        ⟨.mark, terminator⟩] ++ pieces (d.trailing ++ t) := by
    rw [htail] at hdirective ⊢
    rw [pieces, if_pos rfl]
    split
    · next h =>
      obtain ⟨rfl, rfl⟩ := Prod.mk.inj (Option.some.inj (h.symm.trans hdirective))
      rfl
    · next h => cases h.symm.trans hdirective
  rw [groupsOf, hpieces, List.map_append, groups_directive, ← groupsOf,
    groupsOf_append_of_plain hplain, Directive.source, Nat.add_assoc, ← List.length_append]

/-- Literal text belongs to no group. -/
theorem groupsOf_literal
    (plain : ∀ before behind, s = before ++ behind → behind ≠ [] → ¬ Begins (behind ++ t))
    (habsent : ¬ Inclusion.opening <:+: s ++ t) :
    groupsOf o (s ++ t) = groupsOf (o + s.length) t := by
  induction s generalizing o with
  | nil => rfl
  | cons c s ih =>
    have hhere : match? (c :: (s ++ t)) = none :=
      match?_eq_none_iff.mpr (plain [] (c :: s) rfl (List.cons_ne_nil c s))
    have hnone : directive? (c :: (s ++ t)) = none := by
      rw [directive?_eq (s := c :: (s ++ t)) fun h => habsent h.isInfix, hhere, Option.map_none]
    rw [List.cons_append, groupsOf_of_none hnone,
      ih (fun before behind h => plain (c :: before) behind (congrArg (c :: ·) h))
        (fun h => habsent (List.infix_cons h)),
      List.length_cons, Nat.add_comm s.length, Nat.add_assoc]

/-- Where a page is tiled by regions, the groups of its tokens are the sites of the nodes that show
these. -/
theorem groupsOf_eq_sites {nodes : List Node} {regions : List Region}
    (htiles : Region.Tiles regions s) (hshows : List.Forall₂ Node.Shows nodes regions)
    (habsent : ¬ Inclusion.opening <:+: s) :
    groupsOf o s = Node.sites o (nodes.zip regions) := by
  induction htiles generalizing nodes o with
  | nil =>
    cases hshows
    rw [groupsOf, pieces]
    rfl
  | @literal s rest rs ne_nil plain apart tiles ih =>
    cases hshows with
    | @cons n _ nodes _ hshow hshows =>
    rw [groupsOf_literal plain habsent,
      ih hshows fun h => habsent (h.trans (List.suffix_append _ _).isInfix),
      List.zip_cons_cons, Node.sites]
    exact (if_pos hshow.1).symm
  | @directive d rest rs proper takesAll tiles ih =>
    cases hshows with
    | @cons n _ nodes _ hshow hshows =>
    obtain ⟨hkind, htext, -⟩ := hshow
    have hcode : n.kind ≠ .text := by
      intro h
      have := proper.kind_mem
      rw [← hkind, h] at this
      exact absurd this (by decide)
    rw [groupsOf_directive (fun h => habsent h.isInfix) proper takesAll,
      ih hshows fun h => habsent (h.trans (List.suffix_append _ _).isInfix), List.zip_cons_cons,
      Node.sites, if_neg hcode, hkind, htext]
    rfl

/-- **A page is highlighted where it is cut.** Of a page that includes nothing, made uniform for
display, the tokens are given in one way, and their groups are the nodes that are no literal text,
one for one and in order: with the same offset, keyword and code. -/
theorem groups_eq_sites {e : Inclusion.Setting} {st : Inclusion.State}
    (habsent : ¬ Inclusion.opening <:+: s) (hstart : Inclusion.start e = .ok st) :
    ∃ ts nodes regions, (∀ ts', Lexes rules (normalise s) ts' ↔ ts' = ts) ∧
      (Page.parse e (normalise s)).1 = .ok nodes ∧ List.Forall₂ Node.Shows nodes regions ∧
      Region.Tiles regions (normalise s) ∧ groups 0 none ts = Node.sites 0 (nodes.zip regions) := by
  have habsent : ¬ Inclusion.opening <:+: normalise s := fun h =>
    habsent (infix_of_infix_normalise h)
  have htext : (Inclusion.expand e (normalise s) st).1 = .ok (normalise s) := by
    rw [Inclusion.expand_of_absent (Inclusion.absent_of_not_infix habsent)]
  have hlexes := lexes_pieces (normalise s)
  have htiles := Region.tiles_scan (normalise s)
  have hshows := Node.shows_ofRegions (Region.scan (normalise s)) 1 []
  refine ⟨_, _, _, fun ts' => ⟨fun h => h.unique hlexes, ?_⟩, Page.parse_of_expand hstart htext,
    hshows, htiles, groupsOf_eq_sites htiles hshows habsent⟩
  rintro rfl
  exact hlexes

/-- A page that opens a directive twice, ends it once, and goes on with what begins none. -/
theorem groups_eq_sites_marks :
    let text := opening ++ Directive.source ⟨.expr, [' '], ['<', '?'], [' ', '\n']⟩ ++ ['<', '?']
    let e : Inclusion.Setting := { tree := ⟨[]⟩, cwd := [], policy := { includeDir := ['/'] } }
    ¬ Inclusion.opening <:+: text ∧ Inclusion.start e = .ok ⟨[['/']], []⟩ ∧
      ∃ ts nodes regions, (∀ ts', Lexes rules (normalise text) ts' ↔ ts' = ts) ∧
        (Page.parse e (normalise text)).1 = .ok nodes ∧ List.Forall₂ Node.Shows nodes regions ∧
        Region.Tiles regions (normalise text) ∧
        groups 0 none ts = Node.sites 0 (nodes.zip regions) := by
  intro text e
  have habsent : ¬ Inclusion.opening <:+: text := by decide
  have hstart : Inclusion.start e = .ok ⟨[['/']], []⟩ := by cbv
  exact ⟨habsent, hstart, groups_eq_sites habsent hstart⟩

end Highlight

end ServerPages
