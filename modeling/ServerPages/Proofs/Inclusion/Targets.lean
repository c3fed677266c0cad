import ServerPages.Proofs.Highlight.Lossless

/-!
# Where targets end

A page is searched for `include` directives from left to right (`Inclusion.Finds`), and the targets
found are those that are read (`Inclusion.mem_pieces_iff`). A directive ends at the first terminator
behind its keyword, unless a terminator is the first thing there behind the white space: then that
terminator becomes the beginning of the target, which goes on to the next one
(`Inclusion.endsFirst_iff`).
-/

namespace ServerPages

namespace Inclusion

open Directive (terminator)

variable {s t tail rest behind target : Text} {m : Target}

/-- An `include` directive is found in a text, with `behind` standing behind its keyword. -/
inductive Finds : Text → Text → Target → Prop
  | here {behind : Text} {m : Target} (h : match? (opening ++ behind) = some m) :
      Finds (opening ++ behind) behind m
  | skip {c : Char} {s behind : Text} {m : Target} (h : match? (c :: s) = none)
      (hrest : Finds s behind m) : Finds (c :: s) behind m
  | next {s behind : Text} {m' m : Target} (h : match? s = some m')
      (hrest : Finds m'.rest behind m) : Finds s behind m

/-- The directive ends at the first terminator behind its keyword: its target is what stands before
that terminator but for the white space at both ends, and the page goes on behind it. -/
def EndsFirst (behind : Text) (m : Target) : Prop :=
  ∃ front after, behind = front ++ terminator ++ after ∧ ¬ terminator <:+: front ∧
    m.path = Text.trim front ∧ m.rest = (Directive.splitTrailing after).2

/-- The directive takes the first terminator behind its keyword as the beginning of its target: with
what stands behind it, up to the next terminator, it is what the target holds. -/
def Swallows (behind : Text) (m : Target) : Prop :=
  ∃ front after, Text.trimLeft behind = terminator ++ front ++ terminator ++ after ∧
    ¬ terminator <:+: front ∧ m.path = terminator ++ Text.trimRight front ∧
    m.rest = (Directive.splitTrailing after).2

/-! ### What is found -/

private theorem Finds.match?_eq (h : Finds s behind m) : match? (opening ++ behind) = some m := by
  induction h with
  | here h => exact h
  | skip _ _ ih | next _ _ ih => exact ih

/-- The parts of the directive behind its keyword: white space, and the target that begins behind
it and goes on before the first closing. -/
theorem exists_of_target? (h : target? behind = some m) :
    ∃ c t tail rest, Text.trimLeft behind = c :: t ∧ beforeClosing closing? t = some (tail, rest) ∧
      m = ⟨c :: tail, (Directive.splitTrailing rest).2⟩ := by
  unfold target? at h
  split at h
  · cases h
  · split at h
    · cases h
    · next c t hc =>
      obtain ⟨⟨tail, rest⟩, ht, rfl⟩ := Option.map_eq_some_iff.mp h
      exact ⟨c, t, tail, rest, hc, ht, rfl⟩

/-- What is left behind a directive ends the text. -/
theorem rest_suffix (h : match? s = some m) : m.rest <:+ s := by
  obtain ⟨a, ha, hm⟩ := Option.bind_eq_some_iff.mp h
  obtain rfl := Text.after?_eq_some_iff.mp ha
  obtain ⟨c, t, tail, rest, hc, ht, rfl⟩ := exists_of_target? hm
  obtain ⟨-, gap, -, rfl⟩ := beforeClosing_append ht
  have hrest : (Directive.splitTrailing rest).2 <:+ rest := ⟨_, Directive.splitTrailing_append rest⟩
  refine hrest.trans (List.IsSuffix.trans ?_ (List.suffix_append opening a))
  rw [← Text.leadingBlanks_append_trimLeft a, hc]
  exact ⟨Text.leadingBlanks a ++ c :: (tail ++ gap ++ terminator), by simp⟩

theorem Finds.suffix (h : Finds s behind m) : opening ++ behind <:+ s := by
  induction h with
  | here => exact List.suffix_rfl
  | skip _ _ ih => exact ih.trans (List.suffix_cons _ _)
  | next h _ ih => exact ih.trans (rest_suffix h)

private theorem finds_of_match_iff {m' : Target} (h : match? s = some m) :
    Finds s behind m' ↔ s = opening ++ behind ∧ m' = m ∨ Finds m.rest behind m' := by
  constructor
  · rintro (h' | ⟨h', -⟩ | ⟨h', hrest⟩)
    · exact .inl ⟨rfl, Option.some.inj (h'.symm.trans h)⟩
    · cases h.symm.trans h'
    · obtain rfl := Option.some.inj (h'.symm.trans h)
      exact .inr hrest
  · rintro (⟨rfl, rfl⟩ | hrest)
    · exact .here h
    · exact .next h hrest

private theorem finds_of_none_iff {c : Char} (h : match? (c :: s) = none) :
    Finds (c :: s) behind m ↔ Finds s behind m := by
  constructor
  · intro hfinds
    generalize hs : c :: s = cs at hfinds h
    cases hfinds with
    | here h' => cases h.symm.trans h'
    | skip _ hrest =>
      obtain ⟨-, rfl⟩ := List.cons.inj hs
      exact hrest
    | next h' => cases h.symm.trans h'
  · exact .skip h

/-- The targets that are read are those of the directives found. -/
theorem mem_pieces_iff :
    .inclusion target ∈ pieces s ↔ ∃ behind m, Finds s behind m ∧ m.path = target := by
  fun_induction pieces s with
  | case1 =>
    refine iff_of_false List.not_mem_nil ?_
    rintro ⟨behind, m, h, -⟩
    have hsuffix := List.suffix_nil.mp h.suffix
    exact opening_ne_nil (List.append_eq_nil_iff.mp hsuffix).1
  | case2 c t m h _ ih =>
    simp only [List.mem_cons, ih, finds_of_match_iff h, Piece.inclusion.injEq]
    constructor
    · rintro (rfl | ⟨behind, m', hrest, rfl⟩)
      · obtain ⟨a, ha, -⟩ := Option.bind_eq_some_iff.mp h
        exact ⟨a, m, .inl ⟨Text.after?_eq_some_iff.mp ha, rfl⟩, rfl⟩
      · exact ⟨behind, m', .inr hrest, rfl⟩
    · rintro ⟨behind, m', ⟨-, rfl⟩ | hrest, rfl⟩
      · exact .inl rfl
      · exact .inr ⟨behind, m', hrest, rfl⟩
  | case3 c t h l rest hl ih =>
    simp only [finds_of_none_iff h, ← ih, hl, List.mem_cons, reduceCtorEq, false_or]
  | case4 c t h hl ih =>
    simp only [finds_of_none_iff h, ← ih, List.mem_cons, reduceCtorEq, false_or]

/-! ### Up to the closing -/

/-- What stands before the first closing: none is found where it begins or within it. -/
theorem close_of_beforeClosing {close : Text → Option Text}
    (h : beforeClosing close s = some (t, rest)) :
    ∃ r, s = t ++ r ∧ close r = some rest ∧
      ∀ pre suf, t = pre ++ suf → suf ≠ [] → close (suf ++ r) = none := by
  induction s generalizing t with
  | nil => cases h
  | cons c s ih =>
    rw [beforeClosing] at h
    cases hc : close (c :: s) with
    | some r =>
      rw [hc] at h
      cases h
      refine ⟨c :: s, rfl, hc, fun pre suf hsplit hne => ?_⟩
      exact absurd (List.append_eq_nil_iff.mp hsplit.symm).2 hne
    | none =>
      rw [hc] at h
      by_cases hn : c = '\n'
      · simp [hn] at h
      · simp only [hn, ↓reduceIte, Option.map_eq_some_iff] at h
        obtain ⟨⟨t', r'⟩, hs, he⟩ := h
        cases he
        obtain ⟨r, rfl, hr, hnone⟩ := ih hs
        refine ⟨r, rfl, hr, fun pre suf hsplit hne => ?_⟩
        cases pre with
        | nil =>
          rw [List.nil_append] at hsplit
          subst hsplit
          exact hc
        | cons d pre => exact hnone pre suf (List.cons.inj hsplit).2 hne

private theorem closing?_terminator (rest : Text) : closing? (terminator ++ rest) = some rest := by
  simp [closing?, terminator, Text.trimLeft, Text.isBlank, Text.after?]

private theorem closing?_blank {c : Char} (hc : Text.isBlank c = true) :
    closing? (c :: s) = closing? s := by
  rw [closing?, Text.trimLeft, List.dropWhile_cons_of_pos hc, ← Text.trimLeft, ← closing?]

/-- What stands before the first closing of a line, and the white space of that closing: no
terminator is in them, and white space does not end what stands before. -/
theorem beforeClosing_first (h : beforeClosing closing? s = some (tail, rest)) :
    ∃ gap, s = tail ++ gap ++ terminator ++ rest ∧ (∀ c ∈ gap, Text.isBlank c = true) ∧
      ¬ terminator <:+: tail ++ gap ∧ ∀ c ∈ tail.getLast?, Text.isBlank c = false := by
  obtain ⟨r, rfl, hr, hnone⟩ := close_of_beforeClosing h
  have hgap : ∀ c ∈ Text.leadingBlanks r, Text.isBlank c = true := fun _ => List.mem_takeWhile_imp
  have hmark : '?' ∉ Text.leadingBlanks r := fun hmem => absurd (hgap _ hmem) (by decide)
  have hsplit : Text.leadingBlanks r ++ (terminator ++ rest) = r := by
    rw [← Text.after?_eq_some_iff.mp hr, Text.leadingBlanks_append_trimLeft]
  refine ⟨Text.leadingBlanks r, by simp only [List.append_assoc, hsplit], hgap, ?_, ?_⟩
  · rintro ⟨before, after, hat⟩
    rw [List.append_assoc] at hat
    obtain ⟨gap, rfl, hbehind⟩ | ⟨suffix, rfl, hbehind⟩ := List.append_eq_append_iff.mp hat.symm
    · exact hmark (by rw [hbehind]; simp [terminator])
    · cases suffix with
      | nil =>
        rw [List.nil_append] at hbehind
        exact hmark (by rw [← hbehind]; simp [terminator])
      | cons c suffix =>
        -- a terminator that begins before the closing is one itself
        have hclose : closing? (c :: suffix ++ r) = some (after ++ (terminator ++ rest)) := by
          rw [← hsplit, ← List.append_assoc, ← hbehind, List.append_assoc, closing?_terminator]
        cases hclose.symm.trans (hnone before (c :: suffix) rfl (List.cons_ne_nil _ _))
  · intro c hc
    obtain ⟨front, rfl⟩ := List.getLast?_eq_some_iff.mp hc
    rw [Bool.eq_false_iff]
    intro hblank
    have hclose : closing? ([c] ++ r) = some rest := (closing?_blank hblank).trans hr
    cases hclose.symm.trans (hnone front [c] rfl (List.cons_ne_nil _ _))

private theorem trimRight_append {w : Text} (hs : ∀ c ∈ s.getLast?, Text.isBlank c = false)
    (hw : ∀ c ∈ w, Text.isBlank c = true) : Text.trimRight (s ++ w) = s := by
  have hdrop := Directive.trimLeft_append (w := w.reverse) (s := s.reverse)
    (fun c hc => hw c (List.mem_reverse.mp hc)) (fun c hc => hs c (by simpa using hc))
  rw [Text.trimRight, List.reverse_append, ← Text.trimLeft, hdrop, List.reverse_reverse]

/-! ### The first terminator -/

/-- White space is passed over in the search for a terminator. -/
theorem untilTerminator_eq_map (s : Text) : Directive.untilTerminator s =
    (Directive.untilTerminator (Text.trimLeft s)).map fun (code, rest) =>
      (Text.leadingBlanks s ++ code, rest) := by
  conv_lhs => rw [← Text.leadingBlanks_append_trimLeft s]
  exact Directive.untilTerminator_append_of_blank (fun _ => List.mem_takeWhile_imp) _

section First

variable (h : match? (opening ++ behind) = some m)

include h

/-- The parts of a directive behind its keyword, up to the terminator that ends it: white space, the
target, which neither begins nor ends with white space, and white space again. A terminator within
them begins where the target does. -/
theorem exists_parts : ∃ c tail gap rest,
    behind = Text.leadingBlanks behind ++ (c :: tail ++ gap) ++ terminator ++ rest ∧
    Text.trimLeft behind = c :: tail ++ gap ++ terminator ++ rest ∧ Text.isBlank c = false ∧
    (∀ d ∈ gap, Text.isBlank d = true) ∧ (∀ d ∈ (c :: tail).getLast?, Text.isBlank d = false) ∧
    ¬ terminator <:+: tail ++ gap ∧ m = ⟨c :: tail, (Directive.splitTrailing rest).2⟩ := by
  obtain ⟨a, ha, hm⟩ := Option.bind_eq_some_iff.mp h
  obtain rfl := List.append_cancel_left (Text.after?_eq_some_iff.mp ha)
  obtain ⟨c, t, tail, rest, hc, ht, rfl⟩ := exists_of_target? hm
  obtain ⟨gap, rfl, hgap, hfirst, hlast⟩ := beforeClosing_first ht
  have htrim : Text.trimLeft behind = c :: tail ++ gap ++ terminator ++ rest := by simpa using hc
  have hhead : (behind.dropWhile Text.isBlank).head? = some c := by
    rw [← Text.trimLeft, htrim]
    rfl
  have hblank : Text.isBlank c = false := by
    simpa [hhead] using List.head?_dropWhile_not Text.isBlank behind
  refine ⟨c, tail, gap, rest, ?_, htrim, hblank, hgap, ?_, hfirst, rfl⟩
  · conv_lhs => rw [← Text.leadingBlanks_append_trimLeft behind, htrim]
    simp only [List.append_assoc]
  · intro d hd
    cases tail with
    | nil =>
      cases hd
      exact hblank
    | cons b tail => exact hlast d (by simpa using hd)

private theorem endsFirst_of_not_first (hfirst : ¬ terminator <+: Text.trimLeft behind) :
    EndsFirst behind m := by
  obtain ⟨c, tail, gap, rest, hbehind, htrim, hblank, hgap, hlast, hinfix, rfl⟩ := exists_parts h
  have hpart : ¬ terminator <:+: c :: tail ++ gap := by
    intro hi
    rw [List.cons_append] at hi
    obtain hprefix | hi := List.infix_cons_iff.mp hi
    · exact hfirst (htrim ▸ hprefix.trans ⟨terminator ++ rest, by simp⟩)
    · exact hinfix hi
  have huntil : Directive.untilTerminator behind =
      some (Text.leadingBlanks behind ++ (c :: tail ++ gap), rest) := by
    rw [untilTerminator_eq_map, htrim, Directive.untilTerminator_eq hpart]
    rfl
  refine ⟨_, rest, hbehind, Directive.not_infix_of_untilTerminator huntil, ?_, rfl⟩
  have hhead : ∀ d ∈ (c :: tail ++ gap).head?, Text.isBlank d = false := by
    rintro d ⟨⟩
    exact hblank
  have hblanks : ∀ d ∈ Text.leadingBlanks behind, Text.isBlank d = true :=
    fun _ => List.mem_takeWhile_imp
  rw [Text.trim, Directive.trimLeft_append hblanks hhead, trimRight_append hlast hgap]

private theorem swallows_of_first (hfirst : terminator <+: Text.trimLeft behind) : Swallows behind m := by
  obtain ⟨c, tail, gap, rest, -, htrim, -, hgap, hlast, hinfix, rfl⟩ := exists_parts h
  rw [htrim] at hfirst
  obtain ⟨rfl, hsecond⟩ := List.cons_prefix_cons.mp hfirst
  cases tail with
  | nil =>
    -- neither white space nor a terminator begins as a terminator goes on
    cases gap with
    | nil => exact absurd (List.cons_prefix_cons.mp hsecond).1 (by decide)
    | cons d gap =>
      obtain ⟨rfl, -⟩ := List.cons_prefix_cons.mp hsecond
      exact absurd (hgap _ List.mem_cons_self) (by decide)
  | cons d tail =>
    obtain ⟨rfl, -⟩ := List.cons_prefix_cons.mp hsecond
    have hend : ∀ d ∈ tail.getLast?, Text.isBlank d = false := by
      cases tail with
      | nil => simp
      | cons b tail => exact fun d hd => hlast d (by simpa using hd)
    refine ⟨tail ++ gap, rest, by rw [htrim]; simp [terminator], fun hi => ?_, ?_, rfl⟩
    · exact hinfix (List.infix_cons hi)
    · rw [trimRight_append hend hgap]
      rfl

/-- Where a directive ends at the first terminator, something else stands first behind the white
space: its target is not empty. -/
theorem not_first_of_endsFirst (hends : EndsFirst behind m) :
    ¬ terminator <+: Text.trimLeft behind := by
  rintro ⟨after, hafter⟩
  obtain ⟨c, tail, gap, rest, -, -, -, -, -, -, rfl⟩ := exists_parts h
  obtain ⟨front, after', hbehind, hfront, hpath, -⟩ := hends
  have huntil : Directive.untilTerminator behind = some (Text.leadingBlanks behind, after) := by
    rw [untilTerminator_eq_map, ← hafter, Directive.untilTerminator_terminator]
    simp only [Option.map_some, List.append_nil]
  rw [hbehind, Directive.untilTerminator_eq hfront, ← hbehind] at huntil
  obtain ⟨rfl, -⟩ := Prod.mk.inj (Option.some.inj huntil)
  have hnil : Text.trimLeft (Text.leadingBlanks behind) = [] :=
    List.dropWhile_eq_nil_iff.mpr fun _ => List.mem_takeWhile_imp
  rw [Text.trim, hnil] at hpath
  cases hpath

end First

private theorem EndsFirst.not_infix_path (h : EndsFirst behind m) : ¬ terminator <:+: m.path := by
  obtain ⟨front, after, -, hfront, hpath, -⟩ := h
  have htrim : Text.trim front <+: Text.trimLeft front := ⟨_, Highlight.trimRight_append_drop _⟩
  have hleft : Text.trimLeft front <:+ front := ⟨_, Text.leadingBlanks_append_trimLeft front⟩
  rw [hpath]
  exact fun hi => hfront ((hi.trans htrim.isInfix).trans hleft.isInfix)

private theorem Swallows.infix_path (h : Swallows behind m) : terminator <:+: m.path := by
  obtain ⟨front, after, -, -, hpath, -⟩ := h
  exact hpath ▸ (List.prefix_append _ _).isInfix

/-- The targets read are those of the directives found in the page, each of which stands in it. A
directive ends at the first terminator behind its keyword if something else stands first behind the
white space there; if not, it swallows what follows that terminator. Exactly then its target holds
a terminator. -/
theorem endsFirst_iff (s : Text) :
    (∀ target, .inclusion target ∈ pieces s ↔ ∃ behind m, Finds s behind m ∧ m.path = target) ∧
      ∀ behind m, Finds s behind m →
        opening ++ behind <:+ s ∧
        (EndsFirst behind m ↔ ¬ terminator <+: Text.trimLeft behind) ∧
        (Swallows behind m ↔ terminator <+: Text.trimLeft behind) ∧
        (terminator <:+: m.path ↔ Swallows behind m) := by
  refine ⟨fun target => mem_pieces_iff, fun behind m hfinds => ?_⟩
  have h := hfinds.match?_eq
  refine ⟨hfinds.suffix, ⟨not_first_of_endsFirst h, endsFirst_of_not_first h⟩, ?_, ?_⟩
  · refine ⟨?_, swallows_of_first h⟩
    rintro ⟨front, after, htrim, -⟩
    exact htrim ▸ ⟨front ++ terminator ++ after, by simp⟩
  · refine ⟨fun hpath => swallows_of_first h (not_not.mp fun hfirst => ?_), Swallows.infix_path⟩
    exact (endsFirst_of_not_first h hfirst).not_infix_path hpath

/-- A file is included, and text follows. -/
def named : Text := "<?go:include a.html ?>b".toList

/-- No file is named, and text follows. -/
def unnamed : Text := "<?go:include ?>x ?>y".toList

theorem endsFirst_named : EndsFirst " a.html ?>b".toList ⟨"a.html".toList, "b".toList⟩ ∧
    ¬ terminator <:+: "a.html".toList := by
  have hfinds : Finds named " a.html ?>b".toList ⟨"a.html".toList, "b".toList⟩ :=
    .here (by decide)
  obtain ⟨-, hall⟩ := endsFirst_iff named
  obtain ⟨-, hends, hswallows, hpath⟩ := hall _ _ hfinds
  refine ⟨hends.mpr (by decide), fun hi => ?_⟩
  exact absurd (hswallows.mp (hpath.mp hi)) (by decide)

/-- The page text behind an empty directive is handed over as a target, with the terminator. -/
theorem not_endsFirst_unnamed :
    ∃ behind m, Finds unnamed behind m ∧ ¬ EndsFirst behind m ∧ m.path = "?>x".toList ∧
      .inclusion m.path ∈ pieces unnamed := by
  have h : match? (opening ++ " ?>x ?>y".toList) = some ⟨"?>x".toList, "y".toList⟩ := by decide
  refine ⟨_, _, .here h, fun hends => ?_, rfl, mem_pieces_iff.mpr ⟨_, _, .here h, rfl⟩⟩
  exact not_first_of_endsFirst h hends (by decide)

end Inclusion

end ServerPages
