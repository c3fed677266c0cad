import Mathlib.Data.List.Forall2
import Mathlib.Data.List.TakeWhile
import ServerPages.Page.Parse
import ServerPages.Proofs.Page.Expansion

/-!
# How nodes tile a page

The grammar of directives says where a directive may begin: at an opening, a keyword, white space
and, wherever it comes, a terminator (`Directive.Begins`). A page is cut at such places from left
to right. The regions of a page are the only ones that tile it: directives end at their first
terminator and take all blanks and one newline that follow, and no directive begins within literal
text (`Region.scan_eq_iff`).

The main statement is that the nodes of a page show such regions (`Page.parse_tiles`).
-/

namespace ServerPages

namespace Directive

/-! ### The grammar of directives -/

/-- The kinds of directive that a page is cut at. -/
def codeKinds : List Kind := [.top, .block, .expr]

/-- A directive begins the text. -/
def Begins (s : Text) : Prop :=
  ∃ kind ∈ codeKinds, ∃ spacing code rest, spacing ≠ [] ∧ (∀ c ∈ spacing, Text.isBlank c = true) ∧
    s = opening ++ kind.word ++ spacing ++ code ++ terminator ++ rest

/-- The parts of a directive are those that its grammar gives it. -/
structure IsProper (d : Directive) : Prop where
  kind_mem : d.kind ∈ codeKinds
  spacing_ne_nil : d.spacing ≠ []
  spacing_blank : ∀ c ∈ d.spacing, Text.isBlank c = true
  /-- The code ends at the first terminator. -/
  code_free : ¬ terminator <:+: d.code
  /-- All white space before the code belongs to the spacing. -/
  code_head : ∀ c ∈ d.code.head?, Text.isBlank c = false

/-- What is taken behind a directive is the longest run of spaces and tabs, and a newline if one
comes next; `rest` is what follows. -/
def TakesAll (trailing rest : Text) : Prop :=
  ∃ blanks : Text, (∀ c ∈ blanks, c = ' ' ∨ c = '\t') ∧
    (trailing = blanks ++ ['\n'] ∨
      trailing = blanks ∧ ∀ c ∈ rest.head?, c ≠ ' ' ∧ c ≠ '\t' ∧ c ≠ '\n')

/-! ### Behind a directive -/

private theorem isInline_iff {c : Char} : isInline c = true ↔ c = ' ' ∨ c = '\t' := by
  simp [isInline]

private theorem splitTrailing_eq {trailing rest : Text} (h : TakesAll trailing rest) :
    splitTrailing (trailing ++ rest) = (trailing, rest) := by
  obtain ⟨blanks, hblanks, hend⟩ := h
  have hinline : ∀ c ∈ blanks, isInline c = true := fun c hc => isInline_iff.mpr (hblanks c hc)
  rcases hend with rfl | ⟨rfl, hrest⟩
  · rw [List.append_assoc, splitTrailing, List.takeWhile_append_of_pos hinline,
      List.dropWhile_append_of_pos hinline]
    simp [isInline]
  · rw [splitTrailing, List.takeWhile_append_of_pos hinline, List.dropWhile_append_of_pos hinline]
    cases rest with
    | nil => simp
    | cons c rest =>
      obtain ⟨hspace, htab, hnewline⟩ := hrest c rfl
      simp [isInline, hspace, htab, hnewline]

private theorem takesAll_splitTrailing (s : Text) : TakesAll (splitTrailing s).1 (splitTrailing s).2 := by
  have hblanks : ∀ c ∈ s.takeWhile isInline, c = ' ' ∨ c = '\t' :=
    fun c hc => isInline_iff.mp (List.mem_takeWhile_imp hc)
  refine ⟨s.takeWhile isInline, hblanks, ?_⟩
  unfold splitTrailing
  cases hrest : s.dropWhile isInline with
  | nil => exact .inr ⟨rfl, by simp⟩
  | cons d rest =>
    have hd : isInline d = false := by
      simpa [hrest] using List.head?_dropWhile_not isInline s
    by_cases hn : d = '\n'
    · subst hn
      exact .inl rfl
    · refine .inr ⟨by simp [hn], fun c hc => ?_⟩
      have hc : c = d := by simpa [hn, eq_comm] using hc
      subst hc
      exact ⟨fun h => by simp [h, isInline] at hd, fun h => by simp [h, isInline] at hd, hn⟩

/-! ### Up to the terminator -/

private theorem after?_terminator_iff {s : Text} :
    (∃ r, Text.after? terminator s = some r) ↔ terminator <+: s := by
  constructor
  · rintro ⟨r, hr⟩
    exact ⟨r, (Text.after?_eq_some_iff.mp hr).symm⟩
  · rintro ⟨r, hr⟩
    exact ⟨r, Text.after?_eq_some_iff.mpr hr.symm⟩

theorem untilTerminator_terminator (rest : Text) :
    untilTerminator (terminator ++ rest) = some ([], rest) := by
  simp [untilTerminator, terminator, Text.after?]

theorem untilTerminator_cons {c : Char} {s : Text} (h : ¬ terminator <+: c :: s) :
    untilTerminator (c :: s) = (untilTerminator s).map fun (code, rest) => (c :: code, rest) := by
  cases hr : Text.after? terminator (c :: s) with
  | none => rw [untilTerminator, hr]
  | some r => exact absurd (after?_terminator_iff.mp ⟨r, hr⟩) h

theorem untilTerminator_eq {code : Text} (h : ¬ terminator <:+: code) (rest : Text) :
    untilTerminator (code ++ terminator ++ rest) = some (code, rest) := by
  induction code with
  | nil => exact untilTerminator_terminator rest
  | cons c code ih =>
    have hcode : ¬ terminator <:+: code := fun hi => h (List.infix_cons hi)
    -- the two characters of a terminator differ, so that one that begins here ends in the code
    have hhere : ¬ terminator <+: c :: (code ++ terminator ++ rest) := by
      rintro ⟨r, hr⟩
      cases code with
      | nil => simp [terminator] at hr
      | cons d code =>
        obtain ⟨hc, hd, -⟩ : '?' = c ∧ '>' = d ∧ r = code ++ terminator ++ rest := by
          simpa [terminator] using hr
        subst hc hd
        exact h ⟨[], code, rfl⟩
    rw [List.cons_append, List.cons_append, untilTerminator_cons hhere, ih hcode]
    rfl

theorem not_infix_of_untilTerminator {s code rest : Text}
    (h : untilTerminator s = some (code, rest)) : ¬ terminator <:+: code := by
  induction s generalizing code with
  | nil => cases h
  | cons c s ih =>
    by_cases hhere : terminator <+: c :: s
    · obtain ⟨r, hr⟩ := hhere
      rw [← hr, untilTerminator_terminator] at h
      cases h
      exact fun hi => absurd (List.infix_nil.mp hi) (by simp [terminator])
    · rw [untilTerminator_cons hhere] at h
      obtain ⟨⟨code, rest⟩, hs, hpair⟩ := Option.map_eq_some_iff.mp h
      cases hpair
      intro hi
      rcases List.infix_cons_iff.mp hi with hbegins | hinside
      · refine hhere (hbegins.trans ?_)
        rw [untilTerminator_append hs, List.append_assoc]
        exact ⟨_, rfl⟩
      · exact ih hs hinside

private theorem exists_untilTerminator {s : Text} (h : terminator <:+: s) :
    ∃ code rest, untilTerminator s = some (code, rest) := by
  induction s with
  | nil => exact absurd (List.infix_nil.mp h) (by simp [terminator])
  | cons c s ih =>
    by_cases hhere : terminator <+: c :: s
    · obtain ⟨r, hr⟩ := hhere
      exact ⟨[], r, hr ▸ untilTerminator_terminator r⟩
    · obtain ⟨code, rest, hs⟩ := ih ((List.infix_cons_iff.mp h).resolve_left hhere)
      exact ⟨c :: code, rest, by rw [untilTerminator_cons hhere, hs]; rfl⟩

/-! ### A directive where it begins -/

private theorem keyword?_word {k : Kind} (h : k ∈ codeKinds) (s : Text) :
    keyword? (k.word ++ s) = some (k, s) := by
  simp only [codeKinds, List.mem_cons, List.not_mem_nil, or_false] at h
  rcases h with rfl | rfl | rfl <;> rfl

theorem codeKinds_of_keyword? {s rest : Text} {k : Kind} (h : keyword? s = some (k, rest)) :
    k ∈ codeKinds := by
  obtain ⟨k', hk', h⟩ := List.exists_of_findSome?_eq_some h
  obtain ⟨r, -, hpair⟩ := Option.map_eq_some_iff.mp h
  cases hpair
  exact hk'

private theorem leadingBlanks_append {w s : Text} (hw : ∀ c ∈ w, Text.isBlank c = true)
    (hs : ∀ c ∈ s.head?, Text.isBlank c = false) : Text.leadingBlanks (w ++ s) = w := by
  rw [Text.leadingBlanks, List.takeWhile_append_of_pos hw]
  cases s with
  | nil => simp
  | cons c s => simp [hs c rfl]

theorem trimLeft_append {w s : Text} (hw : ∀ c ∈ w, Text.isBlank c = true)
    (hs : ∀ c ∈ s.head?, Text.isBlank c = false) : Text.trimLeft (w ++ s) = s := by
  rw [Text.trimLeft, List.dropWhile_append_of_pos hw]
  cases s with
  | nil => rfl
  | cons c s => simp [hs c rfl]

/-- The parts that are found behind an opening and a keyword. -/
theorem match?_keyword {k : Kind} (h : k ∈ codeKinds) (s : Text) :
    match? (opening ++ (k.word ++ s)) =
      if Text.leadingBlanks s = [] then none
      else (untilTerminator (Text.trimLeft s)).map fun (code, behind) =>
        (⟨k, Text.leadingBlanks s, code, (splitTrailing behind).1⟩, (splitTrailing behind).2) := by
  have hopening : Text.after? opening (opening ++ (k.word ++ s)) = some (k.word ++ s) :=
    Text.after?_eq_some_iff.mpr rfl
  simp only [match?, hopening, keyword?_word h, Option.bind_eq_bind, Option.bind_some,
    List.isEmpty_iff, Option.map_eq_bind]
  rfl

/-- Exactly what stands in a text as a proper directive that takes all that belongs to it is found
there. -/
theorem match?_eq_some_iff {s rest : Text} {d : Directive} :
    match? s = some (d, rest) ↔
      s = d.source ++ rest ∧ d.IsProper ∧ TakesAll d.trailing rest := by
  constructor
  · intro h
    refine ⟨match?_append h, ?_⟩
    simp only [match?, Option.bind_eq_bind, Option.bind_eq_some_iff] at h
    obtain ⟨a, ha, ⟨k, b⟩, hk, h⟩ := h
    simp only at h
    split at h
    · cases h
    · next hspacing =>
      obtain ⟨⟨code, c⟩, hc, h⟩ := Option.bind_eq_some_iff.mp h
      cases h
      refine ⟨⟨codeKinds_of_keyword? hk, by simpa using hspacing,
        fun c hc => List.mem_takeWhile_imp hc, not_infix_of_untilTerminator hc, ?_⟩,
        takesAll_splitTrailing c⟩
      -- the code begins where the white space ends
      intro x hx
      have hhead : x ∈ (Text.trimLeft b).head? := by
        rw [untilTerminator_append hc]
        cases code with
        | nil => cases hx
        | cons y code => exact hx
      have := List.head?_dropWhile_not Text.isBlank b
      rw [show (b.dropWhile Text.isBlank).head? = some x from hhead] at this
      simpa using this
  · rintro ⟨rfl, hproper, htrailing⟩
    have hhead : ∀ c ∈ (d.code ++ terminator ++ (d.trailing ++ rest)).head?,
        Text.isBlank c = false := by
      intro c hc
      cases hcode : d.code with
      | nil =>
        obtain rfl : '?' = c := by simpa [hcode, terminator] using hc
        decide
      | cons x code =>
        rw [hcode] at hc
        exact hproper.code_head c (hcode ▸ hc)
    have hsource : d.source ++ rest = opening ++ (d.kind.word ++
        (d.spacing ++ (d.code ++ terminator ++ (d.trailing ++ rest)))) := by
      simp [source]
    rw [hsource, match?_keyword hproper.kind_mem, leadingBlanks_append hproper.spacing_blank hhead,
      if_neg hproper.spacing_ne_nil, trimLeft_append hproper.spacing_blank hhead,
      untilTerminator_eq hproper.code_free, Option.map_some]
    simp only [splitTrailing_eq htrailing]

theorem match?_eq_none_iff {s : Text} : match? s = none ↔ ¬ Begins s := by
  rw [← not_iff_not, not_not, ← ne_eq, Option.ne_none_iff_exists']
  constructor
  · rintro ⟨⟨d, rest⟩, h⟩
    obtain ⟨rfl, hproper, -⟩ := match?_eq_some_iff.mp h
    refine ⟨d.kind, hproper.kind_mem, d.spacing, d.code, d.trailing ++ rest,
      hproper.spacing_ne_nil, hproper.spacing_blank, ?_⟩
    simp [source]
  · rintro ⟨k, hk, spacing, code, rest, hne, hblank, rfl⟩
    -- a terminator that stands behind the keyword stands behind all white space there
    have hterminator : terminator <:+: Text.trimLeft (spacing ++ (code ++ terminator ++ rest)) := by
      rw [Text.trimLeft, List.dropWhile_append_of_pos hblank, List.append_assoc]
      by_cases hcode : ∀ c ∈ code, Text.isBlank c = true
      · rw [List.dropWhile_append_of_pos hcode]
        exact ⟨[], rest, rfl⟩
      · have hdrop : code.dropWhile Text.isBlank ≠ [] := by
          simpa [List.dropWhile_eq_nil_iff] using hcode
        rw [List.dropWhile_append, if_neg (by simpa using hdrop)]
        exact ⟨_, rest, List.append_assoc ..⟩
    obtain ⟨c', r', hfound⟩ := exists_untilTerminator hterminator
    have hspacing : Text.leadingBlanks (spacing ++ (code ++ terminator ++ rest)) ≠ [] := by
      rw [Text.leadingBlanks, List.takeWhile_append_of_pos hblank]
      simp [hne]
    have hsource : opening ++ k.word ++ spacing ++ code ++ terminator ++ rest =
        opening ++ (k.word ++ (spacing ++ (code ++ terminator ++ rest))) := by
      simp
    rw [hsource, match?_keyword hk, if_neg hspacing, hfound]
    exact ⟨_, rfl⟩

end Directive

namespace Region

open Directive

/-! ### Cutting a page -/

/-- Regions tile a text: they are its parts in order, directives are proper and take all that
belongs to them, and literal text stands for itself: it is not empty, no directive begins within
it, and no other literal text follows it. -/
inductive Tiles : List Region → Text → Prop
  | nil : Tiles [] []
  | literal {s rest : Text} {rs : List Region} (ne_nil : s ≠ [])
      (plain : ∀ before behind, s = before ++ behind → behind ≠ [] → ¬ Begins (behind ++ rest))
      (apart : ∀ t ts, rs ≠ .literal t :: ts) (tiles : Tiles rs rest) :
      Tiles (.literal s :: rs) (s ++ rest)
  | directive {d : Directive} {rest : Text} {rs : List Region} (proper : d.IsProper)
      (takesAll : TakesAll d.trailing rest) (tiles : Tiles rs rest) :
      Tiles (.directive d :: rs) (d.source ++ rest)

theorem Tiles.flatten_source {rs : List Region} {s : Text} (h : Tiles rs s) :
    (rs.map source).flatten = s := by
  induction h with
  | nil => rfl
  | literal _ _ _ _ ih => rw [List.map_cons, List.flatten_cons, ih]; rfl
  | directive _ _ _ ih => rw [List.map_cons, List.flatten_cons, ih]; rfl

theorem scan_of_match {s rest : Text} {d : Directive} (h : match? s = some (d, rest)) :
    scan s = .directive d :: scan rest := by
  cases s with
  | nil => cases h
  | cons c t =>
    rw [scan]
    split
    · next hd => cases hd.symm.trans h; rfl
    · next hd => cases hd.symm.trans h

theorem scan_of_none {c : Char} {t : Text} (h : match? (c :: t) = none) :
    scan (c :: t) = pushLiteral c (scan t) := by
  rw [scan]
  split
  · next hd => cases hd.symm.trans h
  · rfl

/-- One more literal character before a tiled text. -/
theorem Tiles.pushLiteral {c : Char} {s : Text} {rs : List Region} (h : Tiles rs s)
    (hc : ¬ Begins (c :: s)) : Tiles (pushLiteral c rs) (c :: s) := by
  -- where the character is a literal text of its own, only it has to be looked at
  have alone : ∀ before behind, [c] = before ++ behind → behind ≠ [] → ¬ Begins (behind ++ s) := by
    intro before behind hsplit hne
    cases before with
    | nil => rw [List.nil_append] at hsplit; rw [← hsplit]; exact hc
    | cons x before =>
      have : behind = [] := (List.append_eq_nil_iff.mp (List.cons.inj hsplit).2.symm).2
      exact absurd this hne
  cases h with
  | nil => exact .literal (by simp) alone (by simp) .nil
  | literal ne_nil plain apart tiles =>
    refine .literal (by simp) (fun before behind hsplit hne => ?_) apart tiles
    cases before with
    | nil => rw [List.nil_append] at hsplit; rw [← hsplit]; exact hc
    | cons x before => exact plain before behind (List.cons.inj hsplit).2 hne
  | directive proper takesAll tiles =>
    exact .literal (by simp) alone (by simp) (.directive proper takesAll tiles)

theorem tiles_scan (s : Text) : Tiles (scan s) s := by
  fun_induction scan s with
  | case1 => exact .nil
  | case2 c t d rest h _ ih =>
    obtain ⟨hs, proper, takesAll⟩ := match?_eq_some_iff.mp h
    rw [hs]
    exact .directive proper takesAll ih
  | case3 c t h ih => exact ih.pushLiteral (match?_eq_none_iff.mp h)

/-- Literal text that no directive begins in is found as one region. -/
theorem scan_literal {s rest : Text} (hne : s ≠ [])
    (hplain : ∀ before behind, s = before ++ behind → behind ≠ [] → ¬ Begins (behind ++ rest))
    (hapart : ∀ t ts, scan rest ≠ .literal t :: ts) :
    scan (s ++ rest) = .literal s :: scan rest := by
  induction s with
  | nil => exact absurd rfl hne
  | cons c s ih =>
    have hhere : scan (c :: s ++ rest) = Region.pushLiteral c (scan (s ++ rest)) :=
      scan_of_none (match?_eq_none_iff.mpr (hplain [] (c :: s) rfl hne))
    rw [hhere]
    cases s with
    | nil =>
      rw [List.nil_append]
      unfold Region.pushLiteral
      split
      · next t ts h => exact absurd h (hapart t ts)
      · rfl
    | cons d s =>
      have hrest : scan (d :: s ++ rest) = .literal (d :: s) :: scan rest :=
        ih (by simp) fun before behind h => hplain (c :: before) behind (congrArg (c :: ·) h)
      rw [hrest]
      rfl

/-- **The regions of a page are the only ones that tile it.** -/
theorem scan_eq_iff {s : Text} {rs : List Region} : scan s = rs ↔ Tiles rs s := by
  constructor
  · rintro rfl
    exact tiles_scan s
  · intro h
    induction h with
    | nil => rw [scan]
    | literal ne_nil plain apart _ ih =>
      rw [scan_literal ne_nil plain (ih ▸ apart), ih]
    | directive proper takesAll _ ih =>
      rw [scan_of_match (match?_eq_some_iff.mpr ⟨rfl, proper, takesAll⟩), ih]

end Region

namespace Node

/-! ### Nodes that show regions -/

/-- A node shows a region: it is literal text, or it has a directive's kind, code and trailing
white space. -/
def Shows (n : Node) : Region → Prop
  | .literal s => n.kind = .text ∧ n.text = s
  | .directive d => n.kind = d.kind ∧ n.text = d.code ∧ n.trailing = d.trailing

theorem shows_ofRegions (rs : List Region) (line : Nat) (head : Text) :
    List.Forall₂ Shows (ofRegions line head rs) rs := by
  induction rs generalizing line head with
  | nil => exact .nil
  | cons r rs ih =>
    refine .cons ?_ (ih _ _)
    cases r with
    | literal s => exact ⟨rfl, rfl⟩
    | directive d => exact ⟨rfl, rfl, rfl⟩

end Node

namespace Page

variable {e : Inclusion.Setting} {source text : Text} {st : Inclusion.State}

theorem parse_of_expand (hstart : Inclusion.start e = .ok st)
    (htext : (Inclusion.expand e source st).1 = .ok text) :
    (parse e source).1 = .ok (Node.ofText text) := by
  unfold parse
  rw [hstart]
  cases hexpand : Inclusion.expand e source st with
  | mk result st' =>
    rw [hexpand] at htext
    obtain rfl : result = .ok text := htext
    simp only [hexpand]

/-- **The nodes of a page tile its text** once inclusions are expanded: they show regions of which
the text is made up without a gap, and there is only one way to tile it. -/
theorem parse_tiles (hstart : Inclusion.start e = .ok st)
    (htext : (Inclusion.expand e source st).1 = .ok text) :
    ∃ nodes regions, (parse e source).1 = .ok nodes ∧ List.Forall₂ Node.Shows nodes regions ∧
      (regions.map Region.source).flatten = text ∧ Region.Tiles regions text ∧
      ∀ others, Region.Tiles others text → others = regions := by
  have htiles : Region.Tiles (Region.scan text) text := Region.tiles_scan text
  refine ⟨Node.ofText text, Region.scan text, parse_of_expand hstart htext,
    Node.shows_ofRegions _ _ _, htiles.flatten_source, htiles, ?_⟩
  intro others h
  exact (Region.scan_eq_iff.mpr h).symm

/-- A page with a question mark before the terminator, and behind it what begins no directive. -/
theorem parse_tiles_marks :
    let text := Directive.source ⟨.expr, [' '], ['b', '?'], [' ', '\n']⟩ ++ ['\n', '<', '?']
    let e : Inclusion.Setting := { tree := ⟨[]⟩, cwd := [], policy := { includeDir := ['/'] } }
    Inclusion.start e = .ok ⟨[['/']], []⟩ ∧
      (Inclusion.expand e text ⟨[['/']], []⟩).1 = .ok text ∧
      ∃ nodes regions, (parse e text).1 = .ok nodes ∧ List.Forall₂ Node.Shows nodes regions ∧
        (regions.map Region.source).flatten = text ∧ Region.Tiles regions text ∧
        ∀ others, Region.Tiles others text → others = regions := by
  intro text e
  have habsent : Inclusion.Absent text := Inclusion.absent_of_not_infix (by decide)
  have hstart : Inclusion.start e = .ok ⟨[['/']], []⟩ := by cbv
  have htext : (Inclusion.expand e text ⟨[['/']], []⟩).1 = .ok text := by
    rw [Inclusion.expand_of_absent habsent]
  exact ⟨hstart, htext, parse_tiles hstart htext⟩

end Page

end ServerPages
