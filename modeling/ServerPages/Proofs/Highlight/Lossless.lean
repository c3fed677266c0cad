import ServerPages.Proofs.Highlight.Pattern
import ServerPages.Proofs.Highlight.Uniform
import ServerPages.Proofs.Page.Tiling

/-!
# The rules for a page

A page is cut for display by four rules: one for inclusions, one for the other directives, one for
what stands before an angle bracket and one for an angle bracket alone (`Highlight.rules`). All
patterns of the rules for directives end up where a scan from left to right puts them: the white
space behind a keyword is all that stands there, since a terminator begins with no blank, and the
code ends at the first terminator (`Highlight.directive?`).

The main statement is that the rules cut every page, made uniform as `Highlight.normalise_eq_iff`
tells, into the pieces that are displayed, which are all of it, without an error
(`Highlight.lex_lossless`).
-/

namespace ServerPages

namespace Directive

variable {w s : Text} {c : Char}

/-- A terminator behind white space is what comes first behind it. -/
theorem after?_terminator_trimLeft (hw : ∀ c ∈ w, Text.isBlank c = true) (rest : Text) :
    Text.after? terminator (Text.trimLeft (w ++ (terminator ++ rest))) = some rest := by
  rw [trimLeft_append hw fun c hc => by cases hc; rfl]
  exact Text.after?_eq_some_iff.mpr rfl

/-- No terminator begins within white space. -/
theorem untilTerminator_append_of_blank (hw : ∀ c ∈ w, Text.isBlank c = true) (s : Text) :
    untilTerminator (w ++ s) = (untilTerminator s).map fun (code, rest) => (w ++ code, rest) := by
  induction w with
  | nil =>
    rw [List.nil_append]
    cases untilTerminator s <;> rfl
  | cons c w ih =>
    obtain ⟨hc, hw⟩ := List.forall_mem_cons.mp hw
    have hhere : ¬ terminator <+: c :: (w ++ s) := by
      rintro ⟨r, hr⟩
      obtain ⟨rfl, -⟩ := List.cons_eq_cons.mp hr
      exact absurd hc (by decide)
    rw [List.cons_append, untilTerminator_cons hhere, ih hw, Option.map_map]
    rfl

/-- A terminator that stands behind some white space stands behind all of it. -/
theorem untilTerminator_eq_none_of_blank {t left : Text}
    (h : untilTerminator (s.dropWhile Text.isBlank) = none) (hs : s = t ++ left)
    (ht : ∀ c ∈ t, Text.isBlank c = true) : untilTerminator left = none := by
  have hnone : untilTerminator s = none := by
    rw [← List.takeWhile_append_dropWhile (p := Text.isBlank) (l := s),
      untilTerminator_append_of_blank (fun c hc => List.mem_takeWhile_imp hc), h]
    rfl
  rw [hs, untilTerminator_append_of_blank ht] at hnone
  exact Option.map_eq_none_iff.mp hnone

end Directive

namespace Highlight

open Directive

variable {s rest : Text} {ps : List Piece} {c : Char}

/-! ### The rules -/

/-- An inclusion. -/
def inclusionRule : Rule :=
  [(.mark, .word [opening]), (.keyword, .word [Kind.incl.word]), (.space, .most 1 Text.isBlank),
    (.target, .fewest), (.space, .most 0 Text.isBlank), (.mark, .word [terminator])]

/-- Any other directive. -/
def codeRule : Rule :=
  [(.mark, .word [opening]), (.keyword, .word (codeKinds.map Kind.word)),
    (.space, .most 1 Text.isBlank), (.code, .fewest), (.mark, .word [terminator])]

/-- The rules for a page. -/
def rules : List Rule :=
  [inclusionRule, codeRule, [(.text, .most 1 isPlain)], [(.text, .word [['<']])]]

/-! ### Up to the terminator -/

/-- The end of a directive. -/
abbrev closingRule : Rule := [(.mark, .word [terminator])]

private theorem match?_closing (s : Text) :
    closingRule.match? s = (Text.after? terminator s).map ([⟨.mark, terminator⟩], ·) := by
  rw [Rule.match?_word]
  cases Text.after? terminator s <;> rfl

private theorem before?_closing (s : Text) :
    before? closingRule.match? s =
      (untilTerminator s).map fun (code, rest) => (code, [⟨.mark, terminator⟩], rest) := by
  induction s with
  | nil => rfl
  | cons c s ih =>
    rw [before?, match?_closing, untilTerminator, ih]
    cases Text.after? terminator (c :: s) with
    | some rest => rfl
    | none => simp only [Option.map_none, Option.map_map, Function.comp_def]

/-- The end of an inclusion. -/
abbrev spacedClosingRule : Rule := (.space, .most 0 Text.isBlank) :: closingRule

private theorem match?_spacedClosing (s : Text) :
    spacedClosingRule.match? s = (Text.after? terminator (Text.trimLeft s)).map
      ([⟨.space, Text.leadingBlanks s⟩, ⟨.mark, terminator⟩], ·) := by
  rw [Rule.match?_most (Nat.zero_le _), match?_closing, Option.map_map]
  · rfl
  · intro hnone t left hs ht
    rw [match?_closing, Option.map_eq_none_iff] at hnone ⊢
    -- a terminator begins with no blank, and so it would begin where the blanks end
    by_contra hsome
    obtain ⟨r, hr⟩ := Option.ne_none_iff_exists'.mp hsome
    rw [hs, Text.after?_eq_some_iff.mp hr] at hnone
    cases (after?_terminator_trimLeft ht r).symm.trans hnone

private theorem trimRight_of_blank {w : Text} (hw : ∀ c ∈ w, Text.isBlank c = true) :
    Text.trimRight w = [] := by
  rw [Text.trimRight, List.dropWhile_eq_nil_iff.mpr fun c hc => hw c (List.mem_reverse.mp hc),
    List.reverse_nil]

private theorem trimRight_cons_of_not_blank {c : Char} {s : Text}
    (h : ¬ ∀ d ∈ c :: s, Text.isBlank d = true) :
    Text.trimRight (c :: s) = c :: Text.trimRight s := by
  rw [Text.trimRight, Text.trimRight, List.reverse_cons, List.dropWhile_append]
  split
  · next hs =>
    rw [List.isEmpty_iff] at hs
    have hc : Text.isBlank c = false := by
      by_contra hc
      refine h (List.forall_mem_cons.mpr ⟨eq_true_of_ne_false hc, fun d hd => ?_⟩)
      exact List.dropWhile_eq_nil_iff.mp hs d (List.mem_reverse.mpr hd)
    rw [hs, List.dropWhile_cons_of_neg (by rw [hc]; exact Bool.false_ne_true)]
    rfl
  · rw [List.reverse_append]
    rfl

private theorem before?_spacedClosing (s : Text) :
    before? spacedClosingRule.match? s = (untilTerminator s).map fun (body, rest) =>
      (Text.trimRight body,
        [⟨.space, body.drop (Text.trimRight body).length⟩, ⟨.mark, terminator⟩], rest) := by
  induction s with
  | nil => rfl
  | cons c s ih =>
    rw [before?, match?_spacedClosing]
    cases hhere : Text.after? terminator (Text.trimLeft (c :: s)) with
    | some rest =>
      have hs : c :: s = Text.leadingBlanks (c :: s) ++ (terminator ++ rest) := by
        rw [← Text.after?_eq_some_iff.mp hhere, Text.leadingBlanks_append_trimLeft]
      have hblank : ∀ d ∈ Text.leadingBlanks (c :: s), Text.isBlank d = true :=
        fun d hd => List.mem_takeWhile_imp hd
      have huntil : untilTerminator (c :: s) = some (Text.leadingBlanks (c :: s), rest) := by
        conv_lhs => rw [hs]
        rw [untilTerminator_append_of_blank hblank, untilTerminator_terminator, Option.map_some]
        simp only [List.append_nil]
      rw [huntil]
      simp only [Option.map_some, trimRight_of_blank hblank, List.length_nil, List.drop_zero]
    | none =>
      have hbegins : ¬ terminator <+: c :: s := by
        rintro ⟨r, hr⟩
        rw [← hr] at hhere
        have hblank : ∀ d ∈ ([] : Text), Text.isBlank d = true := by simp
        cases (after?_terminator_trimLeft hblank r).symm.trans hhere
      rw [untilTerminator_cons hbegins, Option.map_none, ih, Option.map_map, Option.map_map]
      cases huntil : untilTerminator s with
      | none => rfl
      | some found =>
        obtain ⟨body, rest⟩ := found
        -- or else a terminator would stand behind the blanks that begin the text
        have hbody : ¬ ∀ d ∈ c :: body, Text.isBlank d = true := by
          intro hblank
          rw [untilTerminator_append huntil, List.append_assoc, ← List.cons_append,
            after?_terminator_trimLeft hblank] at hhere
          cases hhere
        simp only [Option.map_some, Function.comp_apply, trimRight_cons_of_not_blank hbody,
          List.length_cons, List.drop_succ_cons]

/-! ### Directives -/

/-- The white space behind a keyword is all that stands there, if what is to follow it stands
wherever a terminator does. -/
theorem match?_spacing {rule : Rule}
    (hrule : ∀ left, rule.match? left = none ↔ untilTerminator left = none) (s : Text) :
    Rule.match? ((.space, .most 1 Text.isBlank) :: rule) s =
      if Text.leadingBlanks s = [] then none
      else (rule.match? (Text.trimLeft s)).map fun (ps, rest) =>
        (⟨.space, Text.leadingBlanks s⟩ :: ps, rest) := by
  split
  · next hnone =>
    exact Rule.match?_most_eq_none rule (by rw [← Text.leadingBlanks, hnone]; exact Nat.one_pos)
  · next hsome =>
    refine Rule.match?_most (List.length_pos_iff.mpr hsome) fun hnone t left hs ht => ?_
    rw [hrule] at hnone ⊢
    exact untilTerminator_eq_none_of_blank hnone hs ht

private theorem match?_code (s : Text) :
    Rule.match? ((.code, .fewest) :: closingRule) s = (untilTerminator s).map fun (code, rest) =>
      ([⟨.code, code⟩, ⟨.mark, terminator⟩], rest) := by
  rw [Rule.match?_fewest, before?_closing, Option.map_map]
  rfl

private theorem match?_target (s : Text) :
    Rule.match? ((.target, .fewest) :: spacedClosingRule) s =
      (untilTerminator s).map fun (body, rest) =>
        ([⟨.target, Text.trimRight body⟩, ⟨.space, body.drop (Text.trimRight body).length⟩,
          ⟨.mark, terminator⟩], rest) := by
  rw [Rule.match?_fewest, before?_spacedClosing, Option.map_map]
  rfl

private theorem match?_inclusion (s : Text) :
    inclusionRule.match? s =
      (Text.after? opening s).bind fun behind => (Text.after? Kind.incl.word behind).bind fun r =>
        if Text.leadingBlanks r = [] then none
        else (untilTerminator (Text.trimLeft r)).map fun (body, rest) =>
          ([⟨.mark, opening⟩, ⟨.keyword, Kind.incl.word⟩, ⟨.space, Text.leadingBlanks r⟩,
            ⟨.target, Text.trimRight body⟩, ⟨.space, body.drop (Text.trimRight body).length⟩,
            ⟨.mark, terminator⟩], rest) := by
  have hrule (left : Text) : Rule.match? ((.target, .fewest) :: spacedClosingRule) left = none ↔
      untilTerminator left = none := by
    rw [match?_target, Option.map_eq_none_iff]
  rw [inclusionRule, Rule.match?_word]
  refine Option.bind_congr fun behind _ => ?_
  rw [Rule.match?_word, Option.map_bind]
  refine Option.bind_congr fun r _ => ?_
  rw [Function.comp_apply, match?_spacing hrule, match?_target]
  split
  · rfl
  · simp only [Option.map_map, Function.comp_def]

/-- What the keywords of other directives leave. -/
theorem takes_keyword (s : Text) :
    Pattern.takes (.word (codeKinds.map Kind.word)) s =
      ((keyword? s).map fun (k, rest) => (k.word, rest)).toList := by
  cases hk : keyword? s with
  | some found =>
    obtain ⟨k, rest⟩ := found
    have hmem := codeKinds_of_keyword? hk
    rw [keyword?_append hk]
    simp only [codeKinds, List.mem_cons, List.not_mem_nil, or_false] at hmem
    rcases hmem with rfl | rfl | rfl <;> rfl
  | none =>
    refine List.filterMap_eq_nil_iff.mpr fun w hw => ?_
    obtain ⟨k, hk', rfl⟩ := List.mem_map.mp hw
    have hnone := List.findSome?_eq_none_iff.mp hk k hk'
    rw [Option.map_eq_none_iff.mp hnone]
    rfl

private theorem match?_codeRule (s : Text) :
    codeRule.match? s =
      (Text.after? opening s).bind fun behind => (keyword? behind).bind fun (k, r) =>
        if Text.leadingBlanks r = [] then none
        else (untilTerminator (Text.trimLeft r)).map fun (code, rest) =>
          ([⟨.mark, opening⟩, ⟨.keyword, k.word⟩, ⟨.space, Text.leadingBlanks r⟩, ⟨.code, code⟩,
            ⟨.mark, terminator⟩], rest) := by
  have hrule (left : Text) : Rule.match? ((.code, .fewest) :: closingRule) left = none ↔
      untilTerminator left = none := by
    rw [match?_code, Option.map_eq_none_iff]
  rw [codeRule, Rule.match?_word]
  refine Option.bind_congr fun behind _ => ?_
  rw [Rule.match?, takes_keyword]
  cases keyword? behind with
  | none => rfl
  | some found =>
    obtain ⟨k, r⟩ := found
    rw [Option.map_some, Option.toList_some, List.findSome?_singleton]
    dsimp only
    rw [match?_spacing hrule, match?_code, Option.bind_some]
    dsimp only
    split
    · rfl
    · simp only [Option.map_map, Function.comp_def]

/-- Of the pieces of an inclusion those are given that are worth showing. -/
theorem given_inclusion {space : Text} (hspace : space ≠ []) (target behind : Text) :
    given [⟨.mark, opening⟩, ⟨.keyword, Kind.incl.word⟩, ⟨.space, space⟩, ⟨.target, target⟩,
        ⟨.space, behind⟩, ⟨.mark, terminator⟩] =
      List.map .piece (⟨.mark, opening⟩ :: ⟨.keyword, Kind.incl.word⟩ :: ⟨.space, space⟩ ::
        piece .target target ++ piece .space behind ++ [⟨.mark, terminator⟩]) := by
  have hword : Kind.incl.word ≠ [] := by decide
  have hopening : opening ≠ [] := by decide
  have hterminator : terminator ≠ [] := by decide
  by_cases htarget : target = [] <;> by_cases hbehind : behind = [] <;>
    simp [given, piece, hspace, hword, hopening, hterminator, htarget, hbehind]

private theorem given_code {space : Text} (hspace : space ≠ []) (k : Kind) (code : Text) :
    given [⟨.mark, opening⟩, ⟨.keyword, k.word⟩, ⟨.space, space⟩, ⟨.code, code⟩,
        ⟨.mark, terminator⟩] =
      List.map .piece [⟨.mark, opening⟩, ⟨.keyword, k.word⟩, ⟨.space, space⟩, ⟨.code, code⟩,
        ⟨.mark, terminator⟩] := by
  have hword : k.word ≠ [] := by cases k <;> decide
  have hopening : opening ≠ [] := by decide
  have hterminator : terminator ≠ [] := by decide
  simp [given, hspace, hword, hopening, hterminator]

/-- Two rules give the pieces of the directive that begins a text. -/
theorem firstMatch?_directive (s : Text) :
    (firstMatch? [inclusionRule, codeRule] s).map (fun (ps, rest) => (given ps, rest)) =
      (directive? s).map fun (ps, rest) => (ps.map .piece, rest) := by
  rw [firstMatch?, List.findSome?_cons, List.findSome?_singleton, match?_inclusion, match?_codeRule,
    directive?]
  cases Text.after? opening s with
  | none => rfl
  | some behind =>
    simp only [Option.bind_some, Option.bind_eq_bind]
    cases hincl : Text.after? Kind.incl.word behind with
    | some r =>
      -- the word for an inclusion begins with no other keyword
      have hkeyword : keyword? behind = none := by
        rw [Text.after?_eq_some_iff.mp hincl]
        rfl
      simp only [hkeyword, Option.bind_some, Option.bind_none, List.isEmpty_iff]
      by_cases hspace : Text.leadingBlanks r = []
      · simp only [hspace, if_true, Option.map_none]
      · simp only [hspace, if_false]
        cases untilTerminator (Text.trimLeft r) with
        | none => rfl
        | some found => simp only [Option.map_some, Option.bind_some, given_inclusion hspace]
    | none =>
      simp only [Option.bind_none]
      cases keyword? behind with
      | none => rfl
      | some found =>
        obtain ⟨k, r⟩ := found
        simp only [Option.bind_some, List.isEmpty_iff]
        split
        · rfl
        · next hspace =>
          cases untilTerminator (Text.trimLeft r) with
          | none => rfl
          | some found => simp only [Option.map_some, Option.bind_some, given_code hspace]

/-! ### A page -/

private theorem firstMatch?_of_directive (h : directive? s = some (ps, rest)) :
    ∃ qs, firstMatch? rules s = some (qs, rest) ∧ given qs = ps.map .piece := by
  have hmap := firstMatch?_directive s
  rw [h, Option.map_some] at hmap
  obtain ⟨⟨qs, behind⟩, hfirst, heq⟩ := Option.map_eq_some_iff.mp hmap
  obtain ⟨hgiven, rfl⟩ := Prod.mk.inj heq
  refine ⟨qs, ?_, hgiven⟩
  rw [firstMatch?, show rules = [inclusionRule, codeRule] ++ [_, _] from rfl,
    List.findSome?_append, ← firstMatch?, hfirst, Option.some_or]

/-- Where no directive begins, the other rules are tried. -/
theorem firstMatch?_of_none (h : directive? s = none) :
    firstMatch? rules s =
      firstMatch? [[(.text, .most 1 isPlain)], [(.text, .word [['<']])]] s := by
  have hmap := firstMatch?_directive s
  rw [h, Option.map_none, Option.map_eq_none_iff] at hmap
  rw [firstMatch?, show rules = [inclusionRule, codeRule] ++ [_, _] from rfl,
    List.findSome?_append, ← firstMatch?, hmap, Option.none_or]
  rfl

private theorem firstMatch?_angle {t : Text} (h : directive? ('<' :: t) = none) :
    firstMatch? rules ('<' :: t) = some ([⟨.text, ['<']⟩], t) := by
  rw [firstMatch?_of_none h, firstMatch?, List.findSome?_cons,
    Rule.match?_most_eq_none [] (by rw [List.takeWhile_cons_of_neg (by decide)]; exact Nat.one_pos)]
  rfl

private theorem firstMatch?_plain {t : Text} (hc : c ≠ '<') :
    firstMatch? rules (c :: t) =
      some ([⟨.text, c :: t.takeWhile isPlain⟩], t.dropWhile isPlain) := by
  have hplain : isPlain c = true := by simpa [isPlain] using hc
  have hnone : directive? (c :: t) = none := by
    rw [directive?, show Text.after? opening (c :: t) = none from if_neg (Ne.symm hc)]
    rfl
  rw [firstMatch?_of_none hnone, firstMatch?, List.findSome?_cons, Rule.match?_most]
  · simp only [List.takeWhile_cons_of_pos hplain, List.dropWhile_cons_of_pos hplain]
    rfl
  · simp [List.takeWhile_cons_of_pos hplain]
  · intro hnone
    cases hnone

/-- The rules cut a text into its pieces. -/
theorem lexes_pieces (s : Text) : Lexes rules s ((pieces s).map .piece) := by
  fun_induction pieces s with
  | case1 => exact .nil rfl
  | case2 t ps rest h _ ih =>
    obtain ⟨qs, hfirst, hgiven⟩ := firstMatch?_of_directive h
    rw [List.map_append, ← hgiven]
    exact .rule hfirst ih
  | case3 t h ih => exact .rule (firstMatch?_angle h) ih
  | case4 c t hc _ ih => exact .rule (firstMatch?_plain hc) ih

/-- **Highlighting loses nothing.** The rules cut every page, normalised, in exactly one way: into
the pieces that are displayed. Their texts one behind the other are the normalised page, and none
of them is an error. -/
theorem lex_lossless (s : Text) :
    ∃ ts, (∀ ts', Lexes rules (normalise s) ts' ↔ ts' = ts) ∧
      ts = (pieces (normalise s)).map .piece ∧
      ts.flatMap Token.text = normalise s ∧ ∀ t ∈ ts, ∃ p, t = .piece p := by
  have hlexes := lexes_pieces (normalise s)
  refine ⟨_, fun ts' => ⟨fun h => h.unique hlexes, ?_⟩, rfl, hlexes.flatMap_text, fun t ht => ?_⟩
  · rintro rfl
    exact hlexes
  · obtain ⟨p, -, rfl⟩ := List.mem_map.mp ht
    exact ⟨p, rfl⟩

end Highlight

end ServerPages
