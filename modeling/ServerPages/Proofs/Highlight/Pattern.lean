import Mathlib.Data.List.Basic
import ServerPages.Page.Highlight

/-!
# Rules for cutting a text

A text is cut into pieces by rules. A rule is a row of patterns, each with the style of what it
takes; it is matched with backtracking, so that a pattern that takes as much as it can, or as
little, gives way where the patterns behind it do not match (`Highlight.Rule.match?`).

From where the text stands, the first rule that matches gives its pieces, and the text is gone on
with behind them; where no rule matches, a character is an error (`Highlight.Lexes`). Whatever the
rules, what they give is all of the text (`Highlight.Lexes.flatMap_text`), and it is the only thing
they give (`Highlight.Lexes.unique`).
-/

namespace ServerPages

namespace Highlight

/-! ### Patterns -/

/-- A pattern within a rule. -/
inductive Pattern where
  /-- One of some words, an earlier one rather than a later one. -/
  | word (choices : List Text)
  /-- Characters of a class, at least so many and rather more than fewer. -/
  | most (least : Nat) (p : Char → Bool)
  /-- Any characters, rather fewer than more. -/
  | fewest

/-- The ways to cut a text behind characters of a class, the shortest first. -/
def cuts (p : Char → Bool) : Text → List (Text × Text)
  | [] => [([], [])]
  | c :: s => ([], c :: s) :: if p c then (cuts p s).map fun (t, rest) => (c :: t, rest) else []

/-- What a pattern may take of a text and what it leaves, in the order in which that is tried. -/
def Pattern.takes : Pattern → Text → List (Text × Text)
  | .word choices, s => choices.filterMap fun w => (Text.after? w s).map (w, ·)
  | .most least p, s => (cuts p s).reverse.filter fun (t, _) => least ≤ t.length
  | .fewest, s => cuts (fun _ => true) s

/-- Patterns one behind the other, each with the style of what it takes. -/
abbrev Rule := List (Style × Pattern)

/-- The first way in which a rule matches the beginning of a text: what its patterns take, and what
is left. -/
def Rule.match? : Rule → Text → Option (List Piece × Text)
  | [], s => some ([], s)
  | (style, p) :: rule, s =>
    (p.takes s).findSome? fun (t, left) =>
      (Rule.match? rule left).map fun (ps, rest) => (⟨style, t⟩ :: ps, rest)

/-- The match of the first rule that matches. -/
def firstMatch? (rules : List Rule) (s : Text) : Option (List Piece × Text) :=
  rules.findSome? (Rule.match? · s)

/-! ### Lexing -/

/-- Something that a text is cut into. -/
inductive Token where
  | piece (p : Piece)
  /-- A newline that no rule matches. -/
  | newline
  /-- Any other character that no rule matches. -/
  | error (c : Char)
  deriving DecidableEq, Repr

def Token.text : Token → Text
  | .piece p => p.text
  | .newline => ['\n']
  | .error c => [c]

/-- The pieces of a match that are given: code in any case, other pieces unless they are empty. -/
def given (ps : List Piece) : List Token :=
  (ps.filter fun p => p.style = .code ∨ p.text ≠ []).map .piece

/-- The rules cut a text into tokens. -/
inductive Lexes (rules : List Rule) : Text → List Token → Prop
  | nil (h : firstMatch? rules [] = none) : Lexes rules [] []
  | rule {s rest : Text} {ps : List Piece} {ts : List Token}
      (h : firstMatch? rules s = some (ps, rest)) (hrest : Lexes rules rest ts) :
      Lexes rules s (given ps ++ ts)
  | newline {s : Text} {ts : List Token} (h : firstMatch? rules ('\n' :: s) = none)
      (hrest : Lexes rules s ts) : Lexes rules ('\n' :: s) (.newline :: ts)
  | error {c : Char} {s : Text} {ts : List Token} (hc : c ≠ '\n')
      (h : firstMatch? rules (c :: s) = none) (hrest : Lexes rules s ts) :
      Lexes rules (c :: s) (.error c :: ts)

variable {α : Type} {p : Char → Bool} {c : Char} {s t rest : Text} {ps : List Piece}
  {rules : List Rule} {ts : List Token}

/-! ### All of the text -/

private theorem append_of_mem_cuts (h : (t, rest) ∈ cuts p s) :
    s = t ++ rest ∧ ∀ c ∈ t, p c = true := by
  induction s generalizing t with
  | nil =>
    cases List.mem_singleton.mp h
    exact ⟨rfl, nofun⟩
  | cons d s ih =>
    rcases List.mem_cons.mp h with heq | h
    · cases heq
      exact ⟨rfl, nofun⟩
    · split at h
      · next hd =>
        obtain ⟨⟨t', rest'⟩, hmem, heq⟩ := List.mem_map.mp h
        cases heq
        obtain ⟨rfl, hall⟩ := ih hmem
        exact ⟨rfl, List.forall_mem_cons.mpr ⟨hd, hall⟩⟩
      · cases h

/-- What a pattern takes and what it leaves are the text. -/
theorem Pattern.append_of_mem_takes {pattern : Pattern} (h : (t, rest) ∈ pattern.takes s) :
    s = t ++ rest := by
  cases pattern with
  | word choices =>
    obtain ⟨w, -, hw⟩ := List.mem_filterMap.mp h
    obtain ⟨r, hr, heq⟩ := Option.map_eq_some_iff.mp hw
    cases heq
    exact Text.after?_eq_some_iff.mp hr
  | most least p => exact (append_of_mem_cuts (List.mem_reverse.mp (List.mem_filter.mp h).1)).1
  | fewest => exact (append_of_mem_cuts h).1

/-- What the patterns of a rule take and what is left are the text. -/
theorem Rule.append_of_match? {rule : Rule} (h : rule.match? s = some (ps, rest)) :
    s = ps.flatMap (·.text) ++ rest := by
  induction rule generalizing s ps with
  | nil =>
    cases h
    rfl
  | cons part rule ih =>
    obtain ⟨⟨t, left⟩, hmem, h⟩ := List.exists_of_findSome?_eq_some h
    obtain ⟨⟨ps, rest⟩, hrule, heq⟩ := Option.map_eq_some_iff.mp h
    cases heq
    rw [part.2.append_of_mem_takes hmem, ih hrule, List.flatMap_cons, List.append_assoc]

private theorem flatMap_text_given (ps : List Piece) :
    (given ps).flatMap Token.text = ps.flatMap (·.text) := by
  induction ps with
  | nil => rfl
  | cons p ps ih =>
    rw [List.flatMap_cons, ← ih, given, List.filter_cons]
    split
    · rfl
    · next h =>
      have hempty : p.text = [] := by
        by_contra hne
        exact h (by simp [hne])
      rw [hempty]
      rfl

/-- **The tokens of a text are all of it**, whatever the rules. -/
theorem Lexes.flatMap_text (h : Lexes rules s ts) : ts.flatMap Token.text = s := by
  induction h with
  | nil => rfl
  | @rule s rest ps ts h _ ih =>
    obtain ⟨rule, -, hrule⟩ := List.exists_of_findSome?_eq_some h
    rw [List.flatMap_append, flatMap_text_given, ih, ← Rule.append_of_match? hrule]
  | newline _ _ ih => rw [List.flatMap_cons, ih]; rfl
  | error _ _ _ ih => rw [List.flatMap_cons, ih]; rfl

/-- The rules cut a text into tokens in one way at most. -/
theorem Lexes.unique {ts' : List Token} (h : Lexes rules s ts) (h' : Lexes rules s ts') :
    ts = ts' := by
  induction h generalizing ts' with
  | nil h =>
    cases h' with
    | nil => rfl
    | rule h' => cases h.symm.trans h'
  | rule h _ ih =>
    cases h' with
    | nil h' => cases h.symm.trans h'
    | rule h' hrest' =>
      cases h.symm.trans h'
      rw [ih hrest']
    | newline h' => cases h.symm.trans h'
    | error _ h' => cases h.symm.trans h'
  | newline h _ ih =>
    cases h' with
    | rule h' => cases h.symm.trans h'
    | newline _ hrest' => rw [ih hrest']
    | error hc => exact absurd rfl hc
  | error hc h _ ih =>
    cases h' with
    | rule h' => cases h.symm.trans h'
    | newline => exact absurd rfl hc
    | error _ _ hrest' => rw [ih hrest']

/-! ### What a pattern takes in the end -/

/-- A single word is taken where the text begins with it. -/
theorem Rule.match?_word (style : Style) (w : Text) (rule : Rule) (s : Text) :
    Rule.match? ((style, .word [w]) :: rule) s =
      (Text.after? w s).bind fun left =>
        (rule.match? left).map fun (ps, rest) => (⟨style, w⟩ :: ps, rest) := by
  rw [Rule.match?, Pattern.takes, List.filterMap_cons, List.filterMap_nil]
  cases Text.after? w s with
  | none => rfl
  | some left => simp

private theorem exists_cuts_eq (p : Char → Bool) (s : Text) :
    ∃ shorter, cuts p s = shorter ++ [(s.takeWhile p, s.dropWhile p)] := by
  induction s with
  | nil => exact ⟨[], rfl⟩
  | cons c s ih =>
    obtain ⟨shorter, hs⟩ := ih
    by_cases hc : p c = true
    · exact ⟨([], c :: s) :: shorter.map fun (t, rest) => (c :: t, rest), by simp [cuts, hc, hs]⟩
    · exact ⟨[], by simp [cuts, hc]⟩

private theorem length_le_of_mem_cuts (h : (t, rest) ∈ cuts p s) : t.length ≤ (s.takeWhile p).length := by
  obtain ⟨rfl, hall⟩ := append_of_mem_cuts h
  rw [List.takeWhile_append_of_pos hall, List.length_append]
  exact Nat.le_add_right _ _

/-- A pattern that takes as much as it can takes all that the class allows, unless the rule then
does not match while it matches behind less. -/
theorem Rule.match?_most {style : Style} {least : Nat} {rule : Rule}
    (hleast : least ≤ (s.takeWhile p).length)
    (hall : rule.match? (s.dropWhile p) = none → ∀ t left, s = t ++ left → (∀ c ∈ t, p c = true) →
      rule.match? left = none) :
    Rule.match? ((style, .most least p) :: rule) s =
      (rule.match? (s.dropWhile p)).map fun (ps, rest) => (⟨style, s.takeWhile p⟩ :: ps, rest) := by
  obtain ⟨shorter, hcuts⟩ := exists_cuts_eq p s
  rw [Rule.match?, Pattern.takes, hcuts, List.reverse_append, List.reverse_singleton,
    List.singleton_append, List.filter_cons_of_pos (by simpa using hleast), List.findSome?_cons]
  dsimp only
  -- all that the class allows is tried first, and less only if that fails
  cases hmatch : rule.match? (s.dropWhile p) with
  | some found => rfl
  | none =>
    refine List.findSome?_eq_none_iff.mpr fun ⟨t, left⟩ hmem => ?_
    have hmem : (t, left) ∈ cuts p s := by
      rw [hcuts]
      exact List.mem_append_left _ (List.mem_reverse.mp (List.mem_filter.mp hmem).1)
    obtain ⟨hs, ht⟩ := append_of_mem_cuts hmem
    rw [hall hmatch t left hs ht]
    rfl

theorem Rule.match?_most_eq_none {style : Style} {least : Nat} (rule : Rule)
    (hleast : (s.takeWhile p).length < least) :
    Rule.match? ((style, .most least p) :: rule) s = none := by
  rw [Rule.match?, Pattern.takes, List.filter_eq_nil_iff.mpr, List.findSome?_nil]
  rintro ⟨t, left⟩ hmem
  have := length_le_of_mem_cuts (List.mem_reverse.mp hmem)
  simp
  omega

/-- What stands before the first place where something is found, and what is found there. -/
def before? (find : Text → Option α) : Text → Option (Text × α)
  | [] => (find []).map ([], ·)
  | c :: s =>
    match find (c :: s) with
    | some a => some ([], a)
    | none => (before? find s).map fun (t, a) => (c :: t, a)

private theorem findSome?_cuts (find : Text → Option α) (s : Text) :
    (cuts (fun _ => true) s).findSome? (fun (t, left) => (find left).map (t, ·)) =
      before? find s := by
  induction s with
  | nil =>
    rw [cuts, List.findSome?_cons, before?, List.findSome?_nil]
    dsimp only
    cases find [] <;> rfl
  | cons c s ih =>
    rw [cuts, if_pos rfl, List.findSome?_cons, before?]
    dsimp only
    cases find (c :: s) with
    | some a => rfl
    | none =>
      rw [Option.map_none, ← ih, List.findSome?_map, List.map_findSome?]
      simp only [Function.comp_def, Option.map_map]

/-- A pattern that takes as little as it can ends where the rest of the rule first matches. -/
theorem Rule.match?_fewest (style : Style) (rule : Rule) (s : Text) :
    Rule.match? ((style, .fewest) :: rule) s =
      (before? rule.match? s).map fun (t, ps, rest) => (⟨style, t⟩ :: ps, rest) := by
  rw [Rule.match?, Pattern.takes, ← findSome?_cuts, List.map_findSome?]
  simp only [Function.comp_def, Option.map_map]

end Highlight

end ServerPages
