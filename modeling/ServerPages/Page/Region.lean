import ServerPages.Page.Node
import ServerPages.Text.Blank

/-!
# Regions of a page

A page is cut into regions from left to right.  Where a directive begins, it is taken with all
its parts: the opening, white space, the code up to the first terminator, and what blanks and one
newline follow.  All other text is literal.

The main statement is that the regions tile the page (`flatten_scan`).
-/

namespace ServerPages

/-- The parts of a directive as they stand in a page. -/
structure Directive where
  kind : Kind
  /-- The white space after the keyword. -/
  spacing : Text
  code : Text
  trailing : Text
  deriving DecidableEq, Repr

namespace Directive

/-- The text that opens every directive. -/
def opening : Text := ['<', '?', 'g', 'o', ':']

theorem length_opening : opening.length = 5 := rfl

/-- The text that ends every directive. -/
def terminator : Text := ['?', '>']

/-- The directive as it stands in a page. -/
def source (d : Directive) : Text :=
  opening ++ d.kind.word ++ d.spacing ++ d.code ++ terminator ++ d.trailing

/-- What stands before the first terminator of a text, and what follows that terminator. -/
def untilTerminator : Text → Option (Text × Text)
  | [] => none
  | c :: s =>
    match Text.after? terminator (c :: s) with
    | some rest => some ([], rest)
    | none => (untilTerminator s).map fun (code, rest) => (c :: code, rest)

/-- Whether a character is a space or a tab. -/
def isInline (c : Char) : Bool := c == ' ' || c == '\t'

/-- The spaces and tabs a text begins with, one newline if it comes next, and the rest. -/
def splitTrailing (s : Text) : Text × Text :=
  let blanks := s.takeWhile isInline
  match s.dropWhile isInline with
  | '\n' :: rest => (blanks ++ ['\n'], rest)
  | rest => (blanks, rest)

/-- The kind of code directive whose keyword begins a text, and what follows the keyword. -/
def keyword? (s : Text) : Option (Kind × Text) :=
  [Kind.top, .block, .expr].findSome? fun k => (Text.after? k.word s).map (k, ·)

theorem untilTerminator_append {s code rest : Text} (h : untilTerminator s = some (code, rest)) :
    s = code ++ terminator ++ rest := by
  induction s generalizing code with
  | nil => simp [untilTerminator] at h
  | cons c s ih =>
    unfold untilTerminator at h
    split at h
    · next hr =>
      simp at h
      obtain ⟨rfl, rfl⟩ := h
      simpa using Text.after?_eq_some_iff.1 hr
    · simp only [Option.map_eq_some_iff] at h
      obtain ⟨⟨code', rest'⟩, hs, he⟩ := h
      simp at he
      obtain ⟨rfl, rfl⟩ := he
      simp [ih hs]

theorem splitTrailing_append (s : Text) :
    (splitTrailing s).1 ++ (splitTrailing s).2 = s := by
  have h := List.takeWhile_append_dropWhile (p := isInline) (l := s)
  unfold splitTrailing
  split
  · next rest hr => rw [hr] at h; simpa using h
  · exact h

theorem keyword?_append {s rest : Text} {k : Kind} (h : keyword? s = some (k, rest)) :
    s = k.word ++ rest := by
  simp only [keyword?, List.findSome?_cons, List.findSome?_nil] at h
  split at h
  · next hk =>
    simp only [Option.map_eq_some_iff] at hk
    obtain ⟨r, hr, he⟩ := hk
    simp at he h
    subst h
    obtain ⟨rfl, rfl⟩ := he
    exact Text.after?_eq_some_iff.1 hr
  · split at h
    · next hk =>
      simp only [Option.map_eq_some_iff] at hk
      obtain ⟨r, hr, he⟩ := hk
      simp at he h
      subst h
      obtain ⟨rfl, rfl⟩ := he
      exact Text.after?_eq_some_iff.1 hr
    · split at h
      · next hk =>
        simp only [Option.map_eq_some_iff] at hk
        obtain ⟨r, hr, he⟩ := hk
        simp at he h
        subst h
        obtain ⟨rfl, rfl⟩ := he
        exact Text.after?_eq_some_iff.1 hr
      · simp at h

/-- The directive that begins a text, and what follows it. -/
def match? (s : Text) : Option (Directive × Text) := do
  let afterOpening ← Text.after? opening s
  let (kind, afterKeyword) ← keyword? afterOpening
  let spacing := Text.leadingBlanks afterKeyword
  if spacing.isEmpty then none
  else
    let (code, afterCode) ← untilTerminator (Text.trimLeft afterKeyword)
    let (trailing, rest) := splitTrailing afterCode
    some (⟨kind, spacing, code, trailing⟩, rest)

/-- A directive that begins a text is what stands there. -/
theorem match?_append {s rest : Text} {d : Directive} (h : match? s = some (d, rest)) :
    s = d.source ++ rest := by
  simp only [match?, Option.bind_eq_bind, Option.bind_eq_some_iff] at h
  obtain ⟨a, ha, ⟨k, b⟩, hk, h⟩ := h
  simp only at h
  split at h
  · simp at h
  · simp only [Option.bind_eq_some_iff] at h
    obtain ⟨⟨code, c⟩, hc, h⟩ := h
    simp only [Option.some.injEq, Prod.mk.injEq] at h
    obtain ⟨rfl, rfl⟩ := h
    have h1 := Text.after?_eq_some_iff.1 ha
    have h2 := keyword?_append hk
    have h3 := untilTerminator_append hc
    have h4 := splitTrailing_append c
    have h5 := Text.leadingBlanks_append_trimLeft b
    calc s = opening ++ (k.word ++ (Text.leadingBlanks b ++ (code ++ terminator ++
          ((splitTrailing c).1 ++ (splitTrailing c).2)))) := by rw [h4, ← h3, h5, ← h2, ← h1]
      _ = _ := by simp [source]

private theorem length_rest_lt {s rest : Text} {d : Directive} (h : match? s = some (d, rest)) :
    rest.length < s.length := by
  rw [match?_append h]
  simp [source, opening]
  omega

end Directive

/-- A region of a page. -/
inductive Region where
  | literal (s : Text)
  | directive (d : Directive)
  deriving DecidableEq, Repr

namespace Region

/-- The region as it stands in the page. -/
def source : Region → Text
  | .literal s => s
  | .directive d => d.source

/-- Regions with one more literal character before them. -/
def pushLiteral (c : Char) : List Region → List Region
  | .literal s :: rest => .literal (c :: s) :: rest
  | rest => .literal [c] :: rest

/-- The regions of a page, directives leftmost first. -/
def scan (s : Text) : List Region :=
  match s with
  | [] => []
  | c :: t =>
    match h : Directive.match? (c :: t) with
    | some (d, rest) =>
      have := Directive.length_rest_lt h
      .directive d :: scan rest
    | none => pushLiteral c (scan t)
termination_by s.length
decreasing_by
  · exact this
  · exact Nat.lt_succ_self _

private theorem flatten_pushLiteral (c : Char) (rs : List Region) :
    ((pushLiteral c rs).map source).flatten = c :: (rs.map source).flatten := by
  unfold pushLiteral
  split <;> simp [source]

/-- The regions of a page are all of it, in order. -/
theorem flatten_scan (s : Text) : ((scan s).map source).flatten = s := by
  fun_induction scan s with
  | case1 => rfl
  | case2 c t d rest h _ ih =>
    simp only [List.map_cons, List.flatten_cons, ih]
    exact (Directive.match?_append h).symm
  | case3 c t h ih => rw [flatten_pushLiteral, ih]

end Region

end ServerPages
