import ServerPages.Page.Region

/-!
# Highlighting

For display a page is cut into pieces, each with a style.  The directives are cut into their
parts; all other text is cut before each opening angle bracket.

The main statement is that the pieces tile the page (`flatten_pieces`).
-/

namespace ServerPages

namespace Highlight

/-- How a piece is displayed. -/
inductive Style where
  | text
  /-- The marks around a directive. -/
  | mark
  | keyword
  | space
  /-- The target of an inclusion. -/
  | target
  | code
  deriving DecidableEq, Repr

/-- A piece of a page with its style. -/
structure Piece where
  style : Style
  text : Text
  deriving DecidableEq, Repr

/-- A page as it is displayed: without a byte order mark, with uniform line ends, without
newlines at its ends but for one at the last. -/
def normalise (s : Text) : Text :=
  let s := match s with
    | '\uFEFF' :: t => t
    | _ => s
  Text.dropTrailing '\n' (Text.dropLeading '\n' (Text.unifyNewlines s)) ++ ['\n']

/-- The pieces of a style that are worth showing: none if the text is empty. -/
def piece (style : Style) (s : Text) : List Piece := if s.isEmpty then [] else [⟨style, s⟩]

/-- The pieces of the directive that begins a text, and what follows it. -/
def directive? (s : Text) : Option (List Piece × Text) := do
  let afterOpening ← Text.after? Directive.opening s
  let opening : Piece := ⟨.mark, Directive.opening⟩
  let closing : Piece := ⟨.mark, Directive.terminator⟩
  match Text.after? Kind.incl.word afterOpening with
  | some rest =>
    let space := Text.leadingBlanks rest
    if space.isEmpty then none
    else
      let (body, rest) ← Directive.untilTerminator (Text.trimLeft rest)
      let target := Text.trimRight body
      some (opening :: ⟨.keyword, Kind.incl.word⟩ :: ⟨.space, space⟩ :: piece .target target ++
        piece .space (body.drop target.length) ++ [closing], rest)
  | none =>
    let (kind, rest) ← Directive.keyword? afterOpening
    let space := Text.leadingBlanks rest
    if space.isEmpty then none
    else
      let (code, rest) ← Directive.untilTerminator (Text.trimLeft rest)
      some ([opening, ⟨.keyword, kind.word⟩, ⟨.space, space⟩, ⟨.code, code⟩, closing], rest)

private theorem flatten_piece (style : Style) (s : Text) : (piece style s).flatMap (·.text) = s := by
  unfold piece
  split
  · next h => simp_all
  · simp

theorem trimRight_append_drop (s : Text) :
    Text.trimRight s ++ s.drop (Text.trimRight s).length = s := by
  have h : Text.trimRight s <+: s := by
    have := List.reverse_prefix.2 (List.dropWhile_suffix Text.isBlank (l := s.reverse))
    simpa [Text.trimRight] using this
  exact List.prefix_iff_eq_append.1 h

private theorem flatten_directive {s rest : Text} {ps : List Piece}
    (h : directive? s = some (ps, rest)) : ps.flatMap (·.text) ++ rest = s := by
  simp only [directive?, Option.bind_eq_bind, Option.bind_eq_some_iff] at h
  obtain ⟨a, ha, h⟩ := h
  rw [Text.after?_eq_some_iff.1 ha]
  split at h
  · next r hr =>
    rw [Text.after?_eq_some_iff.1 hr]
    split at h
    · cases h
    · simp only [Option.bind_eq_some_iff] at h
      obtain ⟨⟨body, after⟩, hb, h⟩ := h
      cases h
      have h1 := Directive.untilTerminator_append hb
      have h2 := Text.leadingBlanks_append_trimLeft r
      have h3 := trimRight_append_drop body
      rw [h1] at h2
      simp only [List.flatMap_cons, List.flatMap_append, flatten_piece, List.cons_append,
        List.flatMap_nil, List.append_nil, List.append_assoc]
      conv => rhs; rw [← h2, ← h3]
      simp
  · simp only [Option.bind_eq_some_iff] at h
    obtain ⟨⟨k, r⟩, hk, h⟩ := h
    have h0 := Directive.keyword?_append hk
    split at h
    · cases h
    · simp only [Option.bind_eq_some_iff] at h
      obtain ⟨⟨code, after⟩, hb, h⟩ := h
      cases h
      have h1 := Directive.untilTerminator_append hb
      have h2 := Text.leadingBlanks_append_trimLeft r
      rw [h1] at h2
      simp only [List.flatMap_cons, List.flatMap_nil, List.append_nil, List.append_assoc]
      rw [h0]
      conv => rhs; rw [← h2]
      simp

private theorem length_directive_lt {s rest : Text} {ps : List Piece}
    (h : directive? s = some (ps, rest)) : rest.length < s.length := by
  have h1 := congrArg List.length (flatten_directive h)
  simp only [directive?, Option.bind_eq_bind, Option.bind_eq_some_iff] at h
  obtain ⟨a, ha, h⟩ := h
  have h2 : ∃ qs, ps = ⟨.mark, Directive.opening⟩ :: qs := by
    split at h
    · split at h
      · cases h
      · simp only [Option.bind_eq_some_iff] at h
        obtain ⟨_, _, h⟩ := h
        cases h
        exact ⟨_, rfl⟩
    · simp only [Option.bind_eq_some_iff] at h
      obtain ⟨_, _, h⟩ := h
      split at h
      · cases h
      · simp only [Option.bind_eq_some_iff] at h
        obtain ⟨_, _, h⟩ := h
        cases h
        exact ⟨_, rfl⟩
  obtain ⟨qs, rfl⟩ := h2
  simp only [List.flatMap_cons, List.length_append, Directive.length_opening] at h1
  omega

/-- Whether a character opens no directive. -/
def isPlain (c : Char) : Bool := c != '<'

/-- The pieces of a page. -/
def pieces (s : Text) : List Piece :=
  match s with
  | [] => []
  | c :: t =>
    if c = '<' then
      match h : directive? (c :: t) with
      | some (ps, rest) =>
        have := length_directive_lt h
        ps ++ pieces rest
      | none => ⟨.text, [c]⟩ :: pieces t
    else
      have : (t.dropWhile isPlain).length ≤ t.length := (List.dropWhile_suffix _).length_le
      ⟨.text, c :: t.takeWhile isPlain⟩ :: pieces (t.dropWhile isPlain)
termination_by s.length
decreasing_by
  · exact this
  · exact Nat.lt_succ_self _
  · exact Nat.lt_succ_of_le this

/-- The pieces of a page are all of it. -/
theorem flatten_pieces (s : Text) : (pieces s).flatMap (·.text) = s := by
  fun_induction pieces s with
  | case1 => rfl
  | case2 t ps rest h _ ih => simp [ih, flatten_directive h]
  | case3 t h ih => simp [ih]
  | case4 c t hc _ ih => simp [ih, List.takeWhile_append_dropWhile]

end Highlight

end ServerPages
