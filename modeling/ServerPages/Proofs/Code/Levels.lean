import ServerPages.Proofs.Code.Steps

/-!
# The level at which code leaves off

What follows code must stand at an indentation that is open behind its last statement. The tokens
tell which are open (`openLevels`), and the column at which code leaves off is counted in
characters: those before the last statement, or those before a comment behind it.

The innermost level is the width of the white space that begins the last statement's line, tabs
counted up to their stops. So the column is an open level if that white space is as wide as it is
long, as spaces are, unless a comment behind the statement stands elsewhere
(`column_mem_openLevels_iff`).
-/

namespace ServerPages

namespace Code

/-! ### What tokens tell -/

/-- The widths that are open after one more token. -/
def levelsStep (levels : List Nat) (t : Token) : List Nat :=
  match t.kind with
  | .indent => (margin t.text).width :: levels
  | .dedent => levels.tail
  | _ => levels

/-- The widths of the indentations that are open behind tokens, the innermost first; the last is 0,
which is always open. -/
def openLevels (ts : List Token) : List Nat := ts.foldl levelsStep [0]

/-- The token that begins the statement at hand after one more token. -/
def startStep (start : Option Token) (t : Token) : Option Token :=
  if t.kind = .newline then none else if t.isSignificant then start.or (some t) else start

/-- The token that begins the statement at hand, none between statements. -/
def statementStart (ts : List Token) : Option Token := ts.foldl startStep none

/-- By how much a token changes the number of open brackets. -/
def Token.bracket (t : Token) : Int :=
  if t.kind = .operator then
    if t.text ∈ [['('], ['['], ['\x7b']] then 1
    else if t.text ∈ [[')'], [']'], ['\x7d']] then -1
    else 0
  else 0

/-- How many more brackets tokens open than close. -/
def bracketDepth (ts : List Token) : Int := ts.foldr (fun t depth => t.bracket + depth) 0

/-- The last comment with a line of its own among the tokens behind a statement. -/
def commentBehind (behind : List Token) : Option Token :=
  ((behind.dropWhile (·.kind ≠ .newline)).filter (·.kind = .comment)).getLast?

/-- The white space that begins the line on which a token stands. -/
def indentation (code : Text) (t : Token) : Text :=
  ((Text.splitOn '\n' code).getD (t.line - 1) []).takeWhile isPad

/-- Whether a line holds a backslash and nothing else. -/
def isLoneBackslash (line : Text) : Bool :=
  line.dropWhile isPad = ['\\'] || line.dropWhile isPad = ['\\', '\r']

/-- Whether there is such a line before the one of a given number. -/
def followsBackslash (code : Text) (line : Nat) : Bool :=
  2 ≤ line && isLoneBackslash ((Text.splitOn '\n' code).getD (line - 2) [])

variable {ts us past before behind marks : List Token} {t last first : Token}
  {st after : LexState} {s code consumed lead a b : Text} {m : Margin}

theorem Token.isSignificant_iff :
    t.isSignificant = true ↔ t.kind ∈ [.name, .number, .string, .operator, .stray] := by
  unfold Token.isSignificant
  cases t.kind <;> simp

private theorem openLevels_append : openLevels (ts ++ us) = us.foldl levelsStep (openLevels ts) :=
  List.foldl_append

private theorem openLevels_append_singleton (hindent : t.kind ≠ .indent) (hdedent : t.kind ≠ .dedent) :
    openLevels (ts ++ [t]) = openLevels ts := by
  rw [openLevels_append, List.foldl_cons, List.foldl_nil, levelsStep]
  cases hkind : t.kind <;> simp_all

private theorem statementStart_append :
    statementStart (ts ++ us) = us.foldl startStep (statementStart ts) :=
  List.foldl_append

private theorem bracketDepth_append : bracketDepth (ts ++ us) = bracketDepth ts + bracketDepth us := by
  induction ts with
  | nil => exact (Int.zero_add _).symm
  | cons t ts ih =>
    simp only [bracketDepth, List.cons_append, List.foldr_cons] at ih ⊢
    rw [ih, Int.add_assoc]

private theorem bracketDepth_singleton (t : Token) : bracketDepth [t] = t.bracket := Int.add_zero _

/-! ### What has been seen of a statement and of what stands behind it -/

namespace Tail

/-- What has been seen agrees with the token that begins the statement at hand. -/
structure Seen.Agrees (seen : Seen) (start : Option Token) : Prop where
  atStart_eq : seen.atStart = start.isNone
  column_eq : ∀ first ∈ start, seen.column = first.column

theorem Seen.Agrees.step {seen : Seen} {start : Option Token} (h : seen.Agrees start) (t : Token) :
    (seen.step t).Agrees (startStep start t) := by
  obtain ⟨hstart, hcolumn⟩ := h
  cases hkind : t.kind <;> simp only [Seen.step, startStep, Token.isSignificant, hkind]
  case comment =>
    split <;> exact ⟨hstart, hcolumn⟩
  case newline => exact ⟨rfl, by simp⟩
  case blankLine | indent | dedent => exact ⟨hstart, hcolumn⟩
  case name | number | string | operator | stray =>
    cases start with
    | none => exact ⟨rfl, by simp_all⟩
    | some first => exact ⟨rfl, by simp_all⟩

theorem Seen.Agrees.foldl {seen : Seen} {start : Option Token} (h : seen.Agrees start)
    (ts : List Token) : (ts.foldl Seen.step seen).Agrees (ts.foldl startStep start) := by
  induction ts generalizing seen start with
  | nil => exact h
  | cons t ts ih => exact ih (h.step t)

/-- What stands behind a statement changes neither its place nor its last token. -/
theorem Seen.foldl_behind (seen : Seen) (hbehind : ∀ t ∈ behind, t.isSignificant = false) :
    (behind.foldl Seen.step seen).last = seen.last ∧
      (behind.foldl Seen.step seen).column = seen.column := by
  induction behind generalizing seen with
  | nil => exact ⟨rfl, rfl⟩
  | cons t behind ih =>
    rw [List.forall_mem_cons] at hbehind
    have hstep : (seen.step t).last = seen.last ∧ (seen.step t).column = seen.column := by
      cases hkind : t.kind <;> simp_all [Seen.step, Token.isSignificant]
      split <;> simp
    obtain ⟨hlast, hcolumn⟩ := ih (seen.step t) hbehind.2
    exact ⟨hlast.trans hstep.1, hcolumn.trans hstep.2⟩

/-- Between statements each comment is kept in the place of the one before it. -/
theorem Seen.comment_foldl_of_atStart {seen : Seen} (hstart : seen.atStart = true)
    (hbehind : ∀ t ∈ behind, t.isSignificant = false) :
    (behind.foldl Seen.step seen).comment =
      ((behind.filter (·.kind = .comment)).getLast?.map Token.column).or seen.comment := by
  induction behind generalizing seen with
  | nil => rfl
  | cons t behind ih =>
    rw [List.forall_mem_cons] at hbehind
    have hstep : (seen.step t).atStart = true ∧
        (seen.step t).comment = if t.kind = .comment then some t.column else seen.comment := by
      cases hkind : t.kind <;> simp_all [Seen.step, Token.isSignificant]
    rw [List.foldl_cons, ih hstep.1 hbehind.2, hstep.2]
    by_cases hkind : t.kind = .comment
    · rw [List.filter_cons_of_pos (by simpa using hkind), if_pos hkind, List.getLast?_cons]
      cases (behind.filter (·.kind = .comment)).getLast? <;> rfl
    · rw [List.filter_cons_of_neg (by simpa using hkind), if_neg hkind]

/-- Behind a statement the last comment with a line of its own is kept. -/
theorem Seen.comment_foldl {seen : Seen} (hstart : seen.atStart = false)
    (hcomment : seen.comment = none) (hbehind : ∀ t ∈ behind, t.isSignificant = false) :
    (behind.foldl Seen.step seen).comment = (commentBehind behind).map Token.column := by
  induction behind generalizing seen with
  | nil => exact hcomment
  | cons t behind ih =>
    rw [List.forall_mem_cons] at hbehind
    by_cases hkind : t.kind = .newline
    · have hstep : (seen.step t).atStart = true ∧ (seen.step t).comment = none := by
        simp [Seen.step, hkind, hcomment]
      rw [List.foldl_cons, Seen.comment_foldl_of_atStart hstep.1 hbehind.2, hstep.2, commentBehind,
        List.dropWhile_cons_of_neg (by simpa using hkind),
        List.filter_cons_of_neg (by simp [hkind])]
      simp
    · have hstep : (seen.step t).atStart = false ∧ (seen.step t).comment = none := by
        cases hkind : t.kind <;> simp_all [Seen.step, Token.isSignificant]
      rw [List.foldl_cons, ih hstep.1 hstep.2 hbehind.2, commentBehind, commentBehind,
        List.dropWhile_cons_of_pos (by simpa using hkind)]

/-- **Where code leaves off** that ends with a statement: at the last comment behind it, or else
where the statement begins. -/
theorem column_ofCode_eq (htokens : tokens code = (before ++ last :: behind, none))
    (hlast : last.isSignificant = true) (hcolon : last.isOperator ":" = false)
    (hbehind : ∀ t ∈ behind, t.isSignificant = false)
    (hfirst : statementStart (before ++ [last]) = some first) :
    (ofCode code).column = ((commentBehind behind).getD first).column := by
  have hagrees : ((before ++ [last]).foldl Seen.step {}).Agrees (some first) :=
    hfirst ▸ Seen.Agrees.foldl ⟨rfl, by simp⟩ (before ++ [last])
  have hkept : ((before ++ [last]).foldl Seen.step {}).last = some last ∧
      ((before ++ [last]).foldl Seen.step {}).comment = none := by
    rw [List.foldl_append, List.foldl_cons, List.foldl_nil]
    cases hkind : last.kind <;> simp_all [Seen.step, Token.isSignificant]
  have hsplit : before ++ last :: behind = (before ++ [last]) ++ behind := by simp
  obtain ⟨hlast', hcolumn⟩ :=
    Seen.foldl_behind ((before ++ [last]).foldl Seen.step {}) hbehind
  have hcomment := Seen.comment_foldl hagrees.atStart_eq hkept.2 hbehind
  rw [ofCode, htokens, hsplit]
  dsimp only
  rw [List.foldl_append]
  simp only [hlast', hkept.1, hcolon, hcolumn, hcomment, hagrees.column_eq first rfl]
  cases commentBehind behind <;> rfl

end Tail

/-! ### One step -/

theorem LexState.line_advance (st : LexState) (s : Text) :
    (st.advance s).line = st.line + s.count '\n' := by
  unfold LexState.advance
  dsimp only
  split
  · next h => rw [h, Nat.add_zero]
  · rfl

@[simp]
theorem LexState.indents_advance (st : LexState) (s : Text) :
    (st.advance s).indents = st.indents := by
  unfold LexState.advance
  dsimp only
  split <;> rfl

private theorem LexState.column_advance (h : st.column = (Text.lastPiece '\n' a).length) :
    (st.advance b).column = (Text.lastPiece '\n' (a ++ b)).length := by
  unfold LexState.advance
  dsimp only
  split
  · next hcount =>
    rw [Text.lastPiece_append (List.count_eq_zero.mp hcount), List.length_append, h]
  · next hcount =>
    obtain hb | ⟨r, u, rfl, hu⟩ := Text.not_mem_or_eq_append_cons '\n' b
    · exact absurd (List.count_eq_zero.mpr hb) hcount
    · rw [Text.lastPiece_append_cons hu, ← List.append_assoc, Text.lastPiece_append_cons hu]

/-- A state that stands behind a part of code. -/
structure LexState.Behind (st : LexState) (consumed : Text) : Prop where
  line_eq : st.line = consumed.count '\n' + 1
  column_eq : st.column = (Text.lastPiece '\n' consumed).length

theorem LexState.Behind.advance (h : st.Behind a) (b : Text) : (st.advance b).Behind (a ++ b) := by
  refine ⟨?_, LexState.column_advance h.column_eq⟩
  rw [LexState.line_advance, h.line_eq, List.count_append]
  omega

theorem margin_takeWhile (s : Text) : margin (s.takeWhile isPad) = margin s := by
  have h : (s.takeWhile isPad).takeWhile isPad = s.takeWhile isPad :=
    List.takeWhile_eq_self_iff.mpr fun c hc => List.mem_takeWhile_imp hc
  rw [margin, h]
  rfl

private theorem foldl_levelsStep_dedent (ht : t.kind = .dedent) (k : Nat) (levels : List Nat) :
    (List.replicate k t).foldl levelsStep levels = levels.drop k := by
  induction k generalizing levels with
  | zero => rfl
  | succ k ih =>
    rw [List.replicate_succ, List.foldl_cons, levelsStep, ht, ih]
    simp

/-- The change of indentation before a statement leaves the statement's own width innermost. -/
theorem LexState.settle_levels
    (h : st.settle false (margin s) (s.takeWhile isPad) = .ok (marks, after)) :
    (∀ t ∈ marks, t.kind = .indent ∨ t.kind = .dedent) ∧
      after.line = st.line ∧ after.column = st.column ∧ after.depth = st.depth ∧
      marks.foldl levelsStep (st.indents.map Prod.fst ++ [0]) =
        after.indents.map Prod.fst ++ [0] ∧
      (after.indents.map Prod.fst ++ [0]).head? = some (margin (s.takeWhile isPad)).width := by
  rw [margin_takeWhile]
  simp only [LexState.settle, Bool.false_eq_true, false_and, if_false] at h
  split at h
  · cases h
    exact ⟨by simp, rfl, rfl, rfl, by simp [levelsStep, margin_takeWhile], rfl⟩
  · have hsplit := List.takeWhile_append_dropWhile (p := fun i => decide ((margin s).width < i.1))
      (l := st.indents)
    generalize st.indents.takeWhile (fun i => decide ((margin s).width < i.1)) = closed at hsplit
    generalize st.indents.dropWhile (fun i => decide ((margin s).width < i.1)) = kept at hsplit h
    split at h
    · cases h
    · next hwidth =>
      cases h
      refine ⟨fun t ht => .inr (by rw [List.eq_of_mem_replicate ht]; rfl), rfl, rfl, rfl, ?_, ?_⟩
      · rw [foldl_levelsStep_dedent rfl, ← hsplit]
        simp
      · rw [not_not] at hwidth
        rw [← hwidth]
        cases kept <;> rfl

/-- An operator changes how many brackets are open, and nothing else counts. -/
theorem LexState.bracket_depth {op : Text} (h : st.bracket false op = .ok after) :
    after.line = st.line ∧ after.column = st.column ∧ after.indents = st.indents ∧
      after.depth = st.depth + (st.token .operator op).bracket := by
  unfold LexState.bracket at h
  split at h
  · next c =>
    split at h
    · next hopen =>
      cases h
      refine ⟨rfl, rfl, rfl, ?_⟩
      obtain rfl | rfl | rfl := hopen <;> rfl
    · next hopen =>
      split at h
      · next hclose =>
        have hbracket : (st.token .operator [c]).bracket = -1 := by
          obtain rfl | rfl | rfl := hclose <;> rfl
        rw [hbracket]
        split at h
        · cases h
          exact ⟨rfl, rfl, rfl, rfl⟩
        · cases h
          exact ⟨rfl, rfl, rfl, rfl⟩
      · next hclose =>
        cases h
        simp_all [Token.bracket, LexState.token]
  · next hop =>
    cases h
    have hbracket : (st.token .operator op).bracket = 0 := by
      have hone : ∀ c, op ≠ [c] := fun c hc => hop c hc
      simp [Token.bracket, LexState.token, hone]
    rw [hbracket]
    exact ⟨rfl, rfl, rfl, (Int.add_zero _).symm⟩

theorem LexState.token_depth {kind : TokenKind} {w : Text}
    (h : (if kind = .operator then st.bracket false w else .ok st) = .ok after) :
    after.line = st.line ∧ after.column = st.column ∧ after.indents = st.indents ∧
      after.depth = st.depth + (st.token kind w).bracket := by
  split at h
  · next hkind => exact hkind ▸ LexState.bracket_depth h
  · next hkind =>
    cases h
    simp [Token.bracket, LexState.token, hkind]

/-! ### Tokens that pass by -/

/-- A token that is no part of a statement: it changes at most the indentation. -/
def Token.IsAside (t : Token) : Prop :=
  t.kind = .comment ∨ t.kind = .blankLine ∨ t.kind = .indent ∨ t.kind = .dedent

theorem Token.IsAside.isSignificant (h : t.IsAside) : t.isSignificant = false := by
  obtain h | h | h | h := h <;> simp [Token.isSignificant, h]

private theorem startStep_of_isSignificant (h : t.isSignificant = true) (start : Option Token) :
    startStep start t = start.or (some t) := by
  have hnewline : t.kind ≠ .newline := fun hkind => by simp [Token.isSignificant, hkind] at h
  rw [startStep, if_neg hnewline, if_pos h]

private theorem Token.IsAside.startStep (h : t.IsAside) (start : Option Token) :
    startStep start t = start := by
  obtain h | h | h | h := h <;> simp [Code.startStep, Token.isSignificant, h]

theorem Token.IsAside.bracket (h : t.IsAside) : t.bracket = 0 := by
  obtain h | h | h | h := h <;> simp [Token.bracket, h]

private theorem statementStart_aside (hmarks : ∀ t ∈ marks, t.IsAside) :
    statementStart (past ++ marks) = statementStart past := by
  rw [statementStart_append]
  generalize statementStart past = start
  induction marks with
  | nil => rfl
  | cons t marks ih =>
    rw [List.forall_mem_cons] at hmarks
    rw [List.foldl_cons, hmarks.1.startStep, ih hmarks.2]

private theorem bracketDepth_aside (hmarks : ∀ t ∈ marks, t.IsAside) :
    bracketDepth (past ++ marks) = bracketDepth past := by
  have hzero : bracketDepth marks = 0 := by
    induction marks with
    | nil => rfl
    | cons t marks ih =>
      rw [List.forall_mem_cons] at hmarks
      rw [bracketDepth, List.foldr_cons, hmarks.1.bracket, Int.zero_add]
      exact ih hmarks.2
  rw [bracketDepth_append, hzero, Int.add_zero]

/-- Where a statement's token stands behind such tokens. -/
theorem exists_of_append_eq (hmarks : ∀ t ∈ marks, t.IsAside) (h : marks ++ ts = before ++ t :: us)
    (ht : t.isSignificant = true) : ∃ rest, before = marks ++ rest ∧ ts = rest ++ t :: us := by
  obtain ⟨rest, hbefore, hts⟩ | ⟨rest, hmarks', hts⟩ := List.append_eq_append_iff.mp h
  · exact ⟨rest, hbefore, hts⟩
  · cases rest with
    | nil => exact ⟨[], by simpa using hmarks'.symm, by simpa using hts.symm⟩
    | cons u rest =>
      obtain ⟨rfl, -⟩ := List.cons.inj hts
      have haside := hmarks t (by simp [hmarks'])
      rw [haside.isSignificant] at ht
      cases ht

/-! ### Runs -/

/-- What is known of the token that begins a statement: before it on its line stands white space
only, and the innermost level is the width of that, unless a lone backslash continues the line
before. -/
structure Begins (code : Text) (levels : List Nat) (first : Token) : Prop where
  column_eq : first.column = (indentation code first).length
  head_eq : followsBackslash code first.line = false →
    levels.head? = some (margin (indentation code first)).width

/-- Inside a line but between statements, the line ends, or what may come is the first token of a
statement. -/
def Ready (consumed s : Text) (levels : List Nat) : Prop :=
  (∀ c ∈ s.head?, c = '\r' ∨ c = '\n') ∨
    (∀ c ∈ Text.lastPiece '\n' consumed, isPad c = true) ∧
      ((∀ c ∈ s.head?, isPad c = false) ∧
          levels.head? = some (margin (Text.lastPiece '\n' consumed)).width ∨
        Text.lastPiece '\n' consumed = [] ∧
          followsBackslash (consumed ++ s) (consumed.count '\n' + 1) = true)

/-- What the tokens that have been read say about where reading stands. -/
structure Follows (consumed s : Text) (past : List Token) (st : LexState) (fresh : Bool) :
    Prop where
  behind : st.Behind consumed
  levels_eq : openLevels past = st.indents.map Prod.fst ++ [0]
  depth_eq : bracketDepth past = st.depth
  inside : st.depth ≠ 0 → statementStart past ≠ none
  atLine : fresh = true → Text.lastPiece '\n' consumed = [] ∧
    (st.depth = 0 → statementStart past = none)
  ready : fresh = false → statementStart past = none → Ready consumed s (openLevels past)
  begins : ∀ first, statementStart past = some first →
    Begins (consumed ++ s) (openLevels past) first

variable {fresh : Bool} {f : Option LexFault} {c : Char} {n : Nat} {line rest : Text}
  {kind : TokenKind}

theorem Follows.bracketed (h : Follows consumed s past st true) (hdepth : st.depth ≠ 0) :
    Follows consumed s past st false where
  behind := h.behind
  levels_eq := h.levels_eq
  depth_eq := h.depth_eq
  inside := h.inside
  atLine := by simp
  ready := fun _ hnone => absurd hnone (h.inside hdepth)
  begins := h.begins

theorem LexState.blankTokens_aside (st : LexState) (line : Text) :
    ∀ t ∈ st.blankTokens line, t.IsAside := by
  intro t ht
  rw [LexState.blankTokens] at ht
  split at ht <;> simp at ht
  · exact .inr (.inl (by rw [ht]; rfl))
  · obtain rfl | rfl := ht
    · exact .inl rfl
    · exact .inr (.inl rfl)

private theorem openLevels_blankTokens (st : LexState) (line : Text) :
    openLevels (past ++ st.blankTokens line) = openLevels past := by
  rw [openLevels_append, LexState.blankTokens]
  split <;> rfl

theorem Follows.blank (h : Follows consumed s past st true) (hdepth : st.depth = 0)
    (line rest : Text) :
    Follows (consumed ++ s.takeWhile isPad ++ (line ++ ['\n'])) rest
      (past ++ (st.advance (s.takeWhile isPad)).blankTokens line)
      ((st.advance (s.takeWhile isPad)).advance (line ++ ['\n'])) true where
  behind := (h.behind.advance _).advance _
  levels_eq := by
    rw [openLevels_blankTokens, h.levels_eq, LexState.indents_advance, LexState.indents_advance]
  depth_eq := by
    rw [bracketDepth_aside (LexState.blankTokens_aside _ _), h.depth_eq, LexState.depth_advance,
      LexState.depth_advance]
  inside := by simp [hdepth]
  atLine := by
    intro _
    rw [statementStart_aside (LexState.blankTokens_aside _ _), ← List.append_assoc,
      Text.lastPiece_append_cons (by simp)]
    exact ⟨rfl, fun _ => (h.atLine rfl).2 hdepth⟩
  ready := by simp
  begins := by
    intro first hfirst
    rw [statementStart_aside (LexState.blankTokens_aside _ _), (h.atLine rfl).2 hdepth] at hfirst
    cases hfirst

theorem Follows.settled (h : Follows consumed s past st true) (hdepth : st.depth = 0) {t : Text}
    (hs : s.dropWhile isPad = c :: t)
    (hsettle : (st.advance (s.takeWhile isPad)).settle false (margin s) (s.takeWhile isPad) =
      .ok (marks, after)) :
    (∀ t ∈ marks, t.IsAside) ∧
      Follows (consumed ++ s.takeWhile isPad) (c :: t) (past ++ marks) after false := by
  obtain ⟨hmarks, hline, hcolumn, hafter, hlevels, hhead⟩ := LexState.settle_levels hsettle
  have haside : ∀ t ∈ marks, t.IsAside := fun t ht => .inr (.inr (hmarks t ht))
  have hpad : isPad c = false := isPad_of_dropWhile hs
  have hpads : ∀ c ∈ s.takeWhile isPad, isPad c = true := fun c hc => List.mem_takeWhile_imp hc
  have hnewline : '\n' ∉ s.takeWhile isPad := newline_not_mem_takeWhile s
  rw [LexState.indents_advance] at hlevels
  have hopen : openLevels (past ++ marks) = after.indents.map Prod.fst ++ [0] := by
    rw [openLevels_append, h.levels_eq, hlevels]
  have hbehind := h.behind.advance (s.takeWhile isPad)
  refine ⟨haside, ?_⟩
  exact {
    behind := ⟨hline.trans hbehind.line_eq, hcolumn.trans hbehind.column_eq⟩
    levels_eq := hopen
    depth_eq := by rw [bracketDepth_aside haside, h.depth_eq, hafter, LexState.depth_advance]
    inside := by simp [hafter, hdepth]
    atLine := by simp
    ready := by
      intro _ _
      have hlast : Text.lastPiece '\n' (consumed ++ s.takeWhile isPad) = s.takeWhile isPad := by
        rw [Text.lastPiece_append hnewline, (h.atLine rfl).1, List.nil_append]
      rw [Ready, hlast, hopen, hhead]
      exact .inr ⟨hpads, .inl ⟨by simpa using hpad, rfl⟩⟩
    begins := by
      intro first hfirst
      rw [statementStart_aside haside, (h.atLine rfl).2 hdepth] at hfirst
      cases hfirst }

theorem consumed_append_spelled (consumed : Text) {t : Text} (hs : s.dropWhile isPad = c :: t)
    (n : Nat) :
    consumed ++ s.takeWhile isPad ++ (c :: t.take (n - 1)) ++ t.drop (n - 1) = consumed ++ s := by
  rw [List.append_assoc, List.append_assoc, List.cons_append, List.take_append_drop, ← hs,
    List.takeWhile_append_dropWhile]

/-- At the end of a line a statement ends, unless brackets are open. -/
theorem Follows.lineEnd (h : Follows consumed s past st false) {t : Text}
    (hdepth : 0 ≤ st.depth) (hs : s.dropWhile isPad = c :: t)
    (hlex : lexeme .lenient (c :: t) = .lineEnd n) :
    Follows (consumed ++ s.takeWhile isPad ++ (c :: t.take (n - 1))) (t.drop (n - 1))
      (past ++ [(st.advance (s.takeWhile isPad)).token
        (if 0 < st.depth then .blankLine else .newline) (c :: t.take (n - 1))])
      ((st.advance (s.takeWhile isPad)).advance (c :: t.take (n - 1))) true := by
  obtain ⟨w, -, hspelled, -⟩ := eq_of_lexeme_lineEnd hlex
  have hlast : Text.lastPiece '\n'
      (consumed ++ s.takeWhile isPad ++ (c :: t.take (n - 1))) = [] := by
    rw [hspelled, ← List.append_assoc, Text.lastPiece_append_cons (by simp)]
  generalize htok : (st.advance (s.takeWhile isPad)).token
    (if 0 < st.depth then .blankLine else .newline) (c :: t.take (n - 1)) = tok
  have hkind : tok.kind = if 0 < st.depth then .blankLine else .newline := by rw [← htok]; rfl
  have hlevels : openLevels (past ++ [tok]) = openLevels past := by
    refine openLevels_append_singleton ?_ ?_ <;> rw [hkind] <;> split <;> simp
  have hstart : statementStart (past ++ [tok]) =
      if 0 < st.depth then statementStart past else none := by
    rw [statementStart_append, List.foldl_cons, List.foldl_nil, startStep, Token.isSignificant, hkind]
    split <;> simp
  have hdepth' : bracketDepth (past ++ [tok]) = bracketDepth past := by
    have hzero : tok.bracket = 0 := by
      rw [Token.bracket, hkind]
      split <;> rfl
    rw [bracketDepth_append, bracketDepth_singleton, hzero, Int.add_zero]
  exact {
    behind := (h.behind.advance _).advance _
    levels_eq := by rw [hlevels, h.levels_eq, LexState.indents_advance, LexState.indents_advance]
    depth_eq := by rw [hdepth', h.depth_eq, LexState.depth_advance, LexState.depth_advance]
    inside := by
      rw [LexState.depth_advance, LexState.depth_advance, hstart]
      intro hne
      rw [if_pos (by omega)]
      exact h.inside hne
    atLine := by
      rw [LexState.depth_advance, LexState.depth_advance, hstart]
      exact fun _ => ⟨hlast, fun hzero => if_neg (by omega)⟩
    ready := by simp
    begins := by
      intro first hfirst
      rw [hstart, Option.ite_none_right_eq_some] at hfirst
      rw [hlevels, consumed_append_spelled _ hs n]
      exact h.begins first hfirst.2 }

/-- Where a line ends nothing else begins. -/
theorem eq_of_dropWhile_lineEnd {t : Text} (hend : ∀ c ∈ s.head?, c = '\r' ∨ c = '\n')
    (hs : s.dropWhile isPad = c :: t) : c = '\r' ∨ c = '\n' := by
  cases s with
  | nil => cases hs
  | cons d s =>
    have hd : d = '\r' ∨ d = '\n' := hend d rfl
    have hpad : isPad d = false := by obtain rfl | rfl := hd <;> rfl
    rw [List.dropWhile_cons_of_neg (by simp [hpad])] at hs
    exact (List.cons.inj hs).1 ▸ hd

/-- Behind a continued line the white space of the next one is no margin. -/
theorem Follows.continued (h : Follows consumed s past st false) {t : Text}
    (hs : s.dropWhile isPad = c :: t) (hlex : lexeme .lenient (c :: t) = .continuation n) :
    Follows (consumed ++ s.takeWhile isPad ++ (c :: t.take (n - 1))) (t.drop (n - 1)) past
      ((st.advance (s.takeWhile isPad)).advance (c :: t.take (n - 1))) false := by
  obtain ⟨w, hw, hspelled, hct⟩ := eq_of_lexeme_continuation hlex
  have hsplit : s.takeWhile isPad ++ c :: t = s := takeWhile_append_rest hs
  have hwline : '\n' ∉ w := hw.newline_not_mem
  have hlast : Text.lastPiece '\n'
      (consumed ++ s.takeWhile isPad ++ (c :: t.take (n - 1))) = [] := by
    rw [hspelled, ← List.append_assoc, Text.lastPiece_append_cons (by simp)]
  have hcount : (consumed ++ s.takeWhile isPad ++ (c :: t.take (n - 1))).count '\n' =
      consumed.count '\n' + 1 := by
    rw [hspelled]
    simp [List.count_eq_zero.mpr (newline_not_mem_takeWhile s), List.count_eq_zero.mpr hwline]
  exact {
    behind := (h.behind.advance _).advance _
    levels_eq := by rw [h.levels_eq, LexState.indents_advance, LexState.indents_advance]
    depth_eq := by rw [h.depth_eq, LexState.depth_advance, LexState.depth_advance]
    inside := by
      rw [LexState.depth_advance, LexState.depth_advance]
      exact h.inside
    atLine := by simp
    ready := by
      intro _ hnone
      have hback : c = '\\' := (List.cons.inj hct).1
      obtain hend | ⟨hpads, -⟩ := h.ready rfl hnone
      · -- a line that ends here is not continued
        obtain hc | hc := eq_of_dropWhile_lineEnd hend hs <;> rw [hback] at hc <;> cases hc
      · have hline := consumed_append_spelled consumed hs n
        have htake : s.takeWhile (· ≠ '\n') = s.takeWhile isPad ++ '\\' :: w := by
          have hnot : '\n' ∉ s.takeWhile isPad ++ '\\' :: w := by
            simp [newline_not_mem_takeWhile s, hwline]
          have htake := LineEnds.takeWhile_line hnot (.newline (t.drop (n - 1)))
          rwa [List.append_assoc, ← hct, hsplit] at htake
        have hdrop : (Text.lastPiece '\n' consumed ++ (s.takeWhile isPad ++ '\\' :: w)).dropWhile
            isPad = '\\' :: w := by
          rw [List.dropWhile_append_of_pos hpads,
            List.dropWhile_append_of_pos fun c hc => List.mem_takeWhile_imp hc]
          rfl
        rw [Ready, hlast, hline, hcount, followsBackslash]
        refine .inr ⟨by simp, .inr ⟨rfl, ?_⟩⟩
        rw [Nat.add_sub_add_right, Nat.add_sub_cancel, Text.splitOn_append_getD, htake,
          isLoneBackslash, hdrop]
        obtain rfl | rfl := hw <;> simp
    begins := by
      intro first hfirst
      rw [consumed_append_spelled _ hs n]
      exact h.begins first hfirst }

/-- The first token of a statement that begins here. -/
theorem Follows.begins_of_ready (h : Follows consumed s past st false) {t : Text}
    (hs : s.dropWhile isPad = c :: t) (hnone : statementStart past = none)
    (hcode : codeLexeme (c :: t) = .token kind n) (spelled : Text) :
    Begins (consumed ++ s) (openLevels past)
      ((st.advance (s.takeWhile isPad)).token kind spelled) := by
  have hsplit : s.takeWhile isPad ++ c :: t = s := takeWhile_append_rest hs
  have hpad : isPad c = false := isPad_of_dropWhile hs
  have hnewline : '\n' ∉ s.takeWhile isPad := newline_not_mem_takeWhile s
  have hbehind := h.behind.advance (s.takeWhile isPad)
  have hcount : (consumed ++ s.takeWhile isPad).count '\n' = consumed.count '\n' := by
    rw [List.count_append, List.count_eq_zero.mpr hnewline, Nat.add_zero]
  obtain hend | ⟨hpads, hplace⟩ := h.ready rfl hnone
  · -- no code begins where a line ends
    have hblank : Text.isBlank c = true := by
      obtain rfl | rfl := eq_of_dropWhile_lineEnd hend hs <;> rfl
    cases (codeLexeme_of_isBlank hblank).symm.trans hcode
  · have hall : ∀ c ∈ Text.lastPiece '\n' consumed ++ s.takeWhile isPad, isPad c = true := by
      intro c hc
      obtain hc | hc := List.mem_append.mp hc
      · exact hpads c hc
      · exact List.mem_takeWhile_imp hc
    have hindentation : indentation (consumed ++ s)
        ((st.advance (s.takeWhile isPad)).token kind spelled) =
          Text.lastPiece '\n' consumed ++ s.takeWhile isPad := by
      have hline := Text.splitOn_append_getD '\n' (consumed ++ s.takeWhile isPad) (c :: t)
      rw [List.append_assoc, hsplit, Text.lastPiece_append hnewline] at hline
      rw [indentation, LexState.token]
      dsimp only
      rw [hbehind.line_eq, Nat.add_sub_cancel, hline, List.takeWhile_append_of_pos hall]
      have hrest : ((c :: t).takeWhile (· ≠ '\n')).takeWhile isPad = [] := by
        by_cases hc : c = '\n' <;> simp [hc, hpad]
      rw [hrest, List.append_nil]
    refine ⟨?_, fun hbackslash => ?_⟩
    · rw [hindentation, LexState.token]
      dsimp only
      rw [hbehind.column_eq, Text.lastPiece_append hnewline]
    · obtain ⟨hhead, hlevel⟩ | ⟨-, hlone⟩ := hplace
      · have hnil : s.takeWhile isPad = [] := by
          cases s with
          | nil => rfl
          | cons d s => rw [List.takeWhile_cons_of_neg (by simp [hhead d rfl])]
        rw [hindentation, hnil, List.append_nil, hlevel]
      · rw [LexState.token] at hbackslash
        dsimp only at hbackslash
        rw [hbehind.line_eq, hcount, hlone] at hbackslash
        cases hbackslash

/-- A token of code goes on with the statement at hand, or begins one. -/
theorem Follows.exists_first (h : Follows consumed s past st false) {t : Text}
    (hs : s.dropWhile isPad = c :: t) (hlex : lexeme .lenient (c :: t) = .token kind n)
    (hcomment : kind ≠ .comment) :
    ∃ first, statementStart (past ++ [(st.advance (s.takeWhile isPad)).token kind
      (c :: t.take (n - 1))]) = some first ∧ Begins (consumed ++ s) (openLevels past) first := by
  obtain ⟨hkind, -, -⟩ | ⟨hmem, -, hlexeme⟩ := eq_of_lexeme_token hlex
  · exact absurd hkind hcomment
  have hsignificant : ((st.advance (s.takeWhile isPad)).token kind
      (c :: t.take (n - 1))).isSignificant = true := Token.isSignificant_iff.mpr hmem
  rw [statementStart_append, List.foldl_cons, List.foldl_nil, startStep_of_isSignificant hsignificant]
  cases hnone : statementStart past with
  | none => exact ⟨_, rfl, h.begins_of_ready hs hnone hlexeme _⟩
  | some first => exact ⟨first, rfl, h.begins first hnone⟩

theorem Follows.token (h : Follows consumed s past st false) {t : Text}
    (hs : s.dropWhile isPad = c :: t) (hlex : lexeme .lenient (c :: t) = .token kind n)
    (hbracket : (if kind = .operator then
        (st.advance (s.takeWhile isPad)).bracket false (c :: t.take (n - 1))
      else .ok (st.advance (s.takeWhile isPad))) = .ok after) :
    Follows (consumed ++ s.takeWhile isPad ++ (c :: t.take (n - 1))) (t.drop (n - 1))
      (past ++ [(st.advance (s.takeWhile isPad)).token kind (c :: t.take (n - 1))])
      (after.advance (c :: t.take (n - 1))) false := by
  obtain ⟨hline, hcolumn, hindents, hdepth⟩ := LexState.token_depth hbracket
  have hfirst := h.exists_first hs hlex
  have hbehind := h.behind.advance (s.takeWhile isPad)
  have hbehind' : after.Behind (consumed ++ s.takeWhile isPad) :=
    ⟨hline.trans hbehind.line_eq, hcolumn.trans hbehind.column_eq⟩
  have hsame := consumed_append_spelled consumed hs n
  generalize htok : (st.advance (s.takeWhile isPad)).token kind (c :: t.take (n - 1)) = tok
    at hdepth hfirst ⊢
  have hkind : tok.kind = kind := by rw [← htok]; rfl
  have hkinds : kind ≠ .indent ∧ kind ≠ .dedent := by
    obtain ⟨rfl, -, -⟩ | ⟨hmem, -, -⟩ := eq_of_lexeme_token hlex
    · simp
    · refine ⟨?_, ?_⟩ <;> rintro rfl <;> simp at hmem
  have hlevels : openLevels (past ++ [tok]) = openLevels past :=
    openLevels_append_singleton (hkind ▸ hkinds.1) (hkind ▸ hkinds.2)
  have hdepth' : bracketDepth (past ++ [tok]) = after.depth := by
    rw [bracketDepth_append, h.depth_eq, hdepth, LexState.depth_advance, bracketDepth_singleton]
  have hindents' : openLevels (past ++ [tok]) = after.indents.map Prod.fst ++ [0] := by
    rw [hlevels, h.levels_eq, hindents, LexState.indents_advance]
  by_cases hcomment : kind = .comment
  · -- a comment leaves the statement as it is, and its line ends behind it
    obtain ⟨-, -, hrest⟩ | ⟨hmem, -, -⟩ := eq_of_lexeme_token hlex
    · have haside : ∀ u ∈ [tok], u.IsAside := by simp [Token.IsAside, hkind, hcomment]
      have hstart : statementStart (past ++ [tok]) = statementStart past :=
        statementStart_aside haside
      exact {
        behind := hbehind'.advance _
        levels_eq := by rw [hindents', LexState.indents_advance]
        depth_eq := by rw [hdepth', LexState.depth_advance]
        inside := by
          rw [LexState.depth_advance, hdepth, hstart, (haside tok (by simp)).bracket, Int.add_zero,
            LexState.depth_advance]
          exact h.inside
        atLine := by simp
        ready := by
          intro _ _
          refine .inl fun d hd => ?_
          rw [hrest] at hd
          have hhead := List.head?_dropWhile_not (fun c => c ≠ '\r' ∧ c ≠ '\n') t
          rw [hd] at hhead
          simpa [or_iff_not_imp_left] using hhead
        begins := by
          rw [hstart, hlevels, hsame]
          exact h.begins }
    · rw [hcomment] at hmem
      simp at hmem
  · obtain ⟨first, hstart, hbegins⟩ := hfirst hcomment
    exact {
      behind := hbehind'.advance _
      levels_eq := by rw [hindents', LexState.indents_advance]
      depth_eq := by rw [hdepth', LexState.depth_advance]
      inside := by simp [hstart]
      atLine := by simp
      ready := by simp [hstart]
      begins := by
        intro other hother
        rw [hlevels, hsame, ← Option.some.inj (hstart.symm.trans hother)]
        exact hbegins }

private theorem LexState.finish_aside (st : LexState) (continued : Bool) :
    ∀ t ∈ (st.finish continued).1, t.IsAside := by
  intro t ht
  rw [LexState.finish] at ht
  split at ht
  · cases ht
  · exact .inr (.inr (.inr (by rw [List.eq_of_mem_replicate ht]; rfl)))

private theorem Reads.aside_of_nil (h : Reads st true [] ts f) : ∀ t ∈ ts, t.IsAside := by
  generalize hs : ([] : Text) = s at h
  cases h with
  | ended => exact LexState.finish_aside st false
  | bracketed hne => exact absurd hs.symm hne
  | spare hne => exact absurd hs.symm hne
  | blank _ hdrop _ _ hidle =>
    subst hs
    rw [← hdrop] at hidle
    simp at hidle
  | settled _ hdrop => subst hs; cases hdrop
  | unsettled _ hdrop => subst hs; cases hdrop

/-- Brackets that are closed only after they are opened, also behind more tokens. -/
theorem bracketDepth_nonneg_behind (marks : List Token)
    (h : ∀ us, us <+: marks ++ ts → 0 ≤ bracketDepth (past ++ us)) :
    ∀ us, us <+: ts → 0 ≤ bracketDepth (past ++ marks ++ us) := by
  intro us hus
  rw [List.append_assoc]
  exact h _ ((List.prefix_append_right_inj marks).mpr hus)

/-- Each token of a statement among some tokens, which come behind others, has a first token of its
statement, and what is known of that. -/
def HaveBegun (code : Text) (past ts : List Token) : Prop :=
  ∀ before t us, ts = before ++ t :: us → t.isSignificant = true →
    ∃ first, statementStart (past ++ before ++ [t]) = some first ∧
      Begins code (openLevels (past ++ before)) first

private theorem HaveBegun.of_aside (h : ∀ t ∈ ts, t.isSignificant = false) : HaveBegun code past ts := by
  rintro before t us rfl ht
  rw [h t (by simp)] at ht
  cases ht

theorem HaveBegun.append (hmarks : ∀ t ∈ marks, t.IsAside)
    (h : HaveBegun code (past ++ marks) ts) : HaveBegun code past (marks ++ ts) := by
  intro before t us hts ht
  obtain ⟨before, rfl, rfl⟩ := exists_of_append_eq hmarks hts ht
  simpa using h before t us rfl ht

theorem HaveBegun.cons (hfirst : t.isSignificant = true → ∃ first,
      statementStart (past ++ [t]) = some first ∧ Begins code (openLevels past) first)
    (h : HaveBegun code (past ++ [t]) ts) : HaveBegun code past (t :: ts) := by
  intro before u us hts hu
  cases before with
  | nil =>
    obtain ⟨rfl, -⟩ := List.cons.inj hts
    simpa using hfirst hu
  | cons _ before =>
    obtain ⟨rfl, rfl⟩ := List.cons.inj hts
    simpa using h before u us rfl hu

private theorem LexState.not_isSignificant_finish (st : LexState) (continued : Bool) :
    ∀ t ∈ (st.finish continued).1, t.isSignificant = false :=
  fun t ht => (LexState.finish_aside st continued t ht).isSignificant

/-- **Every statement of code begins behind the white space of its line**, and the innermost level
that is open there is the width of it. -/
theorem Reads.haveBegun (h : Reads st fresh s ts f) (hf : Follows consumed s past st fresh)
    (hstray : ∀ t ∈ ts, t.kind ≠ .stray)
    (hbrackets : ∀ us, us <+: ts → 0 ≤ bracketDepth (past ++ us)) :
    HaveBegun (consumed ++ s) past ts := by
  induction h generalizing consumed past with
  | ended | spare => exact .of_aside (LexState.not_isSignificant_finish _ _)
  | unsettled | fault | broken => exact .of_aside nofun
  | bracketed hs hdepth h ih => exact ih (hf.bracketed hdepth) hstray hbrackets
  | @blank st s line u rest ts f hdepth hs hline hends hidle h ih =>
    refine .append (LexState.blankTokens_aside _ _) ?_
    cases hends with
    | eof => exact .of_aside fun t ht => (h.aside_of_nil t ht).isSignificant
    | newline =>
      have hcode : consumed ++ s.takeWhile isPad ++ (line ++ ['\n']) ++ rest = consumed ++ s := by
        simp [← hs]
      exact hcode ▸ ih (hf.blank hdepth line rest)
        (fun t ht => hstray t (List.mem_append_right _ ht)) (bracketDepth_nonneg_behind _ hbrackets)
  | @settled st s c v marks after ts f hdepth hs hidle hsettle h ih =>
    obtain ⟨haside, hsettled⟩ := hf.settled hdepth hs hsettle
    have hcode : consumed ++ s.takeWhile isPad ++ c :: v = consumed ++ s := by
      rw [List.append_assoc, takeWhile_append_rest hs]
    exact .append haside (hcode ▸ ih hsettled
      (fun t ht => hstray t (List.mem_append_right _ ht)) (bracketDepth_nonneg_behind _ hbrackets))
  | @stop st s hs =>
    exact .of_aside (List.forall_mem_cons.mpr ⟨rfl, LexState.not_isSignificant_finish _ _⟩)
  | @lineEnd st s c v n ts f hs hlex h ih =>
    -- no more brackets have been closed than opened, so the line ends in the statement or behind it
    have hdepth : 0 ≤ st.depth := by
      have hempty := hbrackets [] List.nil_prefix
      rwa [List.append_nil, hf.depth_eq] at hempty
    have hend := ih (hf.lineEnd hdepth hs hlex) (List.forall_mem_cons.mp hstray).2
      (bracketDepth_nonneg_behind [_] hbrackets)
    rw [consumed_append_spelled _ hs n] at hend
    refine .cons (fun ht => ?_) hend
    have hsilent : ∀ kind ∈ [TokenKind.blankLine, .newline],
        ((st.advance (s.takeWhile isPad)).token kind (c :: v.take (n - 1))).isSignificant = false := by
      simp [Token.isSignificant, LexState.token]
    cases (hsilent _ (by split <;> simp)).symm.trans ht
  | @continued st s c v n ts f hs hlex hrest h ih =>
    exact consumed_append_spelled consumed hs n ▸ ih (hf.continued hs hlex) hstray hbrackets
  | @token st s c v kind n after ts f hs hlex hbracket h ih =>
    obtain ⟨hkind, hstray⟩ := List.forall_mem_cons.mp hstray
    have hkind : kind ≠ .stray := hkind
    rw [decide_eq_false hkind] at ih
    have hrest := ih (hf.token hs hlex hbracket) hstray (bracketDepth_nonneg_behind [_] hbrackets)
    rw [consumed_append_spelled _ hs n] at hrest
    refine .cons (fun ht => hf.exists_first hs hlex ?_) hrest
    rintro rfl
    cases ht
  | stray hs hlex h ih => exact absurd rfl (hstray _ List.mem_cons_self)

/-! ### Whole code -/

private theorem follows_start (code : Text) : Follows [] code [] {} true where
  behind := ⟨rfl, rfl⟩
  levels_eq := rfl
  depth_eq := rfl
  inside := by simp
  atLine := fun _ => ⟨rfl, fun _ => rfl⟩
  ready := by simp
  begins := by simp [statementStart]

private theorem begins_of_tokens (htokens : (tokens code).1 = before ++ last :: behind)
    (hstray : ∀ t ∈ before ++ last :: behind, t.kind ≠ .stray)
    (hbrackets : ∀ us, us <+: before ++ last :: behind → 0 ≤ bracketDepth us)
    (hlast : last.isSignificant = true) :
    ∃ first, statementStart (before ++ [last]) = some first ∧
      Begins code (openLevels before) first := by
  have h := reads_scan {} true code
  rw [← tokens, htokens] at h
  exact h.haveBegun (follows_start code) hstray hbrackets before last behind rfl hlast

theorem margin_width_spaces (n : Nat) : (margin (List.replicate n ' ')).width = n := by
  have hpush : ∀ (n : Nat) (m : Margin),
      ((List.replicate n ' ').foldl Margin.push m).width = m.width + n := by
    intro n
    induction n with
    | zero => exact fun m => rfl
    | succ n ih =>
      intro m
      rw [List.replicate_succ, List.foldl_cons, ih]
      show m.width + 1 + n = m.width + (n + 1)
      omega
  have htake : (List.replicate n ' ').takeWhile isPad = List.replicate n ' ' :=
    List.takeWhile_eq_self_iff.mpr fun c hc => by rw [List.eq_of_mem_replicate hc]; rfl
  rw [margin, htake, hpush]
  exact Nat.zero_add n

/-- Code that ends with a statement behind spaces alone leaves off at the innermost level, if
neither a comment stands behind the statement nor a lone backslash before it. -/
theorem column_eq_of_spaces (htokens : tokens code = (before ++ last :: behind, none))
    (hstray : ∀ t ∈ before ++ last :: behind, t.kind ≠ .stray)
    (hbrackets : ∀ us, us <+: before ++ last :: behind → 0 ≤ bracketDepth us)
    (hlast : last.isSignificant = true) (hcolon : last.isOperator ":" = false)
    (hbehind : ∀ t ∈ behind, t.isSignificant = false) (hcomment : commentBehind behind = none)
    (hfirst : statementStart (before ++ [last]) = some first)
    (hbackslash : followsBackslash code first.line = false)
    (hspaces : ∀ c ∈ indentation code first, c = ' ') :
    (openLevels before).head? = some (Tail.ofCode code).column := by
  obtain ⟨_, hfirst', hcolumn, hhead⟩ :=
    begins_of_tokens (congrArg Prod.fst htokens) hstray hbrackets hlast
  obtain rfl := Option.some.inj (hfirst.symm.trans hfirst')
  have hlead : indentation code first = List.replicate (indentation code first).length ' ' :=
    List.eq_replicate_iff.mpr ⟨rfl, hspaces⟩
  rw [Tail.column_ofCode_eq htokens hlast hcolon hbehind hfirst, hcomment, hhead hbackslash, hlead,
    margin_width_spaces, Option.getD_none, hcolumn]

/-- **Whether code leaves off at an indentation that is open** behind its last statement. The code
ends with a statement, of which `last` is the last token and `first` the first one. It leaves off at
the column of the last comment behind the statement, and so at an open level if and only if the
comment stands at one. Without such a comment the column is the number of characters before the
statement on its line, while the innermost level is the width of these, tabs counted up to their
stops; so the column is an open level if and only if these agree or one further out is met. The
width is another one only where a lone backslash continues the line before the statement. -/
theorem column_mem_openLevels_iff (htokens : tokens code = (before ++ last :: behind, none))
    (hstray : ∀ t ∈ before ++ last :: behind, t.kind ≠ .stray)
    (hbrackets : ∀ us, us <+: before ++ last :: behind → 0 ≤ bracketDepth us)
    (hlast : last.isSignificant = true) (hcolon : last.isOperator ":" = false)
    (hbehind : ∀ t ∈ behind, t.isSignificant = false) :
    ∃ first, statementStart (before ++ [last]) = some first ∧
      let column := (Tail.ofCode code).column
      let levels := openLevels before
      let lead := indentation code first
      (column = match commentBehind behind with
        | some comment => comment.column
        | none => lead.length) ∧
      (followsBackslash code first.line = false →
        levels.head? = some (margin lead).width ∧
          (column ∈ levels ↔ match commentBehind behind with
            | some comment => comment.column ∈ levels
            | none => lead.length = (margin lead).width ∨ lead.length ∈ levels.tail)) := by
  obtain ⟨first, hfirst, hcolumn, hhead⟩ :=
    begins_of_tokens (congrArg Prod.fst htokens) hstray hbrackets hlast
  have heq := Tail.column_ofCode_eq htokens hlast hcolon hbehind hfirst
  refine ⟨first, hfirst, ?_, fun hbackslash => ⟨hhead hbackslash, ?_⟩⟩
  · cases hcomment : commentBehind behind with
    | none => rw [heq, hcomment, Option.getD_none, hcolumn]
    | some comment => rw [heq, hcomment, Option.getD_some]
  · cases hcomment : commentBehind behind with
    | none =>
      obtain ⟨outer, houter⟩ := List.head?_eq_some_iff.mp (hhead hbackslash)
      rw [heq, hcomment, Option.getD_none, hcolumn, houter, List.mem_cons, List.tail_cons]
    | some comment => rw [heq, hcomment, Option.getD_some]

/-- A statement over two lines inside a condition, and a comment that ends the condition's suite. -/
theorem column_mem_openLevels_iff_comment :
    let code := "if x:\n    y = (1,\n  2)\n# end".toList
    let before := (tokens code).1.take 12
    let behind := (tokens code).1.drop 13
    let last : Token := ⟨.operator, [')'], 3, 3⟩
    tokens code = (before ++ last :: behind, none) ∧
      (∀ t ∈ before ++ last :: behind, t.kind ≠ .stray) ∧
      (∀ us, us <+: before ++ last :: behind → 0 ≤ bracketDepth us) ∧
      last.isSignificant = true ∧ last.isOperator ":" = false ∧
      (∀ t ∈ behind, t.isSignificant = false) ∧
      ∃ first, statementStart (before ++ [last]) = some first ∧
        let column := (Tail.ofCode code).column
        let levels := openLevels before
        let lead := indentation code first
        (column = match commentBehind behind with
          | some comment => comment.column
          | none => lead.length) ∧
        (followsBackslash code first.line = false →
          levels.head? = some (margin lead).width ∧
            (column ∈ levels ↔ match commentBehind behind with
              | some comment => comment.column ∈ levels
              | none => lead.length = (margin lead).width ∨ lead.length ∈ levels.tail)) := by
  intro code before behind last
  have htokens : tokens code = (before ++ last :: behind, none) := by decide +kernel
  have hstray : ∀ t ∈ before ++ last :: behind, t.kind ≠ .stray := by decide +kernel
  have hbrackets : ∀ us, us <+: before ++ last :: behind → 0 ≤ bracketDepth us := by
    have hlength : (before ++ last :: behind).length < 20 := by decide +kernel
    have htake : ∀ k < 20, 0 ≤ bracketDepth ((before ++ last :: behind).take k) := by
      decide +kernel
    intro us hus
    rw [List.prefix_iff_eq_take.mp hus]
    exact htake _ (hus.length_le.trans_lt hlength)
  have hlast : last.isSignificant = true := rfl
  have hcolon : last.isOperator ":" = false := by decide
  have hbehind : ∀ t ∈ behind, t.isSignificant = false := by decide +kernel
  exact ⟨htokens, hstray, hbrackets, hlast, hcolon, hbehind,
    column_mem_openLevels_iff htokens hstray hbrackets hlast hcolon hbehind⟩

/-- A comment at no level that is open: what follows the code stands at the column of the comment,
between the levels. -/
theorem column_between_openLevels :
    let code := "if x:\n    y = 1\n  # note".toList
    let before := (tokens code).1.take 7
    let behind := (tokens code).1.drop 8
    let last : Token := ⟨.number, ['1'], 2, 8⟩
    tokens code = (before ++ last :: behind, none) ∧
      (∀ t ∈ before ++ last :: behind, t.kind ≠ .stray) ∧
      last.isSignificant = true ∧ last.isOperator ":" = false ∧
      (∀ t ∈ behind, t.isSignificant = false) ∧
      openLevels before = [4, 0] ∧ (Tail.ofCode code).column = 2 := by
  decide +kernel

end Code

end ServerPages
