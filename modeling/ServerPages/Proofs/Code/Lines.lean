import Mathlib.Data.List.Basic
import ServerPages.Proofs.Code.Lexemes
import ServerPages.Proofs.Code.Scanning
import ServerPages.Proofs.Text.Pieces

/-!
# Reading printed lines

Code that is printed line by line, each line a margin of spaces and pieces that cannot run into one
another, is read back piece by piece. `readLines` says which tokens come of such lines and which
indentations they leave open, and the scanner agrees with it whatever text follows (`scan_lines`).
Comments and blank lines come to nothing.
-/

namespace ServerPages

namespace Code

/-! ### Pieces -/

/-- A lexeme as it stands in a line. -/
structure Piece where
  kind : TokenKind
  text : Text
  deriving DecidableEq

/-- Whether a character may stand in a line. -/
def isInLine (c : Char) : Bool := c != '\n' && c != '\r' && c != '\x00'

/-- Whether a character may begin the code of a line: it is no white space, and begins neither a
comment nor a continuation. -/
def isFirst (c : Char) : Bool := isInLine c && !isPad c && c != '\\' && c != '#'

/-- Whether a text is a string between two marks, and a character behind it does not make the marks
three. -/
def isQuoted (e : Char) : Text → Bool
  | [] => false
  | q :: s =>
    (q == '"' || q == '\'') && s.getLast? == some q && isSpelled q s.dropLast && e != q

/-- Whether a text is a string between marks of three. -/
def isTripled : Text → Bool
  | q :: a :: b :: s =>
    (q == '"' || q == '\'') && a == q && b == q && s.drop (s.length - 3) == [q, q, q] &&
      (s.take (s.length - 3)).all fun c => c != q && c != '\\'
  | _ => false

instance (s : Text) : Decidable (IsNumeral s) :=
  decidable_of_iff (s.all isDigit = true ∧ s ≠ [] ∧ (s.head? = some '0' → s = ['0']))
    ⟨fun h => ⟨List.all_eq_true.1 h.1, h.2.1, h.2.2⟩,
      fun h => ⟨List.all_eq_true.2 h.digits, h.ne_nil, h.no_leading_zero⟩⟩

/-- Whether a piece is read as such where a character stands behind it. -/
def Piece.fits (p : Piece) (e : Char) : Bool :=
  p.text.head?.any isFirst && p.text.all isInLine &&
    match p.kind with
    | .name => isPlainName p.text && endsWord e
    | .operator => marks.contains p.text && endsMark p.text e
    | .number => decide (IsNumeral p.text) && endsNumber e
    | .string => isQuoted e p.text || isTripled p.text
    | _ => false

variable {p : Piece} {e : Char} {u rest : Text}

private theorem lexeme_of_isQuoted {s : Text} (h : isQuoted e s = true) :
    lexeme .strict' (s ++ e :: u) = .token .string s.length := by
  obtain _ | ⟨q, s⟩ := s
  · cases h
  simp only [isQuoted, Bool.and_eq_true, Bool.or_eq_true, beq_iff_eq, bne_iff_ne] at h
  obtain ⟨⟨⟨hq, hlast⟩, hbody⟩, he⟩ := h
  have hs : s = s.dropLast ++ [q] := (List.dropLast_append_getLast? q hlast).symm
  have hlen : s.length = s.dropLast.length + 1 := by rw [hs]; simp
  have htext : q :: s ++ e :: u = q :: (s.dropLast ++ q :: e :: u) := by
    conv_lhs => rw [hs]
    simp
  rw [htext, lexeme_quoted hq hbody he, List.length_cons, hlen]

private theorem lexeme_of_isTripled {s : Text} (h : isTripled s = true) :
    lexeme .strict' (s ++ u) = .token .string s.length := by
  rw [isTripled.eq_def] at h
  split at h
  · next q a b s =>
    simp only [Bool.and_eq_true, Bool.or_eq_true, beq_iff_eq, List.all_eq_true, bne_iff_ne] at h
    obtain ⟨⟨⟨⟨hq, ha⟩, hb⟩, hlast⟩, hbody⟩ := h
    have hs : s = s.take (s.length - 3) ++ [q, q, q] := by
      rw [← hlast, List.take_append_drop]
    have hlen : s.length = (s.take (s.length - 3)).length + 3 := by
      conv_lhs => rw [hs]
      simp
    have htext : q :: a :: b :: s ++ u =
        q :: q :: q :: (s.take (s.length - 3) ++ q :: q :: q :: u) := by
      conv_lhs => rw [hs, ha, hb]
      simp
    rw [htext, lexeme_tripled hq hbody]
    congr 1
    simp only [List.length_cons]
    omega
  · cases h

/-- A piece that fits is read. -/
theorem Piece.lexeme_text (h : p.fits e = true) :
    lexeme .strict' (p.text ++ e :: u) = .token p.kind p.text.length := by
  obtain ⟨kind, text⟩ := p
  simp only [Piece.fits, Bool.and_eq_true] at h
  obtain ⟨-, h⟩ := h
  cases kind <;> simp only [Bool.and_eq_true, Bool.or_eq_true, decide_eq_true_eq,
    List.contains_iff_mem, Bool.false_eq_true] at h ⊢
  case name => exact lexeme_word h.1 h.2
  case operator => exact lexeme_mark h.1 h.2
  case number => exact lexeme_digits h.1 h.2
  case string => exact h.elim lexeme_of_isQuoted lexeme_of_isTripled

private theorem Piece.head_of_fits (h : p.fits e = true) :
    ∃ c t, p.text = c :: t ∧ isFirst c = true := by
  simp only [Piece.fits, Bool.and_eq_true] at h
  obtain ⟨⟨hfirst, -⟩, -⟩ := h
  cases htext : p.text with
  | nil => simp [htext] at hfirst
  | cons c t => exact ⟨c, t, rfl, by simpa [htext] using hfirst⟩

private theorem Piece.kind_ne_stray (h : p.fits e = true) : p.kind ≠ .stray := by
  intro hk
  simp [Piece.fits, hk] at h

theorem Piece.newline_not_mem (h : p.fits e = true) : '\n' ∉ p.text := by
  simp only [Piece.fits, Bool.and_eq_true, List.all_eq_true] at h
  exact fun hc => absurd (h.1.2 _ hc) (by decide)

/-! ### Lines -/

/-- The text of pieces, each behind some spaces. -/
def piecesText (ps : List (Nat × Piece)) : Text :=
  ps.flatMap fun p => List.replicate p.1 ' ' ++ p.2.text

/-- The character with which what stands behind a piece begins. -/
def nextChar : List (Nat × Piece) → Char
  | [] => '\n'
  | (0, p) :: _ => p.text.headD '\n'
  | (_ + 1, _) :: _ => ' '

/-- The tokens of pieces that stand behind some place, and the place behind them; nothing if they
do not fit. -/
def readPieces (st : LexState) : List (Nat × Piece) → Option (List Token × LexState)
  | [] => some ([], st)
  | (n, p) :: ps =>
    let here := { st with column := st.column + n }
    if p.fits (nextChar ps) then
      match (if p.kind = .operator then here.bracket true p.text else .ok here) with
      | .error _ => none
      | .ok after =>
        (readPieces { after with column := after.column + p.text.length } ps).map fun r =>
          (here.token p.kind p.text :: r.1, r.2)
    else none

/-- A printed line. -/
inductive Line where
  | blank
  | comment (margin : Nat) (text : Text)
  | code (margin : Nat) (first : Piece) (rest : List (Nat × Piece))

/-- The text of a line. -/
def Line.text : Line → Text
  | .blank => ['\n']
  | .comment margin text => List.replicate margin ' ' ++ '#' :: text ++ ['\n']
  | .code margin first rest =>
    List.replicate margin ' ' ++ piecesText ((0, first) :: rest) ++ ['\n']

/-- The tokens of a line with some number and the indentations open behind it, the others open
before it; nothing if it holds what does not fit. -/
def Line.read (line : Nat) (indents : List (Nat × Nat)) :
    Line → Option (List Token × List (Nat × Nat))
  | .blank => some ([], indents)
  | .comment _ text => if text.all isInLine then some ([], indents) else none
  | .code margin first rest =>
    match ({ line, column := margin, indents } : LexState).settle true ⟨margin, margin, margin⟩
        (List.replicate margin ' ') with
    | .error _ => none
    | .ok (marks, st) =>
      match readPieces st ((0, first) :: rest) with
      | none => none
      | some (ts, st) =>
        if st.depth = 0 ∧ st.brackets = [] then
          some (marks ++ ts ++ [st.token .newline ['\n']], st.indents)
        else none

/-- The tokens of lines, the first of which has some number, and the indentations open behind
them. -/
def readLines (line : Nat) (indents : List (Nat × Nat)) :
    List Line → Option (List Token × List (Nat × Nat))
  | [] => some ([], indents)
  | l :: ls =>
    match l.read line indents with
    | none => none
    | some (ts, indents) => (readLines (line + 1) indents ls).map fun r => (ts ++ r.1, r.2)

/-! ### Reading -/

variable {st st' : LexState} {ps : List (Nat × Piece)} {ts : List Token}

theorem LexState.advance_of_not_mem (st : LexState) {s : Text} (h : '\n' ∉ s) :
    st.advance s = { st with column := st.column + s.length } := by
  simp [LexState.advance, List.count_eq_zero.2 h]

private theorem LexState.advance_line (st : LexState) {s : Text} (h : '\n' ∉ s) :
    st.advance (s ++ ['\n']) = { st with line := st.line + 1, column := 0 } := by
  have hcount : (s ++ ['\n']).count '\n' = 1 := by
    rw [List.count_append, List.count_eq_zero.2 h]
    rfl
  have hlast : Text.lastPiece '\n' (s ++ ['\n']) = [] := by
    rw [Text.lastPiece, Text.splitOn_append_cons, Text.splitOn_of_not_mem h]
    rfl
  simp [LexState.advance, hcount, hlast]

theorem newline_not_mem_spaces (n : Nat) : '\n' ∉ List.replicate n ' ' := fun h =>
  absurd (List.eq_of_mem_replicate h) (by decide)

/-- Pieces that fit and the line end behind them begin with the character that stands next. -/
theorem exists_cons_nextChar (h : readPieces st ps = some (ts, st')) (rest : Text) :
    ∃ u, piecesText ps ++ '\n' :: rest = nextChar ps :: u := by
  obtain _ | ⟨⟨_ | n, p⟩, ps⟩ := ps
  · exact ⟨rest, rfl⟩
  · have hfits : p.fits (nextChar ps) = true := by
      rw [readPieces] at h
      by_contra hf
      simp [hf] at h
    obtain ⟨c, t, htext, -⟩ := p.head_of_fits hfits
    exact ⟨t ++ (piecesText ps ++ '\n' :: rest), by simp [piecesText, nextChar, htext]⟩
  · exact ⟨_, by simp [piecesText, nextChar, List.replicate_succ]; rfl⟩

private theorem scan_piece {n : Nat} {after : LexState} (hfits : p.fits e = true)
    (hbracket : (if p.kind = .operator then
        ({ st with column := st.column + n } : LexState).bracket true p.text
      else .ok { st with column := st.column + n }) = .ok after) :
    scan .strict' st false (List.replicate n ' ' ++ (p.text ++ e :: u)) =
      let rest := scan .strict' { after with column := after.column + p.text.length } false (e :: u)
      (({ st with column := st.column + n } : LexState).token p.kind p.text :: rest.1, rest.2) := by
  obtain ⟨c, t, htext, hc⟩ := p.head_of_fits hfits
  have hpad : isPad c = false := by
    simp only [isFirst, Bool.and_eq_true, Bool.not_eq_true'] at hc
    exact hc.1.1.2
  have hspaces : ∀ a ∈ List.replicate n ' ', isPad a = true := fun a ha => by
    rw [List.eq_of_mem_replicate ha]
    rfl
  have htake : (List.replicate n ' ' ++ (p.text ++ e :: u)).takeWhile isPad =
      List.replicate n ' ' := by
    rw [List.takeWhile_append_of_pos hspaces, htext, List.cons_append,
      List.takeWhile_cons_of_neg (by simp [hpad]), List.append_nil]
  have hdrop : (List.replicate n ' ' ++ (p.text ++ e :: u)).dropWhile isPad =
      c :: (t ++ e :: u) := by
    rw [List.dropWhile_append_of_pos hspaces, htext, List.cons_append,
      List.dropWhile_cons_of_neg (by simp [hpad])]
  have hlex : lexeme .strict' (c :: (t ++ e :: u)) = .token p.kind p.text.length := by
    rw [← List.cons_append, ← htext]
    exact p.lexeme_text hfits
  have hlen : p.text.length - 1 = t.length := by simp [htext]
  have hspelled : c :: (t ++ e :: u).take (p.text.length - 1) = p.text := by
    rw [hlen, List.take_left, htext]
  have hrest : (t ++ e :: u).drop (p.text.length - 1) = e :: u := by rw [hlen, List.drop_left]
  have hhere : st.advance (List.replicate n ' ') = { st with column := st.column + n } := by
    rw [LexState.advance_of_not_mem _ (newline_not_mem_spaces n), List.length_replicate]
  have hkind : decide (p.kind = .stray) = false := by simpa using p.kind_ne_stray hfits
  have hb : (if p.kind = .operator then
      (st.advance ((List.replicate n ' ' ++ (p.text ++ e :: u)).takeWhile isPad)).bracket true
        (c :: (t ++ e :: u).take (p.text.length - 1))
      else .ok (st.advance ((List.replicate n ' ' ++ (p.text ++ e :: u)).takeWhile isPad))) =
      .ok after := by
    rw [htake, hhere, hspelled]
    exact hbracket
  rw [scan_token hdrop hlex hb]
  simp only [htake, hhere, hspelled, hrest, hkind,
    LexState.advance_of_not_mem _ (p.newline_not_mem hfits)]

theorem scan_pieces (h : readPieces st ps = some (ts, st')) (rest : Text) :
    scan .strict' st false (piecesText ps ++ '\n' :: rest) =
      (ts ++ (scan .strict' st' false ('\n' :: rest)).1,
        (scan .strict' st' false ('\n' :: rest)).2) := by
  induction ps generalizing st ts with
  | nil =>
    obtain ⟨rfl, rfl⟩ := Prod.mk.inj (Option.some.inj h)
    rfl
  | cons np ps ih =>
    obtain ⟨n, p⟩ := np
    rw [readPieces] at h
    split at h
    · next hfits =>
      split at h
      · cases h
      · next after hbracket =>
        obtain ⟨⟨us, last⟩, hread, heq⟩ := Option.map_eq_some_iff.1 h
        obtain ⟨rfl, rfl⟩ := Prod.mk.inj heq
        obtain ⟨u, hu⟩ := exists_cons_nextChar hread rest
        have htext : piecesText ((n, p) :: ps) ++ '\n' :: rest =
            List.replicate n ' ' ++ (p.text ++ nextChar ps :: u) := by
          simp [piecesText, ← hu]
        rw [htext, scan_piece hfits hbracket, ← hu, ih hread]
        rfl
    · cases h

/-- What is kept of the tokens of a program: neither comments nor the ends of lines without code. -/
def kept (r : List Token × Option LexFault) : List Token × Option LexFault :=
  (r.1.filter fun t => t.kind ≠ .comment ∧ t.kind ≠ .blankLine, r.2)

/-- Tokens before those that are read next. -/
def preceded (ts : List Token) (r : List Token × Option LexFault) :
    List Token × Option LexFault :=
  (ts ++ r.1, r.2)

theorem preceded_append (ts us : List Token) (r : List Token × Option LexFault) :
    preceded ts (preceded us r) = preceded (ts ++ us) r := by
  rw [preceded, preceded, preceded, List.append_assoc]

section

variable {line margin : Nat} {indents opened : List (Nat × Nat)} {c : Char} {t : Text}

/-- The beginning of a line without open brackets. -/
abbrev LexState.atLine (line : Nat) (indents : List (Nat × Nat)) : LexState := { line, indents }

/-- Spaces are the margin of what they stand before. -/
theorem splitMargin_spaces (hc : isPad c = false) (hb : c ≠ '\\') (m : Margin) (n : Nat) :
    splitMargin 0 m (List.replicate n ' ' ++ c :: t) =
      some ⟨m.width + n, m.tabless + n, m.length + n⟩ := by
  induction n generalizing m with
  | zero =>
    rw [List.replicate_zero, List.nil_append, splitMargin.eq_def]
    split
    · next h => exact absurd (List.cons.inj h).1 hb
    · next h => exact absurd (List.cons.inj h).1 hb
    · next h =>
      obtain ⟨rfl, rfl⟩ := List.cons.inj h
      simp [hc]
    · next h => cases h
  | succ n ih =>
    have hpush : m.push ' ' = ⟨m.width + 1, m.tabless + 1, m.length + 1⟩ := rfl
    have hstep : splitMargin 0 m (' ' :: (List.replicate n ' ' ++ c :: t)) =
        splitMargin 0 (m.push ' ') (List.replicate n ' ' ++ c :: t) := by
      rw [splitMargin.eq_def]
      rfl
    rw [List.replicate_succ, List.cons_append, hstep, hpush, ih]
    simp only [Nat.add_assoc, Nat.add_comm 1 n]

theorem lineMargin_spaces (hc : isPad c = false) (hb : c ≠ '\\') (n : Nat) :
    lineMargin .strict' (List.replicate n ' ' ++ c :: t) = some ⟨n, n, n⟩ := by
  have h : Dialect.strict'.strict = true := rfl
  rw [lineMargin, h, if_pos rfl, splitMargin_spaces hc hb]
  simp

/-- Nothing is kept of a line without code. -/
theorem kept_scan_blankLine {s : Text} {m : Margin} {a : Char} (hdepth : st.depth = 0)
    (hm : lineMargin .strict' s = some m) (hs : s.drop m.length = a :: u)
    (ha : a = '#' ∨ a = '\r' ∨ a = '\n') :
    kept (scan .strict' st true s) =
      kept (scan .strict'
        ((st.advance (s.take m.length)).advance
          ((a :: u).take (blankLine (a :: u)).1 ++ ['\n'])) true
        (u.drop (blankLine (a :: u)).1)) := by
  rw [scan_blankLine hdepth hm hs ha]
  simp only [kept, List.filter_append]
  split <;> simp [LexState.token]

private theorem kept_scan_blank :
    kept (scan .strict' (.atLine line indents) true ('\n' :: rest)) =
      kept (scan .strict' (.atLine (line + 1) indents) true rest) := by
  have hm : lineMargin .strict' ('\n' :: rest) = some {} :=
    lineMargin_spaces (n := 0) rfl (by decide)
  rw [kept_scan_blankLine rfl hm rfl (.inr (.inr rfl))]
  rfl

private theorem blankLine_fst (s : Text) : (blankLine s).1 = (s.takeWhile (· ≠ '\n')).length := by
  simp only [blankLine]
  split <;> rfl

private theorem kept_scan_comment {text : Text} (h : text.all isInLine = true) :
    kept (scan .strict' (.atLine line indents) true
        (List.replicate margin ' ' ++ '#' :: (text ++ '\n' :: rest))) =
      kept (scan .strict' (.atLine (line + 1) indents) true rest) := by
  have hmem : ∀ c ∈ '#' :: text, c ≠ '\n' := by
    rintro c hc rfl
    obtain hc | hc := List.mem_cons.1 hc
    · exact absurd hc (by decide)
    · exact absurd (List.all_eq_true.1 h _ hc) (by decide)
  have hm : lineMargin .strict' (List.replicate margin ' ' ++ '#' :: (text ++ '\n' :: rest)) =
      some ⟨margin, margin, margin⟩ := lineMargin_spaces rfl (by decide) margin
  have hs : (List.replicate margin ' ' ++ '#' :: (text ++ '\n' :: rest)).drop margin =
      '#' :: (text ++ '\n' :: rest) := List.drop_left' (List.length_replicate)
  have hline : (blankLine ('#' :: (text ++ '\n' :: rest))).1 = ('#' :: text).length := by
    rw [blankLine_fst, ← List.cons_append,
      List.takeWhile_append_of_pos fun c hc => by simpa using hmem c hc]
    simp
  have hmargin : (List.replicate margin ' ' ++ '#' :: (text ++ '\n' :: rest)).take margin =
      List.replicate margin ' ' := List.take_left' (List.length_replicate)
  have htake : ('#' :: (text ++ '\n' :: rest)).take ('#' :: text).length = '#' :: text := by
    rw [← List.cons_append, List.take_left]
  have hdrop : (text ++ '\n' :: rest).drop ('#' :: text).length = rest := by
    rw [List.length_cons, ← List.drop_drop, List.drop_left]
    rfl
  rw [kept_scan_blankLine rfl hm hs (.inl rfl), hline, htake, hdrop, hmargin,
    LexState.advance_of_not_mem _ (newline_not_mem_spaces margin),
    LexState.advance_line _ fun hc => hmem _ hc rfl]

/-- Whether a token is kept. -/
def Token.IsKept (t : Token) : Prop := t.kind ≠ .comment ∧ t.kind ≠ .blankLine

theorem kept_append (h : ∀ t ∈ ts, t.IsKept) (r : List Token × Option LexFault) :
    kept (ts ++ r.1, r.2) = preceded ts (kept r) := by
  have hts : ts.filter (fun t => t.kind ≠ .comment ∧ t.kind ≠ .blankLine) = ts :=
    List.filter_eq_self.2 fun t ht => decide_eq_true (h t ht)
  rw [kept, List.filter_append, hts]
  rfl

private theorem LexState.line_of_bracket {strict : Bool} {op : Text}
    (h : st.bracket strict op = .ok st') : st'.line = st.line := by
  unfold LexState.bracket at h
  repeat' split at h
  all_goals
    cases h
    try rfl

private theorem LexState.settle_kept {strict : Bool} {m : Margin} {lead : Text} {marks : List Token}
    (h : st.settle strict m lead = .ok (marks, st')) :
    st'.line = st.line ∧ ∀ t ∈ marks, t.IsKept := by
  simp only [LexState.settle] at h
  repeat' split at h
  all_goals cases h
  · exact ⟨rfl, by simp [Token.IsKept]⟩
  · refine ⟨rfl, fun t ht => ?_⟩
    rw [List.eq_of_mem_replicate ht]
    exact ⟨by simp [LexState.token], by simp [LexState.token]⟩

private theorem Piece.isKept_token (h : p.fits e = true) (st : LexState) :
    (st.token p.kind p.text).IsKept := by
  constructor <;> intro hk <;> simp only [LexState.token] at hk <;> simp [Piece.fits, hk] at h

private theorem readPieces_kept (h : readPieces st ps = some (ts, st')) :
    st'.line = st.line ∧ ∀ t ∈ ts, t.IsKept := by
  induction ps generalizing st ts with
  | nil =>
    obtain ⟨rfl, rfl⟩ := Prod.mk.inj (Option.some.inj h)
    exact ⟨rfl, by simp⟩
  | cons np ps ih =>
    obtain ⟨n, p⟩ := np
    rw [readPieces] at h
    split at h
    · next hfits =>
      split at h
      · cases h
      · next after hbracket =>
        obtain ⟨⟨us, last⟩, hread, heq⟩ := Option.map_eq_some_iff.1 h
        obtain ⟨rfl, rfl⟩ := Prod.mk.inj heq
        obtain ⟨hline, hkept⟩ := ih hread
        have hafter : after.line = st.line := by
          split at hbracket
          · exact (LexState.line_of_bracket hbracket).trans rfl
          · cases hbracket
            rfl
        refine ⟨hline.trans hafter, fun t ht => ?_⟩
        obtain rfl | ht := List.mem_cons.1 ht
        · exact p.isKept_token hfits _
        · exact hkept t ht
    · cases h

/-- The end of a line without open brackets. -/
theorem scan_newline (hdepth : st.depth = 0) (rest : Text) :
    scan .strict' st false ('\n' :: rest) =
      let after := scan .strict' { st with line := st.line + 1, column := 0 } true rest
      (st.token .newline ['\n'] :: after.1, after.2) := by
  have hlex : lexeme .strict' ('\n' :: rest) = .lineEnd 1 := rfl
  have hhere : st.advance [] = st := by simp [LexState.advance]
  have hnext : st.advance ['\n'] = { st with line := st.line + 1, column := 0 } :=
    LexState.advance_line (s := []) st List.not_mem_nil
  have htake : ('\n' :: rest).takeWhile isPad = [] := rfl
  rw [scan_lineEnd rfl hlex]
  simp only [htake, hhere, hdepth, Nat.sub_self, List.take_zero, List.drop_zero, hnext]
  simp

private theorem scan_code {marks us : List Token} {first : Piece} {pieces : List (Nat × Piece)}
    {behind last : LexState}
    (hsettle : ({ line, column := margin, indents } : LexState).settle true ⟨margin, margin, margin⟩
      (List.replicate margin ' ') = .ok (marks, behind))
    (hread : readPieces behind ((0, first) :: pieces) = some (us, last))
    (hdepth : last.depth = 0) (rest : Text) :
    scan .strict' (.atLine line indents) true
        (List.replicate margin ' ' ++ (piecesText ((0, first) :: pieces) ++ '\n' :: rest)) =
      let after := scan .strict' { last with line := last.line + 1, column := 0 } true rest
      (marks ++ us ++ [last.token .newline ['\n']] ++ after.1, after.2) := by
  have hfits : first.fits (nextChar pieces) = true := by
    rw [readPieces] at hread
    by_contra hf
    simp [hf] at hread
  obtain ⟨c, t, htext, hc⟩ := first.head_of_fits hfits
  simp only [isFirst, Bool.and_eq_true, Bool.not_eq_true', bne_iff_ne] at hc
  obtain ⟨⟨⟨hin, hpad⟩, hb⟩, hsign⟩ := hc
  have hcode : ¬(c = '#' ∨ c = '\r' ∨ c = '\n') := by
    rintro (rfl | rfl | rfl)
    · exact hsign rfl
    · cases hin
    · cases hin
  have hpieces : piecesText ((0, first) :: pieces) ++ '\n' :: rest =
      c :: (t ++ (piecesText pieces ++ '\n' :: rest)) := by simp [piecesText, htext]
  have hm := lineMargin_spaces (t := t ++ (piecesText pieces ++ '\n' :: rest)) hpad hb margin
  have hhere : (LexState.atLine line indents).advance (List.replicate margin ' ') =
      { line, column := margin, indents } := by
    rw [LexState.advance_of_not_mem _ (newline_not_mem_spaces margin)]
    simp
  rw [hpieces, scan_codeLine rfl hm (List.drop_left' List.length_replicate) hcode
    (by rw [List.take_left' List.length_replicate, hhere]; exact hsettle), ← hpieces,
    scan_pieces hread, scan_newline hdepth]
  simp

/-- A line is read. -/
theorem scan_line {l : Line} (h : l.read line indents = some (ts, opened)) (rest : Text) :
    kept (scan .strict' (.atLine line indents) true (l.text ++ rest)) =
      preceded ts (kept (scan .strict' (.atLine (line + 1) opened) true rest)) := by
  cases l with
  | blank =>
    obtain ⟨rfl, rfl⟩ := Prod.mk.inj (Option.some.inj h)
    exact kept_scan_blank
  | comment margin text =>
    rw [Line.read] at h
    split at h
    · next hall =>
      obtain ⟨rfl, rfl⟩ := Prod.mk.inj (Option.some.inj h)
      have htext : (Line.comment margin text).text ++ rest =
          List.replicate margin ' ' ++ '#' :: (text ++ '\n' :: rest) := by simp [Line.text]
      rw [htext, kept_scan_comment hall]
      rfl
    · cases h
  | code margin first pieces =>
    rw [Line.read] at h
    split at h
    · cases h
    · next marks behind hsettle =>
      split at h
      · cases h
      · next us last hread =>
        split at h
        · next hclosed =>
          obtain ⟨rfl, rfl⟩ := Prod.mk.inj (Option.some.inj h)
          obtain ⟨hline, hmarks⟩ := LexState.settle_kept hsettle
          obtain ⟨hline', hkept⟩ := readPieces_kept hread
          have hlast : ({ last with line := last.line + 1, column := 0 } : LexState) =
              .atLine (line + 1) last.indents := by
            rw [hline', hline, LexState.atLine, hclosed.1, hclosed.2]
          have htext : (Line.code margin first pieces).text ++ rest =
              List.replicate margin ' ' ++
                (piecesText ((0, first) :: pieces) ++ '\n' :: rest) := by simp [Line.text]
          have hall : ∀ t ∈ marks ++ us ++ [last.token .newline ['\n']], t.IsKept := by
            intro t ht
            simp only [List.mem_append, List.mem_singleton] at ht
            obtain (ht | ht) | rfl := ht
            · exact hmarks t ht
            · exact hkept t ht
            · exact ⟨by simp [LexState.token], by simp [LexState.token]⟩
          rw [htext, scan_code hsettle hread hclosed.1]
          simp only [hlast]
          exact kept_append hall _
        · cases h

/-- **Printed lines are read back.** -/
theorem scan_lines {ls : List Line} (h : readLines line indents ls = some (ts, opened))
    (rest : Text) :
    kept (scan .strict' (.atLine line indents) true (ls.flatMap Line.text ++ rest)) =
      preceded ts (kept (scan .strict' (.atLine (line + ls.length) opened) true rest)) := by
  induction ls generalizing line indents ts with
  | nil =>
    obtain ⟨rfl, rfl⟩ := Prod.mk.inj (Option.some.inj h)
    rfl
  | cons l ls ih =>
    rw [readLines] at h
    split at h
    · cases h
    · next ts between hline =>
      obtain ⟨⟨us, last⟩, hread, heq⟩ := Option.map_eq_some_iff.1 h
      obtain ⟨rfl, rfl⟩ := Prod.mk.inj heq
      have hlen : line + (l :: ls).length = line + 1 + ls.length := by
        rw [List.length_cons]
        omega
      rw [List.flatMap_cons, List.append_assoc, scan_line hline, ih hread, hlen, preceded_append]

theorem readLines_append {between : List (Nat × Nat)} {ls ms : List Line} {us : List Token}
    (h : readLines line indents ls = some (ts, between))
    (h' : readLines (line + ls.length) between ms = some (us, opened)) :
    readLines line indents (ls ++ ms) = some (ts ++ us, opened) := by
  induction ls generalizing line indents ts with
  | nil =>
    obtain ⟨rfl, rfl⟩ := Prod.mk.inj (Option.some.inj h)
    exact h'
  | cons l ls ih =>
    rw [readLines] at h
    split at h
    · cases h
    · next first after hline =>
      obtain ⟨⟨more, last⟩, hread, heq⟩ := Option.map_eq_some_iff.1 h
      obtain ⟨rfl, rfl⟩ := Prod.mk.inj heq
      have hlen : line + (l :: ls).length = line + 1 + ls.length := by
        rw [List.length_cons]
        omega
      rw [hlen] at h'
      rw [List.cons_append, readLines, hline]
      simp only [ih hread h']
      simp

/-! ### Whole programs -/

private theorem isInLine_of_readPieces (h : readPieces st ps = some (ts, st')) {a : Char}
    (ha : a ∈ piecesText ps) : isInLine a = true := by
  induction ps generalizing st ts with
  | nil => exact absurd ha List.not_mem_nil
  | cons np ps ih =>
    obtain ⟨n, p⟩ := np
    rw [readPieces] at h
    split at h
    · next hfits =>
      split at h
      · cases h
      · obtain ⟨⟨us, last⟩, hread, heq⟩ := Option.map_eq_some_iff.1 h
        obtain ⟨rfl, rfl⟩ := Prod.mk.inj heq
        simp only [Piece.fits, Bool.and_eq_true, List.all_eq_true] at hfits
        simp only [piecesText, List.flatMap_cons, List.mem_append] at ha
        obtain (hs | hp) | hrest := ha
        · rw [List.eq_of_mem_replicate hs]
          rfl
        · exact hfits.1.2 a hp
        · exact ih hread hrest
    · cases h

private theorem isInLine_of_read {l : Line} (h : l.read line indents = some (ts, opened)) {a : Char}
    (ha : a ∈ l.text) : a = '\n' ∨ isInLine a = true := by
  cases l with
  | blank => exact .inl (List.mem_singleton.1 ha)
  | comment margin text =>
    rw [Line.read] at h
    split at h
    · next hall =>
      simp only [Line.text, List.mem_append, List.mem_cons, List.not_mem_nil, or_false] at ha
      obtain (hs | rfl | ht) | hn := ha
      · rw [List.eq_of_mem_replicate hs]
        exact .inr rfl
      · exact .inr rfl
      · exact .inr (List.all_eq_true.1 hall a ht)
      · exact .inl hn
    · cases h
  | code margin first pieces =>
    rw [Line.read] at h
    split at h
    · cases h
    · split at h
      · cases h
      · next hread =>
        simp only [Line.text, List.mem_append, List.mem_singleton] at ha
        obtain (hs | hp) | hn := ha
        · rw [List.eq_of_mem_replicate hs]
          exact .inr rfl
        · exact .inr (isInLine_of_readPieces hread hp)
        · exact .inl hn

/-- Printed lines hold no control characters but line ends. -/
theorem isInLine_of_readLines {ls : List Line} (h : readLines line indents ls = some (ts, opened))
    {a : Char} (ha : a ∈ ls.flatMap Line.text) : a = '\n' ∨ isInLine a = true := by
  induction ls generalizing line indents ts with
  | nil => exact absurd ha List.not_mem_nil
  | cons l ls ih =>
    rw [readLines] at h
    split at h
    · cases h
    · next ts between hline =>
      obtain ⟨⟨us, last⟩, hread, heq⟩ := Option.map_eq_some_iff.1 h
      obtain ⟨rfl, rfl⟩ := Prod.mk.inj heq
      rw [List.flatMap_cons, List.mem_append] at ha
      exact ha.elim (isInLine_of_read hline) (ih hread)

theorem unifyNewlines_of_not_mem {s : Text} (h : '\r' ∉ s) : Text.unifyNewlines s = s := by
  induction s with
  | nil => rfl
  | cons c s ih =>
    have hc : c ≠ '\r' := fun hc => h (hc ▸ List.mem_cons_self)
    rw [Text.unifyNewlines.eq_def]
    split
    · next h' => cases h'
    · next h' => exact absurd (List.cons.inj h').1 hc
    · next h' =>
      obtain ⟨rfl, rfl⟩ := List.cons.inj h'
      rw [if_neg hc, ih (List.not_mem_of_not_mem_cons h)]

private theorem Line.exists_text (l : Line) : ∃ s, l.text = s ++ ['\n'] := by
  cases l with
  | blank => exact ⟨[], rfl⟩
  | comment margin text => exact ⟨_, rfl⟩
  | code margin first rest => exact ⟨_, rfl⟩

private theorem closeLine_lines (ls : List Line) :
    closeLine (ls.flatMap Line.text) = ls.flatMap Line.text := by
  refine if_pos ?_
  obtain rfl | ⟨ls, l, rfl⟩ := ls.eq_nil_or_concat
  · exact .inl rfl
  · obtain ⟨s, hs⟩ := l.exists_text
    refine .inr ?_
    simp [Text.endsWith, Text.beginsWith, Text.after?, hs]

/-- The tokens of a printed program: those of its lines, and the ends of the blocks that are still
open. -/
theorem kept_programTokens {ls : List Line} (h : readLines 1 [] ls = some (ts, opened)) :
    kept (programTokens (ls.flatMap Line.text)) =
      (ts ++ List.replicate opened.length ⟨.dedent, [], 1 + ls.length, 0⟩, none) := by
  have hreturn : '\r' ∉ ls.flatMap Line.text := fun hc => by
    obtain hc | hc := isInLine_of_readLines h hc <;> exact absurd hc (by decide)
  have hscan := scan_lines h []
  rw [List.append_nil] at hscan
  rw [programTokens, unifyNewlines_of_not_mem hreturn, closeLine_lines]
  refine hscan.trans ?_
  have hfinish : (LexState.atLine (1 + ls.length) opened).finish false =
      (List.replicate opened.length ⟨.dedent, [], 1 + ls.length, 0⟩, none) := rfl
  have hdedents : ∀ t ∈ List.replicate opened.length (⟨.dedent, [], 1 + ls.length, 0⟩ : Token),
      t.IsKept := by
    intro t ht
    rw [List.eq_of_mem_replicate ht]
    exact ⟨by simp, by simp⟩
  have hkept := kept_append hdedents ([], none)
  rw [List.append_nil] at hkept
  rw [scan_nil, hfinish, hkept]
  simp [preceded, kept]

end

end Code

end ServerPages
