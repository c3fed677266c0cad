import ServerPages.Proofs.Code.Parsing
import ServerPages.Proofs.Code.Quoted
import ServerPages.Text.Value

/-!
# Scalars as arguments

A call that hands on scalars, integers and texts written out, is one line of code whose pieces do
not run into one another (`read_write`). It is parsed as the call with those scalars, unless one of
them is an integer with more digits than a program may hold (`parse_write`).
-/

namespace ServerPages

namespace Code

/-- An integer or a text as a program writes it out: an integer in decimal, a text between marks. -/
inductive Scalar where
  | integer (negative : Bool) (n : Nat)
  | text {q : Char} {w v : Text} (hq : q = '"' ∨ q = '\'') (h : Spells q w v)

/-- The sign of a numeral. -/
def signOf (negative : Bool) : Text := if negative then ['-'] else []

namespace Scalar

/-- The text between quotation marks. -/
def quoted (s : Text) : Scalar := .text (mark_eq s) (.encode (mark_eq s) s)

/-- Whether a program may hold a scalar: an integer must not have too many digits. -/
def fits : Scalar → Bool
  | .integer _ n => (Decimal.ofNat n).length ≤ Decimal.digitLimit
  | .text _ _ => true

/-- How a scalar is written. -/
def spelling : Scalar → Text
  | .integer negative n => signOf negative ++ Decimal.ofNat n
  | .text (q := q) (w := w) _ _ => q :: w ++ [q]

/-- The value of a scalar. -/
def value : Scalar → Value
  | .integer negative n => .int (Decimal.signed negative n)
  | .text (v := v) _ _ => .text v

/-- The pieces of a scalar behind some spaces. -/
def pieces (space : Nat) : Scalar → List (Nat × Piece)
  | .integer true n => [(space, ⟨.operator, ['-']⟩), (0, ⟨.number, Decimal.ofNat n⟩)]
  | .integer false n => [(space, ⟨.number, Decimal.ofNat n⟩)]
  | .text (q := q) (w := w) _ _ => [(space, ⟨.string, q :: w ++ [q]⟩)]

/-- The tree of a scalar on a line. -/
def tree (line : Nat) : Scalar → Tree
  | .integer true n => .node (.unary ['-']) line [.node (.constant (.int n)) line []]
  | .integer false n => .node (.constant (.int n)) line []
  | .text (v := v) _ _ => .node (.constant (.text v)) line []

end Scalar

/-! ### Numerals -/

theorem isDigit_of_mem_ofNat {n : Nat} : ∀ c ∈ Decimal.ofNat n, isDigit c = true :=
  forall_mem_toDigits (by decide) (by decide)

/-- A natural number in decimal is a numeral. -/
theorem isNumeral_ofNat (n : Nat) : IsNumeral (Decimal.ofNat n) where
  digits := isDigit_of_mem_ofNat
  ne_nil h := by
    have hpos := Nat.length_toDigits_pos (b := 10) (n := n)
    rw [Decimal.ofNat] at h
    simp [h] at hpos
  no_leading_zero h := by
    obtain rfl | hpos := Nat.eq_zero_or_pos n
    · rfl
    · exact absurd h (head?_toDigits hpos)

private theorem isFirst_of_isDigit {c : Char} (h : isDigit c = true) : isFirst c = true := by
  have hne : ∀ b, isDigit b = false → c ≠ b := by
    rintro b hb rfl
    rw [h] at hb
    cases hb
  simp [isFirst, isInLine, isPad, hne '\n' rfl, hne '\r' rfl, hne '\x00' rfl, hne ' ' rfl,
    hne '\t' rfl, hne '\x0c' rfl, hne '\\' rfl, hne '#' rfl]

private theorem toLower_of_isDigit {c : Char} (h : isDigit c = true) : c.toLower = c := by
  have hrange : c ≤ '9' := by
    simp only [isDigit, Bool.and_eq_true, decide_eq_true_eq] at h
    exact h.2
  have hupper : ¬(c.val ≥ 'A'.val ∧ c.val ≤ 'Z'.val) := by
    rintro ⟨hA, -⟩
    exact absurd (Nat.le_trans hA hrange) (by decide)
  exact dif_neg hupper

private theorem ofNat_ne_based (n : Nat) {b : Char} {s : Text} : Decimal.ofNat n ≠ '0' :: b :: s := by
  intro h
  have hzero := (isNumeral_ofNat n).no_leading_zero (by rw [h]; rfl)
  rw [h] at hzero
  cases hzero

private theorem wholeNumber_ofNat (n : Nat) : Expression.wholeNumber (Decimal.ofNat n) = some n := by
  have hdigits := isDigit_of_mem_ofNat (n := n)
  have hne : ∀ c ∈ Decimal.ofNat n, ∀ a, isDigit a = false → c ≠ a := by
    rintro c hc a ha rfl
    rw [hdigits c hc] at ha
    cases ha
  have hplain : (Decimal.ofNat n).filter (· ≠ '_') = Decimal.ofNat n :=
    List.filter_eq_self.2 fun c hc => decide_eq_true (hne c hc '_' rfl)
  have hlower : (Decimal.ofNat n).map Char.toLower = Decimal.ofNat n := by
    rw [List.map_congr_left fun c hc => toLower_of_isDigit (hdigits c hc), List.map_id']
  have hvalue : (Decimal.ofNat n).foldl (fun v d => v * 10 + StringLiteral.hexValue d) 0 = n :=
    foldl_toDigits (by decide) (by decide)
  have hall : (Decimal.ofNat n).all isDigit = true := List.all_eq_true.2 hdigits
  simp only [Expression.wholeNumber, hplain, hlower]
  split
  · next h => exact absurd h (ofNat_ne_based n)
  · next h => exact absurd h (ofNat_ne_based n)
  · next h => exact absurd h (ofNat_ne_based n)
  · rw [if_pos hall, hvalue]

/-- The token of a natural number is parsed as that number, unless it has too many digits. -/
theorem number_ofNat (n line column : Nat) (ts : List Token) :
    Expression.number ⟨.number, Decimal.ofNat n, line, column⟩ ts =
      Parser.provided (Scalar.integer false n).fits (.node (.constant (.int n)) line []) ts := by
  have hdigits := isDigit_of_mem_ofNat (n := n)
  have hall : (Decimal.ofNat n).all (fun c => isDigit c || c = '_') = true :=
    List.all_eq_true.2 fun c hc => by rw [hdigits c hc]; rfl
  have hfilter : (Decimal.ofNat n).filter isDigit = Decimal.ofNat n :=
    List.filter_eq_self.2 hdigits
  simp only [Expression.number, wholeNumber_ofNat, hall, hfilter, true_and, Scalar.fits]
  by_cases h : Decimal.digitLimit < (Decimal.ofNat n).length
  · rw [if_pos h, decide_eq_false (Nat.not_le.2 h)]
    rfl
  · rw [if_neg h, decide_eq_true (Nat.not_lt.1 h)]
    rfl

/-! ### Arguments -/

/-- The tokens of pieces that stand behind some column of a line. -/
def placed (line column : Nat) : List (Nat × Piece) → List Token
  | [] => []
  | (n, p) :: ps =>
    ⟨p.kind, p.text, line, column + n⟩ :: placed line (column + n + p.text.length) ps

private theorem exists_placed_append (line column : Nat) (ps qs : List (Nat × Piece)) :
    ∃ next, placed line column (ps ++ qs) = placed line column ps ++ placed line next qs := by
  induction ps generalizing column with
  | nil => exact ⟨column, rfl⟩
  | cons np ps ih =>
    obtain ⟨next, hnext⟩ := ih (column + np.1 + np.2.text.length)
    exact ⟨next, congrArg (List.cons _) hnext⟩

open Code.Parser Expression

variable {rules : Rules} {u : Token} {rest : List Token}

private theorem atom_number (k line column : Nat) (ts : List Token) :
    atom rules (⟨.number, Decimal.ofNat k, line, column⟩ :: ts) =
      provided (Scalar.integer false k).fits (.node (.constant (.int k)) line []) ts := by
  refine (bind_ok rfl).trans ?_
  simp only [List.head?_cons]
  exact (bind_ok rfl).trans (number_ofNat k line column ts)

private theorem strings_one {q : Char} {w v : Text} (hq : q = '"' ∨ q = '\'') (h : Spells q w v)
    (hu : u.kind ≠ .string) (line column : Nat) :
    strings rules (⟨.string, q :: w ++ [q], line, column⟩ :: u :: rest) =
      .ok (.node (.constant (.text v)) line [], u :: rest) := by
  refine (bind_ok rfl).trans ((bind_ok (Loops.more (b := [⟨.string, q :: w ++ [q], line, column⟩])
    rfl (by simp) (.stop ?_)).loop).trans ?_)
  · refine (bind_ok rfl).trans ?_
    simp only [List.tail_cons, List.head?_cons, if_neg hu]
    rfl
  simp only [List.map_cons, List.map_nil, h.ofToken hq, List.any_cons, List.any_nil,
    Bool.or_false, Bool.false_eq_true, if_false]
  have hvalue : StringLiteral.value? ⟨false, false, false, w⟩ = some (Letter.ofText v) := by
    rw [← h.ofToken hq, h.value? hq]
  simp [hvalue]
  rfl

theorem isArgument_string {q : Char} {w v : Text} (hq : q = '"' ∨ q = '\'') (h : Spells q w v)
    (n line column : Nat) :
    IsArgument (Expression.parse (n + 16)) [⟨.string, q :: w ++ [q], line, column⟩] true
      (.node (.constant (.text v)) line []) :=
  isArgument_of_atom (n := n + 1) (Token.beginsOperand_of_kind (by simp) (by simp))
    (by simp) fun u rest hu => by
      refine (bind_ok rfl).trans ?_
      simp only [List.head?_cons]
      exact strings_one hq h hu.kind_ne_string line column

private theorem isArgument_number (k n line column : Nat) :
    IsArgument (Expression.parse (n + 16)) [⟨.number, Decimal.ofNat k, line, column⟩]
      (Scalar.integer false k).fits (.node (.constant (.int k)) line []) :=
  isArgument_of_atom (n := n + 1) (Token.beginsOperand_of_kind (by simp) (by simp))
    (by simp) fun u rest _ => atom_number k line column (u :: rest)

private theorem isArgument_negative (k n line column next : Nat) :
    IsArgument (Expression.parse (n + 17))
      [⟨.operator, ['-'], line, column⟩, ⟨.number, Decimal.ofNat k, line, next⟩]
      (Scalar.integer true k).fits
      (.node (.unary ['-']) line [.node (.constant (.int k)) line []]) :=
  isArgument_of_factor (n := n + 4) ⟨Token.isPlain_of_kind (by simp), fun _ => .inl rfl⟩
    (by simp [isName]) fun u rest hu => by
      have hsettled := settled_provided (Scalar.integer false k).fits
        (Tree.node (.constant (.int k)) line []) hu rest
      have hfactor := factor_of_atom (n := n + 1) hsettled
        (Token.isPlain_of_kind (by simp)) (by simp) (atom_number k line next (u :: rest))
      exact (bind_ok rfl).trans ((bind_ok rfl).trans (bind_provided hfactor rfl))

/-- A scalar is parsed as an argument if a program may hold it. -/
theorem Scalar.isArgument (l : Scalar) (n space line column : Nat) :
    IsArgument (Expression.parse (n + 17)) (placed line column (l.pieces space)) l.fits
      (l.tree line) := by
  cases l with
  | text hq h => exact isArgument_string hq h (n + 1) line (column + space)
  | integer negative k =>
    cases negative with
    | false => exact isArgument_number k (n + 1) line (column + space)
    | true => exact isArgument_negative k n line (column + space) _

private theorem areArguments_scalars {n : Nat} {ts : List Token} {right : Bool} {v : Tree}
    (h : IsArgument (Expression.parse (n + 17)) ts right v) (ls : List Scalar)
    (line column : Nat) :
    AreArguments (Expression.parse (n + 17))
      (ts ++ placed line column (ls.flatMap fun l => (0, ⟨.operator, [',']⟩) :: l.pieces 1))
      (right && ls.all Scalar.fits) (v :: ls.map (Scalar.tree line)) := by
  induction ls generalizing ts right v column with
  | nil => simpa [placed] using AreArguments.one h
  | cons l ls ih =>
    obtain ⟨next, hnext⟩ := exists_placed_append line (column + 1) (l.pieces 1)
      (ls.flatMap fun l => (0, ⟨.operator, [',']⟩) :: l.pieces 1)
    rw [List.flatMap_cons, List.cons_append, placed]
    simp only [List.length_singleton, Nat.add_zero, hnext]
    exact .more h rfl (ih (l.isArgument n 1 line (column + 1)) next)

/-! ### Calls that write -/

/-- What stands behind the first argument of a call: more scalars, and the bracket. -/
def furtherPieces (ls : List Scalar) : List (Nat × Piece) :=
  ls.flatMap (fun l => (0, ⟨.operator, [',']⟩) :: l.pieces 1) ++ [(0, ⟨.operator, [')']⟩)]

/-- What stands behind the first name of a call that writes scalars. -/
def writePieces (ls : List Scalar) : List (Nat × Piece) :=
  (0, ⟨.operator, ['.']⟩) :: (0, ⟨.name, "fprint".toList⟩) :: (0, ⟨.operator, ['(']⟩) ::
    (0, ⟨.name, "gosp_out".toList⟩) :: furtherPieces ls

/-- The line of a page's body that writes scalars. -/
def Line.write (ls : List Scalar) : Line := .code 8 ⟨.name, "gosp".toList⟩ (writePieces ls)

/-- The tokens of that line but for its end. -/
def writeTokens (ls : List Scalar) (line : Nat) : List Token :=
  placed line 8 ((0, ⟨.name, "gosp".toList⟩) :: writePieces ls)

/-- The tree of the statement on that line. -/
def writeTree (ls : List Scalar) (line : Nat) : Tree :=
  .node .expression line [Expression.memberCall line "gosp".toList "fprint".toList
    (Expression.nameTree line "gosp_out".toList :: ls.map (Scalar.tree line))]

private theorem piecesText_pieces (l : Scalar) (n : Nat) :
    piecesText (l.pieces n) = List.replicate n ' ' ++ l.spelling := by
  cases l with
  | text hq h => simp [piecesText, Scalar.pieces, Scalar.spelling]
  | integer negative k =>
    cases negative <;> simp [piecesText, Scalar.pieces, Scalar.spelling, signOf]

private theorem piecesText_append (ps qs : List (Nat × Piece)) :
    piecesText (ps ++ qs) = piecesText ps ++ piecesText qs := List.flatMap_append

theorem piecesText_furtherPieces (ls : List Scalar) :
    piecesText (furtherPieces ls) = ls.flatMap (fun l => ", ".toList ++ l.spelling) ++ [')'] := by
  induction ls with
  | nil => rfl
  | cons l ls ih =>
    have hcons : furtherPieces (l :: ls) =
        (0, ⟨.operator, [',']⟩) :: (l.pieces 1 ++ furtherPieces ls) := by
      simp [furtherPieces]
    have hcomma : ∀ ps, piecesText ((0, ⟨.operator, [',']⟩) :: ps) = ',' :: piecesText ps :=
      fun ps => rfl
    rw [hcons, hcomma, piecesText_append, ih, piecesText_pieces]
    simp

theorem Line.text_write (ls : List Scalar) :
    (Line.write ls).text = List.replicate 8 ' ' ++ "gosp.fprint(gosp_out".toList ++
      ls.flatMap (fun l => ", ".toList ++ l.spelling) ++ ")\n".toList := by
  have hcall : piecesText ((0, ⟨.name, "gosp".toList⟩) :: writePieces ls) =
      "gosp.fprint(gosp_out".toList ++ piecesText (furtherPieces ls) := rfl
  rw [Line.write, Line.text, hcall, piecesText_furtherPieces]
  simp

private theorem nextChar_furtherPieces (ls : List Scalar) :
    nextChar (furtherPieces ls) = ',' ∨ nextChar (furtherPieces ls) = ')' := by
  cases ls with
  | nil => exact .inr rfl
  | cons l ls => exact .inl rfl

private theorem readPieces_step (st after : LexState) {n : Nat} {p : Piece} {ps : List (Nat × Piece)}
    (hfits : p.fits (nextChar ps) = true)
    (hafter : (if p.kind = .operator then
        ({ st with column := st.column + n } : LexState).bracket true p.text
      else .ok { st with column := st.column + n }) = .ok after) :
    readPieces st ((n, p) :: ps) =
      (readPieces { after with column := after.column + p.text.length } ps).map fun r =>
        (⟨p.kind, p.text, st.line, st.column + n⟩ :: r.1, r.2) := by
  rw [readPieces, if_pos hfits]
  simp only [hafter]
  rfl

/-- A piece that opens and closes no bracket. -/
theorem readPieces_cons (st : LexState) {n : Nat} {p : Piece} {ps : List (Nat × Piece)}
    (hfits : p.fits (nextChar ps) = true)
    (hbracket : p.kind = .operator → ∀ st : LexState, st.bracket true p.text = .ok st) :
    readPieces st ((n, p) :: ps) =
      (readPieces { st with column := st.column + n + p.text.length } ps).map fun r =>
        (⟨p.kind, p.text, st.line, st.column + n⟩ :: r.1, r.2) := by
  refine readPieces_step st { st with column := st.column + n } hfits ?_
  split
  · next hk => exact hbracket hk _
  · rfl

private theorem fits_number {n : Nat} {e : Char} (he : e = ',' ∨ e = ')') :
    (Piece.mk .number (Decimal.ofNat n)).fits e = true := by
  have hnumeral := isNumeral_ofNat n
  obtain ⟨c, s, hs⟩ := List.exists_cons_of_ne_nil hnumeral.ne_nil
  have hfirst : (Decimal.ofNat n).head?.any isFirst = true := by
    rw [hs]
    exact isFirst_of_isDigit (hnumeral.digits c (by rw [hs]; exact List.mem_cons_self))
  have hin : (Decimal.ofNat n).all isInLine = true := List.all_eq_true.2 fun c hc => by
    have h := isFirst_of_isDigit (hnumeral.digits c hc)
    simp only [isFirst, Bool.and_eq_true] at h
    exact h.1.1.1
  have hends : endsNumber e = true := by obtain rfl | rfl := he <;> rfl
  simp [Piece.fits, hfirst, hin, hnumeral, hends]

private theorem fits_sign {e : Char} (he : isDigit e = true) :
    (Piece.mk .operator ['-']).fits e = true := by
  have hne : ∀ b, isDigit b = false → (e != b) = true := by
    rintro b hb
    rw [bne_iff_ne]
    rintro rfl
    rw [he] at hb
    cases hb
  have hends : endsMark ['-'] e = true := by
    simp [endsMark, hne '=' rfl, hne '.' rfl, hne '>' rfl]
  simp [Piece.fits, hends, marks, isFirst, isInLine, isPad]

private theorem readPieces_scalar (l : Scalar) (st : LexState) (n : Nat) {ps : List (Nat × Piece)}
    (hnext : nextChar ps = ',' ∨ nextChar ps = ')') :
    ∃ next, placed st.line st.column (l.pieces n ++ ps) =
        placed st.line st.column (l.pieces n) ++ placed st.line next ps ∧
      readPieces st (l.pieces n ++ ps) = (readPieces { st with column := next } ps).map fun r =>
        (placed st.line st.column (l.pieces n) ++ r.1, r.2) := by
  cases l with
  | @text q w v hq h =>
    have hmark : nextChar ps ≠ q := by
      obtain rfl | rfl := hq <;> obtain hc | hc := hnext <;> rw [hc] <;> decide
    exact ⟨_, rfl, readPieces_cons st (h.fits hq hmark) (by simp)⟩
  | integer negative k =>
    cases negative with
    | false => exact ⟨_, rfl, readPieces_cons st (fits_number hnext) (by simp)⟩
    | true =>
      have hdigit : isDigit (nextChar ((0, ⟨.number, Decimal.ofNat k⟩) :: ps)) = true := by
        have hnumeral := isNumeral_ofNat k
        obtain ⟨c, s, hs⟩ := List.exists_cons_of_ne_nil hnumeral.ne_nil
        rw [nextChar, hs]
        exact hnumeral.digits c (by rw [hs]; exact List.mem_cons_self)
      have hnumber := readPieces_cons { st with column := st.column + n + 1 } (n := 0)
        (fits_number (n := k) hnext) (by simp)
      refine ⟨_, rfl, (readPieces_cons st (fits_sign hdigit) fun _ _ => rfl).trans ?_⟩
      simp only [List.length_singleton, hnumber, Option.map_map]
      rfl

/-- A place inside one bracket. -/
abbrev LexState.inCall (line column : Nat) (indents : List (Nat × Nat)) : LexState :=
  { line, column, indents, depth := 1, brackets := ['('] }

/-- Scalars and the bracket behind them are read inside a bracket. -/
theorem readPieces_furtherPieces (ls : List Scalar) (line column : Nat)
    (indents : List (Nat × Nat)) :
    ∃ next, readPieces (.inCall line column indents) (furtherPieces ls) =
      some (placed line column (furtherPieces ls), { line, column := next, indents }) := by
  induction ls generalizing column with
  | nil => exact ⟨_, rfl⟩
  | cons l ls ih =>
    have hcons : furtherPieces (l :: ls) =
        (0, ⟨.operator, [',']⟩) :: (l.pieces 1 ++ furtherPieces ls) := by
      simp [furtherPieces]
    have hspace : nextChar (l.pieces 1 ++ furtherPieces ls) = ' ' := by
      cases l with
      | text hq h => rfl
      | integer negative k => cases negative <;> rfl
    obtain ⟨behind, hplaced, hread⟩ := readPieces_scalar l (.inCall line (column + 1) indents) 1
      (nextChar_furtherPieces ls)
    obtain ⟨next, hnext⟩ := ih behind
    refine ⟨next, ?_⟩
    rw [hcons, readPieces_cons _ (by rw [hspace]; rfl) fun _ _ => rfl]
    simp only [List.length_singleton, Nat.add_zero, placed]
    simp only at hplaced
    rw [hread, hnext, hplaced]
    rfl

theorem read_write (ls : List Scalar) (line : Nat) (outer : List (Nat × Nat)) :
    ∃ column, (Line.write ls).read line ((8, 8) :: outer) =
      some (writeTokens ls line ++ [⟨.newline, ['\n'], line, column⟩], (8, 8) :: outer) := by
  obtain ⟨next, hnext⟩ := readPieces_furtherPieces ls line 28 ((8, 8) :: outer)
  have hout : (Piece.mk .name "gosp_out".toList).fits (nextChar (furtherPieces ls)) = true := by
    obtain h | h := nextChar_furtherPieces ls <;> rw [h] <;> decide
  have hsettle : ({ line, column := 8, indents := (8, 8) :: outer } : LexState).settle true
      ⟨8, 8, 8⟩ (List.replicate 8 ' ') =
        .ok ([], { line, column := 8, indents := (8, 8) :: outer }) := by
    simp [LexState.settle, LexState.width]
  have hread : readPieces { line, column := 8, indents := (8, 8) :: outer }
      ((0, ⟨.name, "gosp".toList⟩) :: writePieces ls) =
        some (writeTokens ls line, { line, column := next, indents := (8, 8) :: outer }) := by
    have hopened : readPieces { line, column := 19, indents := (8, 8) :: outer }
        ((0, ⟨.operator, ['(']⟩) :: (0, ⟨.name, "gosp_out".toList⟩) :: furtherPieces ls) =
          some (⟨.operator, ['('], line, 19⟩ :: ⟨.name, "gosp_out".toList, line, 20⟩ ::
            placed line 28 (furtherPieces ls),
            { line, column := next, indents := (8, 8) :: outer }) := by
      have hinside : readPieces (.inCall line 20 ((8, 8) :: outer))
          ((0, ⟨.name, "gosp_out".toList⟩) :: furtherPieces ls) =
            some (⟨.name, "gosp_out".toList, line, 20⟩ :: placed line 28 (furtherPieces ls),
              { line, column := next, indents := (8, 8) :: outer }) := by
        rw [readPieces_cons _ hout (by simp)]
        exact congrArg (Option.map _) hnext
      have hfits : (Piece.mk .operator ['(']).fits 'g' = true := by decide
      exact Eq.trans (readPieces_step _ (.inCall line 19 ((8, 8) :: outer)) hfits rfl)
        (congrArg (Option.map _) hinside)
    have hgosp : (Piece.mk .name "gosp".toList).fits '.' = true := by decide
    have hpoint : (Piece.mk .operator ['.']).fits 'f' = true := by decide
    have hfprint : (Piece.mk .name "fprint".toList).fits '(' = true := by decide
    rw [writePieces, readPieces_cons, readPieces_cons, readPieces_cons]
    · exact congrArg (Option.map _) (congrArg (Option.map _) (congrArg (Option.map _) hopened))
    · exact hfprint
    · simp
    · exact hpoint
    · exact fun _ _ => rfl
    · exact hgosp
    · simp
  refine ⟨next, ?_⟩
  rw [Line.write, Line.read, hsettle]
  simp only [hread]
  rfl

/-- A line that writes scalars is parsed as the call that hands them on if a program may hold
them. -/
theorem parse_write {pattern : PatternGoal → Parser Tree} (ls : List Scalar) (n m line column : Nat)
    (rest : List Token) :
    Statement.parse (Expression.parse (n + 32)) pattern (m + 1) .statement
        (writeTokens ls line ++ ⟨.newline, ['\n'], line, column⟩ :: rest) =
      provided (ls.all Scalar.fits) [writeTree ls line] rest := by
  have hout : isName ⟨.name, "gosp_out".toList, line, 20⟩ = true := by rfl
  have houtArgument : IsArgument (Expression.parse (n + 17))
      [⟨.name, "gosp_out".toList, line, 20⟩] true (nameTree line "gosp_out".toList) :=
    isArgument_of_atom (n := n + 2) (beginsOperand_of_isName hout) (by simp)
      fun u rest _ => atom_of_isName hout
  obtain ⟨next, hnext⟩ := exists_placed_append line 28
    (ls.flatMap fun l => (0, ⟨.operator, [',']⟩) :: l.pieces 1) [(0, ⟨.operator, [')']⟩)]
  have htokens : writeTokens ls line = ⟨.name, "gosp".toList, line, 8⟩ ::
      ⟨.operator, ['.'], line, 12⟩ :: ⟨.name, "fprint".toList, line, 13⟩ ::
      ⟨.operator, ['('], line, 19⟩ :: ([⟨.name, "gosp_out".toList, line, 20⟩] ++
        placed line 28 (ls.flatMap fun l => (0, ⟨.operator, [',']⟩) :: l.pieces 1) ++
        [⟨.operator, [')'], line, next⟩]) := by
    have hconcat : writeTokens ls line = ⟨.name, "gosp".toList, line, 8⟩ ::
        ⟨.operator, ['.'], line, 12⟩ :: ⟨.name, "fprint".toList, line, 13⟩ ::
        ⟨.operator, ['('], line, 19⟩ :: ⟨.name, "gosp_out".toList, line, 20⟩ ::
        placed line 28 (furtherPieces ls) := rfl
    rw [hconcat, furtherPieces, hnext]
    rfl
  have hmatch : "gosp".toList ≠ "match".toList := by decide
  have hcall : Statement.parse (Expression.parse (n + 32)) pattern (m + 1) .statement
      (⟨.name, "gosp".toList, line, 8⟩ :: ⟨.operator, ['.'], line, 12⟩ ::
        ⟨.name, "fprint".toList, line, 13⟩ :: ⟨.operator, ['('], line, 19⟩ ::
        ([⟨.name, "gosp_out".toList, line, 20⟩] ++
          placed line 28 (ls.flatMap fun l => (0, ⟨.operator, [',']⟩) :: l.pieces 1) ++
          ⟨.operator, [')'], line, next⟩ :: ⟨.newline, ['\n'], line, column⟩ :: rest)) =
        provided (true && ls.all Scalar.fits) [writeTree ls line] rest :=
    Statement.parse_call rfl hmatch rfl rfl rfl
      (arguments_of_areArguments (areArguments_scalars houtArgument ls line 28) rfl) rfl
  rw [htokens]
  simp only [List.cons_append, List.nil_append, List.append_assoc] at hcall ⊢
  exact hcall

end Code

end ServerPages
