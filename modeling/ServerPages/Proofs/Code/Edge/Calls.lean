import ServerPages.Module.Layout
import ServerPages.Proofs.Code.Edge.Arguments
import ServerPages.Proofs.Code.Edge.Enclosed
import ServerPages.Proofs.Code.Scalars

/-!
# Calls that hand on an expression

A call that writes the value of an expression is read alike wherever it stands, be the expression
written on the line of the call (`alike_scan_spliced`) or in brackets on a line of its own, with a
comment behind it (`alike_scan_bracketed`).
-/

namespace ServerPages

namespace Code

variable {c : Char} {e s t w x y z : Text} {m : Nat} {st : LexState} {ps ts : List Token}
  {bs bs' : List Char}

/-! ### What is kept -/

private theorem alike_kept {r r' : List Token × Option LexFault} (h : Alike r r') :
    Alike (kept r) (kept r') := by
  refine alike_pair_iff.mpr ⟨h.fst.filter fun a b hab => ?_, h.snd⟩
  rw [(alike_token_iff.mp hab).1]

private theorem kept_preceded (h : ∀ t ∈ ts, t.IsKept) (r : List Token × Option LexFault) :
    kept (preceded ts r) = preceded ts (kept r) := kept_append h r

private theorem kept_preceded_idle {p : Token} (h : p.kind = .comment ∨ p.kind = .blankLine)
    (r : List Token × Option LexFault) : kept (preceded [p] r) = kept r := by
  obtain h | h := h <;> simp [kept, preceded, h]

/-- The tokens of code of one line are those of names, numbers, strings and operators. -/
theorem Runs.kind_mem (h : Runs x ps) :
    ∀ p ∈ ps, p.kind ∈ [TokenKind.name, .number, .string, .operator] := by
  induction h with
  | nil => nofun
  | pad _ _ ih => exact ih
  | token _ hkind _ _ _ _ ih => exact List.forall_mem_cons.mpr ⟨hkind, ih⟩
  | stray _ _ hkind _ ih =>
    obtain ⟨rfl, -⟩ := of_strayLexeme hkind
    exact List.forall_mem_cons.mpr ⟨by simp, ih⟩

theorem Runs.isKept (h : Runs x ps) : ∀ p ∈ ps, p.IsKept := by
  have hkinds : ∀ kind ∈ [TokenKind.name, .number, .string, .operator],
      kind ≠ .comment ∧ kind ≠ .blankLine := by decide
  exact fun p hp => hkinds _ (h.kind_mem p hp)

theorem exists_kind_of_alike {us : List Token} (h : Alike ts us) {u : Token} (hu : u ∈ us) :
    ∃ t ∈ ts, t.kind = u.kind := by
  have hkinds := h.map_eq (f := Token.kind) fun a b hab => (alike_token_iff.mp hab).1
  exact List.mem_map.mp (hkinds ▸ List.mem_map_of_mem hu)

theorem isKept_of_alike {us : List Token} (h : Alike ts us) (hts : ∀ t ∈ ts, t.IsKept) :
    ∀ u ∈ us, u.IsKept := by
  intro u hu
  obtain ⟨t, ht, hkind⟩ := exists_kind_of_alike h hu
  rw [Token.IsKept, ← hkind]
  exact hts t ht

private theorem Runs.alike_kept_scan (st : LexState) (h : Runs x ps) (hy : IsDelimited y)
    (hb : nested bs ps = .ok bs') :
    Alike (kept (scan .strict' (st.holding bs) false (x ++ y)))
      (preceded ps (kept (scan .strict' (st.holding bs') false y))) := by
  have hscan := alike_kept (h.alike_scan st hy hb)
  rwa [kept_preceded h.isKept] at hscan

/-! ### What is passed over -/

theorem isDelimited_append (hw : ∀ c ∈ w, isPad c = true) (hy : IsDelimited y) :
    IsDelimited (w ++ y) := by
  cases w with
  | nil => exact hy
  | cons c w =>
    have hc := hw c List.mem_cons_self
    simp only [isPad, Bool.or_eq_true, beq_iff_eq] at hc
    refine isDelimited_cons ?_ _
    obtain (rfl | rfl) | rfl := hc <;> decide

private theorem alike_scan_pads (hw : ∀ c ∈ w, isPad c = true) (s : Text) :
    Alike (scan .strict' st false (w ++ s)) (scan .strict' st false s) := by
  induction w with
  | nil => exact .refl _
  | cons c w ih =>
    obtain ⟨hc, hw⟩ := List.forall_mem_cons.mp hw
    rw [List.cons_append, scan_pad hc]
    exact (alike_scan (LexState.alike_advance_self st _)).trans (ih hw)

/-- The end of a line inside brackets. -/
theorem alike_kept_newline (st : LexState) (hbs : bs ≠ []) (hs : s ≠ []) :
    Alike (kept (scan .strict' (st.holding bs) false ('\n' :: s)))
      (kept (scan .strict' (st.holding bs) false s)) := by
  have hpos : 0 < (st.holding bs).depth := Int.natCast_pos.mpr (List.length_pos_of_ne_nil hbs)
  have hlex : lexeme .strict' ('\n' :: s) = .lineEnd 1 := rfl
  have hhere : (st.holding bs).advance (('\n' :: s).takeWhile isPad) = st.holding bs :=
    LexState.advance_nil _
  have hdepth : ((st.holding bs).advance ['\n']).depth ≠ 0 := by
    rw [LexState.depth_advance]
    exact hpos.ne'
  have hstep : scan .strict' (st.holding bs) false ('\n' :: s) = _ :=
    scan_lineEnd (dropWhile_of_not_isPad rfl s) hlex
  rw [hhere] at hstep
  dsimp only at hstep
  rw [if_pos hpos, Nat.sub_self, List.take_zero, List.drop_zero, scan_bracketed hs hdepth] at hstep
  rw [hstep]
  show Alike (kept (preceded [_] (scan .strict' ((st.holding bs).advance ['\n']) false s))) _
  rw [kept_preceded_idle (.inr rfl)]
  exact alike_kept (alike_scan (LexState.alike_advance_self _ _))

/-- A comment at the end of a line. -/
theorem alike_kept_comment (ht : ∀ c ∈ t, isInLine c = true) (s : Text) :
    Alike (kept (scan .strict' st false ('#' :: (t ++ '\n' :: s))))
      (kept (scan .strict' st false ('\n' :: s))) := by
  have htake : (t ++ '\n' :: s).takeWhile (fun c => c ≠ '\r' ∧ c ≠ '\n') = t := by
    have hall : ∀ c ∈ t, decide (c ≠ '\r' ∧ c ≠ '\n') = true := by
      intro c hc
      have hline := ht c hc
      simp only [isInLine, Bool.and_eq_true, bne_iff_ne] at hline
      exact decide_eq_true ⟨hline.1.2, hline.1.1⟩
    rw [List.takeWhile_append_of_pos hall, List.takeWhile_cons_of_neg (by simp), List.append_nil]
  have hlex : lexeme .strict' ('#' :: (t ++ '\n' :: s)) = .token .comment (1 + t.length) := by
    show Lexeme.token .comment _ = _
    rw [htake]
  have hstep : scan .strict' st false ('#' :: (t ++ '\n' :: s)) = _ :=
    scan_token (dropWhile_of_not_isPad rfl (t ++ '\n' :: s)) hlex
    (if_neg (by decide))
  have hdrop : (t ++ '\n' :: s).drop (1 + t.length - 1) = '\n' :: s := by
    rw [Nat.add_sub_cancel_left, List.drop_left]
  rw [hdrop] at hstep
  rw [hstep]
  show Alike (kept (preceded [_] (scan .strict' _ false ('\n' :: s)))) _
  rw [kept_preceded_idle (.inl rfl)]
  exact alike_kept (alike_scan ((LexState.alike_advance_self _ _).trans
    (LexState.alike_advance_self _ _)))

/-! ### The beginning and the end of a call -/

/-- The tokens of a call before the expression, their places aside. -/
def openingTokens : List Token :=
  [⟨.name, "gosp".toList, 0, 0⟩, ⟨.operator, ['.'], 0, 0⟩, ⟨.name, "fprint".toList, 0, 0⟩,
    bracketToken '(', ⟨.name, "gosp_out".toList, 0, 0⟩, ⟨.operator, [','], 0, 0⟩]

/-- The tokens of a call behind the expression, their places aside. -/
def closingTokens (s : Text) : List Token :=
  [⟨.operator, [','], 0, 0⟩, ⟨.string, Quoted.encode s, 0, 0⟩, bracketToken ')',
    ⟨.newline, ['\n'], 0, 0⟩]

private theorem runs_opening : Runs "gosp.fprint(gosp_out,".toList openingTokens :=
  .of_lexeme (n := 4) rfl rfl rfl <| .of_lexeme (n := 1) rfl rfl rfl <|
    .of_lexeme (n := 6) rfl rfl rfl <| .of_lexeme (n := 1) rfl rfl rfl <|
    .of_lexeme (n := 8) rfl rfl rfl <| .of_lexeme (n := 1) rfl rfl rfl .nil

/-- The beginning of a call is read, and opens its bracket. -/
theorem alike_kept_opening (s : Text) :
    Alike (kept (scan .strict' (st.holding []) false (Layout.writeCall ++ s)))
      (preceded openingTokens (kept (scan .strict' (st.holding ['(']) false s))) := by
  have hsplit : Layout.writeCall ++ s = "gosp.fprint(gosp_out,".toList ++ ' ' :: s := rfl
  rw [hsplit]
  refine (runs_opening.alike_kept_scan st (isDelimited_cons (by decide) s) rfl).trans
    (alike_preceded (.refl _) (alike_kept ?_))
  rw [scan_pad rfl]
  exact alike_scan (LexState.alike_advance_self _ _)

/-- What stands behind the expression in a call. -/
def callEnd (s : Text) : Text := ", ".toList ++ Quoted.encode s ++ [')']

/-- The end of a call is read, and closes its bracket. -/
theorem alike_kept_closing (st : LexState) (s z : Text) :
    Alike (kept (scan .strict' (st.holding ['(']) false (callEnd s ++ '\n' :: z)))
      (preceded (closingTokens s) (kept (scan .strict' (st.holding []) true z))) := by
  obtain ⟨next, hnext⟩ :=
    readPieces_furtherPieces [Scalar.quoted s] st.line st.column st.indents
  have htext : callEnd s = piecesText (furtherPieces [Scalar.quoted s]) := by
    rw [piecesText_furtherPieces]
    simp [callEnd]
    rfl
  have hscan := scan_pieces hnext z
  have hkept : ∀ p ∈ closingTokens s, p.IsKept := by
    simp [closingTokens, bracketToken, Token.IsKept]
  have htokens : Alike (placed st.line st.column (furtherPieces [Scalar.quoted s]) ++
      [⟨.newline, ['\n'], st.line, next⟩]) (closingTokens s) := rfl
  have hstate : st.holding ['('] = .inCall st.line st.column st.indents := rfl
  rw [scan_newline rfl] at hscan
  rw [htext]
  have hread : Alike (scan .strict' (st.holding ['(']) false
        (piecesText (furtherPieces [Scalar.quoted s]) ++ '\n' :: z))
      (preceded (closingTokens s) (scan .strict' (st.holding []) true z)) := by
    rw [hstate, hscan]
    show Alike (preceded _ (preceded [_] (scan .strict' _ true z))) _
    rw [preceded_append]
    exact alike_preceded htokens (alike_scan (alike_lexState_iff.mpr ⟨rfl, rfl, rfl⟩))
  rw [← kept_preceded hkept]
  exact alike_kept hread

/-! ### Lines -/

/-- A place where statements may begin at a margin: no bracket is open, and the innermost
indentation is that margin. -/
structure LexState.IsOpen (st : LexState) (m : Nat) : Prop where
  depth : st.depth = 0
  brackets : st.brackets = []
  width : st.width = (m, m)

private theorem LexState.IsOpen.holding_nil (h : st.IsOpen m) : st.holding [] = st := by
  obtain ⟨line, column, indents, depth, brackets⟩ := st
  obtain ⟨rfl, rfl, -⟩ := h
  rfl

theorem LexState.IsOpen.settle (h : st.IsOpen m) (lead : Text) :
    (st.advance (List.replicate m ' ')).settle true ⟨m, m, m⟩ lead =
      .ok ([], st.advance (List.replicate m ' ')) := by
  rw [LexState.advance_of_not_mem _ (newline_not_mem_spaces m)]
  obtain ⟨line, column, indents, depth, brackets⟩ := st
  obtain ⟨-, -, hwidth⟩ := h
  cases indents with
  | nil =>
    obtain ⟨rfl, -⟩ := Prod.mk.inj hwidth
    simp [LexState.settle, LexState.width]
  | cons i indents =>
    obtain rfl : i = (m, m) := hwidth
    simp [LexState.settle, LexState.width]

/-- A line that begins at the margin is read behind it. -/
theorem alike_scan_margin (h : st.IsOpen m) (hc : isFirst c = true) (t : Text) :
    Alike (scan .strict' st true (List.replicate m ' ' ++ c :: t))
      (scan .strict' (st.holding []) false (c :: t)) := by
  obtain ⟨hb, hn, hr, hs⟩ := ne_of_isFirst hc
  have hmargin := lineMargin_spaces (t := t) (not_isPad_of_isFirst hc) hb m
  have htake : (List.replicate m ' ' ++ c :: t).take m = List.replicate m ' ' :=
    List.take_left' List.length_replicate
  have hstep : scan .strict' st true (List.replicate m ' ' ++ c :: t) = _ :=
    scan_codeLine h.depth hmargin (List.drop_left' List.length_replicate) (by simp [hs, hr, hn])
      (by rw [htake]; exact h.settle _)
  rw [hstep, h.holding_nil]
  exact alike_scan (LexState.alike_advance_self _ _)

/-- An expression that is written on the line of the call. -/
theorem alike_scan_spliced (he : Runs e ps) (hb : nested ['('] ps = .ok ['(']) (h : st.IsOpen m)
    (s z : Text) :
    Alike (kept (scan .strict' st true
        (List.replicate m ' ' ++ (Layout.writeCall ++ (e ++ (callEnd s ++ '\n' :: z))))))
      (preceded (openingTokens ++ (ps ++ closingTokens s)) (kept (scan .strict' st true z))) := by
  have hmargin := alike_kept (alike_scan_margin h (c := 'g') rfl
    ("osp.fprint(gosp_out, ".toList ++ (e ++ (callEnd s ++ '\n' :: z))))
  have hdelimited : IsDelimited (callEnd s ++ '\n' :: z) := isDelimited_cons (by decide) _
  have hclosing := alike_kept_closing st s z
  rw [h.holding_nil] at hclosing
  exact hmargin.trans (alike_preceded_append (alike_kept_opening _)
    (alike_preceded_append (he.alike_kept_scan st hdelimited hb) hclosing))

private theorem alike_kept_bracket (hc : c = '(' ∨ c = ')')
    (hb : (st.holding bs).bracket true [c] = .ok (st.holding bs')) (y : Text) :
    Alike (kept (scan .strict' (st.holding bs) false (c :: y)))
      (preceded [bracketToken c] (kept (scan .strict' (st.holding bs') false y))) := by
  have hscan := alike_kept (alike_scan_bracket hc hb y)
  rwa [kept_preceded (by simp [bracketToken, Token.IsKept])] at hscan

/-- The brackets around an expression on a line of its own are open before it. -/
theorem alike_scan_opened (h : st.IsOpen m) (hw : ∀ c ∈ w, isPad c = true) (hs : s ≠ []) :
    Alike (kept (scan .strict' st true
        (List.replicate m ' ' ++ (Layout.writeCall ++ '(' :: '\n' :: (w ++ s)))))
      (preceded (openingTokens ++ [bracketToken '('])
        (kept (scan .strict' (st.holding ['(', '(']) false s))) := by
  have hopen : (st.holding ['(']).bracket true ['('] = .ok (st.holding ['(', '(']) :=
    LexState.bracket_open (by decide)
  have hopened := alike_kept_bracket (.inl rfl) hopen ('\n' :: (w ++ s))
  have hbehind : w ++ s ≠ [] := List.append_ne_nil_of_right_ne_nil w hs
  have hline := (alike_kept_newline st (List.cons_ne_nil '(' ['(']) hbehind).trans
    (alike_kept (alike_scan_pads hw s))
  have hmargin := alike_kept (alike_scan_margin h (c := 'g') rfl
    ("osp.fprint(gosp_out, ".toList ++ '(' :: '\n' :: (w ++ s)))
  exact hmargin.trans (alike_preceded_append (alike_kept_opening _)
    (hopened.trans (alike_preceded (.refl _) hline)))

/-- An expression that is written in brackets on a line of its own, with a comment behind it. -/
theorem alike_scan_bracketed (he : Runs e ps) (hb : nested ['(', '('] ps = .ok ['(', '('])
    (h : st.IsOpen m) (hw : ∀ c ∈ w, isPad c = true) (hx : ∀ c ∈ x, isPad c = true)
    (hy : ∀ c ∈ y, isPad c = true) (ht : ∀ c ∈ t, isInLine c = true) (s z : Text) :
    Alike (kept (scan .strict' st true (List.replicate m ' ' ++ (Layout.writeCall ++ '(' :: '\n' ::
        (w ++ (e ++ (x ++ '#' :: (t ++ '\n' :: (y ++ ')' :: (callEnd s ++ '\n' :: z))))))))))
      (preceded (openingTokens ++ [bracketToken '('] ++ (ps ++ (bracketToken ')' ::
        closingTokens s))) (kept (scan .strict' st true z))) := by
  have hclosing := alike_kept_closing st s z
  rw [h.holding_nil] at hclosing
  -- from the end of the line of the expression on
  have hbehind : Alike (kept (scan .strict' (st.holding ['(', '(']) false
        (x ++ '#' :: (t ++ '\n' :: (y ++ ')' :: (callEnd s ++ '\n' :: z))))))
      (preceded (bracketToken ')' :: closingTokens s) (kept (scan .strict' st true z))) := by
    have hbracket := alike_kept_bracket (.inr rfl) (LexState.bracket_close st ['('])
      (callEnd s ++ '\n' :: z)
    exact (alike_kept (alike_scan_pads hx _)).trans ((alike_kept_comment ht _).trans
      ((alike_kept_newline st (by simp) (by simp)).trans
        ((alike_kept (alike_scan_pads hy _)).trans (alike_preceded_append hbracket hclosing))))
  have hdelimited : IsDelimited
      (x ++ '#' :: (t ++ '\n' :: (y ++ ')' :: (callEnd s ++ '\n' :: z)))) :=
    isDelimited_append hx (isDelimited_cons (by decide) _)
  have hinside := alike_preceded_append (he.alike_kept_scan st hdelimited hb) hbehind
  exact alike_preceded_append (alike_scan_opened h hw (by simp)) hinside

/-! ### Parsing -/

open Code.Parser Expression

/-- The call that writes a value and a text. -/
def writing (v : Tree) (s : Text) : Tree :=
  .node .expression 1 [memberCall 1 "gosp".toList "fprint".toList
    [nameTree 1 "gosp_out".toList, v, .node (.constant (.text s)) 1 []]]

/-- A token that stands somewhere. -/
def tokenAt (kind : TokenKind) (text : Text) (place : Nat × Nat) : Token :=
  ⟨kind, text, place.1, place.2⟩

@[simp]
theorem kind_tokenAt (kind : TokenKind) (text : Text) (place : Nat × Nat) :
    (tokenAt kind text place).kind = kind := rfl

/-- The first of some tokens, wherever it stands. -/
theorem exists_tokenAt {kind : TokenKind} {text : Text} {l k : Nat} {us : List Token}
    (h : Alike ((⟨kind, text, l, k⟩ : Token) :: ts) us) :
    ∃ place us', us = tokenAt kind text place :: us' ∧ Alike ts us' := by
  obtain ⟨⟨kind, text, line, column⟩, us', rfl, htoken, hrest⟩ := h.exists_cons
  obtain ⟨rfl, rfl⟩ := alike_token_iff.mp htoken
  exact ⟨(line, column), us', rfl, hrest⟩

/-- The tokens of a call one by one, each wherever it stands. -/
theorem exists_call {us as : List Token} {s : Text}
    (h : Alike (openingTokens ++ (as ++ closingTokens s)) us) :
    ∃ p₁ p₂ p₃ p₄ p₅ p₆ p₇ p₈ p₉ p as', Alike as as' ∧
      us = tokenAt .name "gosp".toList p₁ :: tokenAt .operator ['.'] p₂ ::
        tokenAt .name "fprint".toList p₃ :: tokenAt .operator ['('] p₄ ::
        tokenAt .name "gosp_out".toList p₅ :: tokenAt .operator [','] p₆ ::
        (as' ++ [tokenAt .operator [','] p₇, tokenAt .string (Quoted.encode s) p₈,
          tokenAt .operator [')'] p₉, tokenAt .newline ['\n'] p]) := by
  obtain ⟨opening, us, rfl, hopening, hus⟩ := h.exists_append
  obtain ⟨as', closing, rfl, has, hclosing⟩ := hus.exists_append
  obtain ⟨p₁, _, rfl, hpoint⟩ := exists_tokenAt hopening
  obtain ⟨p₂, _, rfl, hmember⟩ := exists_tokenAt hpoint
  obtain ⟨p₃, _, rfl, hbracket⟩ := exists_tokenAt hmember
  obtain ⟨p₄, _, rfl, hsink⟩ := exists_tokenAt hbracket
  obtain ⟨p₅, _, rfl, hcomma⟩ := exists_tokenAt hsink
  obtain ⟨p₆, _, rfl, hnone⟩ := exists_tokenAt hcomma
  obtain rfl := hnone.nil_iff.mp rfl
  obtain ⟨p₇, _, rfl, hstring⟩ := exists_tokenAt hclosing
  obtain ⟨p₈, _, rfl, hend⟩ := exists_tokenAt hstring
  obtain ⟨p₉, _, rfl, hnewline⟩ := exists_tokenAt hend
  obtain ⟨p, _, rfl, hnone⟩ := exists_tokenAt hnewline
  obtain rfl := hnone.nil_iff.mp rfl
  exact ⟨p₁, p₂, p₃, p₄, p₅, p₆, p₇, p₈, p₉, p, as', has, rfl⟩

/-- The tokens of a call that hands on an expression are parsed as that call. -/
theorem parse_writing {pattern : PatternGoal → Parser Tree} {b k n : Nat} {us as : List Token}
    {v : Tree} (h : Expression.parse b .named ts = .ok (v, [])) (hb : b ≤ k + 17)
    (hts : Alike ts as) (s : Text) (hus : Alike (openingTokens ++ (as ++ closingTokens s)) us)
    (rest : List Token) :
    ∃ tree, Alike (writing v s) tree ∧
      Statement.parse (Expression.parse (k + 32)) pattern (n + 1) .statement (us ++ rest) =
        .ok ([tree], rest) := by
  obtain ⟨p₁, p₂, p₃, p₄, p₅, p₆, p₇, p₈, p₉, p, as', has, rfl⟩ := exists_call hus
  have hname : isName (tokenAt .name "gosp_out".toList p₅) = true := rfl
  have hout : IsArgument (Expression.parse (k + 17)) [tokenAt .name "gosp_out".toList p₅] true
      (nameTree p₅.1 "gosp_out".toList) :=
    isArgument_of_atom (n := k + 2) (beginsOperand_of_isName hname) (by simp)
      fun u rest _ => atom_of_isName hname
  have htext : IsArgument (Expression.parse (k + 17)) [tokenAt .string (Quoted.encode s) p₈] true
      (.node (.constant (.text s)) p₈.1 []) :=
    isArgument_string (mark_eq s) (.encode (mark_eq s) s) (k + 1) p₈.1 p₈.2
  have hcomma (p : Nat × Nat) : (tokenAt .operator [','] p).isOperator "," = true := rfl
  have hend : (tokenAt .operator [')'] p₉).isOperator ")" = true := rfl
  obtain ⟨v', hvv', harguments⟩ := arguments_between h hb (hts.trans has) hout (hcomma p₆)
    (hcomma p₇) htext hend (tokenAt .newline ['\n'] p :: rest)
  -- its brackets hold the three arguments
  have hsplit : [tokenAt .name "gosp_out".toList p₅] ++ tokenAt .operator [','] p₆ ::
      (as' ++ tokenAt .operator [','] p₇ :: ([tokenAt .string (Quoted.encode s) p₈] ++
        tokenAt .operator [')'] p₉ :: tokenAt .newline ['\n'] p :: rest)) =
      (tokenAt .name "gosp_out".toList p₅ :: tokenAt .operator [','] p₆ ::
        (as' ++ [tokenAt .operator [','] p₇, tokenAt .string (Quoted.encode s) p₈])) ++
          tokenAt .operator [')'] p₉ :: tokenAt .newline ['\n'] p :: rest := by simp
  rw [hsplit] at harguments
  have hmatch : "gosp".toList ≠ "match".toList := by decide
  have hcall : Statement.parse (Expression.parse (k + 16 + 16)) pattern (n + 1) .statement
      (tokenAt .name "gosp".toList p₁ :: tokenAt .operator ['.'] p₂ ::
        tokenAt .name "fprint".toList p₃ :: tokenAt .operator ['('] p₄ ::
          ((tokenAt .name "gosp_out".toList p₅ :: tokenAt .operator [','] p₆ ::
            (as' ++ [tokenAt .operator [','] p₇, tokenAt .string (Quoted.encode s) p₈])) ++
              tokenAt .operator [')'] p₉ :: tokenAt .newline ['\n'] p :: rest)) =
      provided true [.node .expression p₁.1 [memberCall p₁.1 "gosp".toList "fprint".toList
        [nameTree p₅.1 "gosp_out".toList, v', .node (.constant (.text s)) p₈.1 []]]] rest :=
    Statement.parse_call rfl hmatch rfl rfl rfl harguments rfl
  refine ⟨_, ?_, Eq.trans ?_ hcall⟩
  · simpa [writing, memberCall, nameTree] using hvv'
  · simp

/-! ### Statements wherever they stand -/

/-- Lines that are one statement wherever they stand at a margin, the same but for its place. -/
def IsStatement (m : Nat) (lines : Text) (tree : Tree) : Prop :=
  ∃ ts : List Token, (∀ st : LexState, st.IsOpen m → ∀ z,
      Alike (kept (scan .strict' st true (lines ++ z)))
        (preceded ts (kept (scan .strict' st true z)))) ∧
    ∀ (pattern : PatternGoal → Parser Tree) (b n : Nat) (us rest : List Token),
      Program.bound lines ≤ b → Alike ts us → ∃ tree', Alike tree tree' ∧
        Statement.parse (Expression.parse b) pattern (n + 1) .statement (us ++ rest) =
          .ok ([tree'], rest)

theorem exists_isOpen (m : Nat) : ∃ st : LexState, st.IsOpen m :=
  ⟨{ indents := [(m, m)] }, rfl, rfl, rfl⟩

section

variable {lines : Text} {tree : Tree} (h : IsStatement m lines tree) (hst : st.IsOpen m)
include h hst

/-- A statement is read to its end. -/
theorem IsStatement.fault_eq_none : (scan .strict' st true lines).2 = none := by
  obtain ⟨ts, hscan, -⟩ := h
  have hread := snd_eq_of_alike (hscan st hst [])
  have hfault : (scan .strict' st true (lines ++ [])).2 = (scan .strict' st true []).2 := hread
  rw [List.append_nil, scan_nil] at hfault
  rw [hfault, LexState.finish, if_neg (by simp [hst.depth])]

/-- The tokens of a statement are that statement. -/
theorem IsStatement.exists_parse {us : List Token}
    (hread : Alike (kept (scan .strict' st true lines))
      (preceded us (kept (scan .strict' st true [])))) (pattern : PatternGoal → Parser Tree)
    (n : Nat) : ∃ tree', Alike tree tree' ∧
      Statement.parse (Expression.parse (Program.bound lines)) pattern (n + 1) .statement us =
        .ok ([tree'], []) := by
  obtain ⟨ts, hscan, hparse⟩ := h
  have hscan' := hscan st hst []
  rw [List.append_nil] at hscan'
  have hts : Alike ts us := (hscan'.symm.trans hread).fst.of_append
  obtain ⟨tree', htree, hstatement⟩ := hparse pattern _ n us [] (Nat.le_refl _) hts
  rw [List.append_nil] at hstatement
  exact ⟨tree', htree, hstatement⟩

end

end Code

end ServerPages
