import ServerPages.Proofs.Code.LastLine

/-!
# A comment behind code

White space and a comment that are put behind the last line of code (`IsRemark`) change nothing of
how the code ends, unless that line is empty (`Tail.ofCode_append_comment`). The code before them is
read as it was, whatever stands on its lines: only a comment, a line without code and the end of the
text look as far as the remark. It is seen as a comment that stands within a statement or goes on
with the one before it, and so it is not counted.
-/

namespace ServerPages

namespace Code

/-- White space and a comment up to the end of a line. -/
def IsRemark (e : Text) : Prop :=
  ∃ blanks comment : Text, e = blanks ++ '#' :: comment ∧ (∀ c ∈ blanks, isPad c = true) ∧
    '\n' ∉ comment ∧ '\r' ∉ comment

variable {st after : LexState} {fresh : Bool} {s t u w e : Text} {ts : List Token}
  {f : Option LexFault} {kind : TokenKind} {n : Nat} {c : Char} {seen : Tail.Seen}

private theorem IsRemark.isDelimited (he : IsRemark e) : IsDelimited e := by
  obtain ⟨blanks, comment, rfl, hblanks, -⟩ := he
  cases blanks with
  | nil => exact isDelimited_cons (by decide) _
  | cons c blanks =>
    refine isDelimited_cons ?_ _
    have hpad := hblanks c List.mem_cons_self
    simp only [isPad, Bool.or_eq_true, beq_iff_eq] at hpad
    obtain (rfl | rfl) | rfl := hpad <;> decide

/-- Nothing in a remark ends its comment. -/
theorem IsRemark.inLine (he : IsRemark e) : ∀ c ∈ e, c ≠ '\r' ∧ c ≠ '\n' := by
  obtain ⟨blanks, comment, rfl, hblanks, hnewline, hreturn⟩ := he
  intro c hc
  rw [List.mem_append, List.mem_cons] at hc
  obtain hc | rfl | hc := hc
  · have hpad := hblanks c hc
    constructor <;> rintro rfl <;> cases hpad
  · decide
  · exact ⟨ne_of_mem_of_not_mem hc hreturn, ne_of_mem_of_not_mem hc hnewline⟩

theorem IsRemark.newline_not_mem (he : IsRemark e) : '\n' ∉ e := fun hmem =>
  (he.inLine _ hmem).2 rfl

private theorem dropWhile_append_remark {p : Char → Bool} (hs : s.dropWhile p = u) (hu : u ≠ [])
    (e : Text) : (s ++ e).dropWhile p = u ++ e := by
  rw [List.dropWhile_append, hs, if_neg (by simpa using hu)]

private theorem takeWhile_append_remark {p : Char → Bool} (hs : s.dropWhile p = u) (hu : u ≠ [])
    (e : Text) : (s ++ e).takeWhile p = s.takeWhile p := by
  have hsplit := List.takeWhile_append_dropWhile (p := p) (l := s ++ e)
  have hsame := List.takeWhile_append_dropWhile (p := p) (l := s)
  rw [dropWhile_append_remark hs hu, ← List.append_assoc] at hsplit
  rw [hs] at hsame
  exact List.append_cancel_right ((List.append_cancel_right hsplit).trans hsame.symm)

/-- A token of code is what it is before a remark. -/
theorem lexeme_append_remark (he : IsRemark e) (hlex : lexeme .lenient (c :: t) = .token kind n)
    (hkind : kind ≠ .stray) (hsign : c ≠ '#')
    (hnext : ∀ q u, isPad q = false → t.drop (n - 1) = q :: u → lexeme .lenient (q :: u) ≠ .stray) :
    lexeme .lenient (c :: (t ++ e)) = .token kind n := by
  obtain ⟨-, hhead⟩ | ⟨-, hcode⟩ := lexeme_token_cases hlex
  · exact absurd (by simpa using hhead) hsign
  have hnil : IsDelimited [] := by simp [IsDelimited]
  have hcode' : codeLexeme (c :: t ++ e) = .token kind n := by
    refine codeLexeme_append hnil he.isDelimited (List.cons_ne_nil c t)
      (by rwa [List.append_nil]) hkind (length_of_lexeme hlex hkind (List.cons_ne_nil c t)) ?_
    intro q u hq hdrop hstray
    rw [List.append_nil] at hdrop
    cases n with
    | zero =>
      rw [List.drop_zero] at hdrop
      rw [← hdrop, hcode] at hstray
      cases hstray
    | succ m =>
      refine hnext q u (by obtain rfl | rfl := hq <;> rfl) hdrop ?_
      obtain rfl | rfl := hq <;> exact hstray
  exact (lexeme_eq_codeLexeme (by rw [← List.cons_append, hcode']; simp)
    (by simpa using hsign)).trans hcode'

/-- A comment at the end of a text is read as one. -/
theorem scan_comment (hs : s.dropWhile isPad = '#' :: w) (hw : ∀ c ∈ w, c ≠ '\r' ∧ c ≠ '\n') :
    scan .lenient st false s =
      let here := st.advance (s.takeWhile isPad)
      let next := here.advance ('#' :: w)
      (here.token .comment ('#' :: w) :: next.token .newline [] :: (next.finish false).1,
        (next.finish false).2) := by
  have hlex : lexeme .lenient ('#' :: w) = .token .comment (1 + w.length) := by
    rw [lexeme_comment, List.takeWhile_eq_self_iff.mpr fun c hc => by simpa using hw c hc]
  rw [scan_token hs hlex rfl]
  dsimp only
  rw [Nat.add_sub_cancel_left, List.take_length, List.drop_length]
  exact congrArg (fun r : List Token × Option LexFault => (_ :: r.1, r.2)) (scan_end rfl)

namespace Tail

/-- What is closed at the end of a text is not seen. -/
theorem Seen.foldl_finish (seen : Seen) (st : LexState) (continued : Bool) :
    (st.finish continued).1.foldl Seen.step seen = seen := by
  unfold LexState.finish
  split
  · rfl
  · generalize st.indents.length = k
    induction k with
    | zero => rfl
    | succ k ih => exact ih

/-- Of a line without code its comment is seen. -/
theorem Seen.foldl_blankTokens (seen : Seen) (st : LexState) (line : Text) :
    (st.blankTokens line).foldl Seen.step seen =
      if Text.beginsWith ['#'] line then seen.step (st.token .comment line) else seen := by
  by_cases hline : Text.beginsWith ['#'] line = true
  · obtain ⟨v, rfl⟩ := Text.beginsWith_iff.mp hline
    have hcomment : commentOf (['#'] ++ v) ≠ [] := by
      rw [commentOf, if_pos hline, ne_eq, List.reverse_eq_nil_iff, List.dropWhile_eq_nil_iff]
      exact fun hall => by simpa using hall '#' (by simp)
    rw [LexState.blankTokens, if_neg hcomment, if_pos hline]
    rfl
  · rw [LexState.blankTokens, commentOf, if_neg hline, if_neg hline]
    rfl

/-- Whether a remark changes nothing of what is seen of a text. -/
def Seen.Passes (e : Text) (seen : Seen) (st : LexState) (fresh : Bool) (s : Text)
    (ts : List Token) : Prop :=
  (scan .lenient st fresh (s ++ e)).2 = none ∧
    (scan .lenient st fresh (s ++ e)).1.foldl Seen.step seen = ts.foldl Seen.step seen

/-- Whether the line to which a remark comes holds anything: part of it is still to be read, or a
statement has begun there. -/
def Seen.Occupied (seen : Seen) (fresh : Bool) (s : Text) : Prop :=
  HoldsVisible s ∨ fresh = false ∧ '\n' ∉ s ∧ seen.atStart = false

theorem Seen.Occupied.holdsVisible (h : seen.Occupied fresh s) (hs : fresh = true ∨ '\n' ∈ s) :
    HoldsVisible s := by
  obtain h | ⟨hfresh, hnewline, -⟩ := h
  · exact h
  · obtain rfl | hmem := hs
    · cases hfresh
    · exact absurd hmem hnewline

/-- Behind the end of a line the last line is still to be read. -/
theorem Seen.Occupied.behind_newline (h : seen.Occupied fresh s)
    (hs : s.dropWhile isPad = w ++ '\n' :: u) : HoldsVisible u := by
  have hsplit := takeWhile_append_rest hs
  rw [← List.append_assoc] at hsplit
  have hvisible := h.holdsVisible (.inr (by rw [← hsplit]; simp))
  rw [← hsplit] at hvisible
  exact hvisible.behind_newline

/-- Behind a token on its line, only the line at hand matters. -/
theorem Seen.Occupied.rest {next : Seen} (h : seen.Occupied false s) (hs : w ++ u = s)
    (hu : '\n' ∉ u → next.Occupied false u) : next.Occupied false u := by
  by_cases hmem : '\n' ∈ u
  · have hvisible := h.holdsVisible (.inr (by rw [← hs]; exact List.mem_append_right w hmem))
    exact .inl ((hs ▸ hvisible).of_append hmem)
  · exact hu hmem

private theorem passes_of_finish (he : IsRemark e) (hs : s.dropWhile isPad = []) (hdepth : st.depth = 0)
    (hstart : seen.atStart = false) :
    seen.Passes e st false s ((st.advance (s.takeWhile isPad)).token .newline [] ::
      ((st.advance (s.takeWhile isPad)).finish false).1) := by
  obtain ⟨blanks, comment, rfl, hblanks, hnewline, hreturn⟩ := he
  have hdrop : (s ++ (blanks ++ '#' :: comment)).dropWhile isPad = '#' :: comment := by
    rw [List.dropWhile_append_of_pos (List.dropWhile_eq_nil_iff.mp hs),
      List.dropWhile_append_of_pos hblanks]
    rfl
  rw [Seen.Passes, scan_comment hdrop fun c hc =>
    ⟨ne_of_mem_of_not_mem hc hreturn, ne_of_mem_of_not_mem hc hnewline⟩]
  refine ⟨by simp [LexState.finish, hdepth], ?_⟩
  have hcomment (st : LexState) : seen.step (st.token .comment ('#' :: comment)) = seen := by
    rw [Seen.step]
    simp [LexState.token, hstart]
  simp only [List.foldl_cons, Seen.foldl_finish, hcomment]
  rfl

/-- A line without code at the end of a text goes on with the remark. -/
theorem passes_of_blank {line : Text} (he : IsRemark e) (hdepth : st.depth = 0)
    (hs : s.dropWhile isPad = line) (hline : '\n' ∉ line) (hidle : ∃ c ∈ line.head?, isIdle c)
    (h : Reads ((st.advance (s.takeWhile isPad)).advance (line ++ ['\n'])) true [] ts none) :
    seen.Passes e st true s ((st.advance (s.takeWhile isPad)).blankTokens line ++ ts) := by
  obtain ⟨c, hc, hidle⟩ := hidle
  obtain ⟨v, rfl⟩ : ∃ v, line = c :: v := ⟨_, List.eq_cons_of_mem_head? hc⟩
  have hs' : (s ++ e).dropWhile isPad = (c :: v ++ e) ++ [] := by
    rw [List.append_nil, dropWhile_append_remark hs (List.cons_ne_nil c v)]
  have hline' : '\n' ∉ c :: v ++ e := by
    rw [List.mem_append, not_or]
    exact ⟨hline, he.newline_not_mem⟩
  have hts := congrArg Prod.fst h.scan_nil
  rw [Code.scan_nil] at hts
  rw [Seen.Passes, scan_blank hdepth hs' hline' .eof ⟨c, rfl, hidle⟩]
  dsimp only at hts ⊢
  rw [Code.scan_nil, takeWhile_append_remark hs (List.cons_ne_nil c v)]
  refine ⟨by simp [LexState.finish, hdepth], ?_⟩
  rw [← hts, List.foldl_append, List.foldl_append, Seen.foldl_finish, Seen.foldl_finish,
    Seen.foldl_blankTokens, Seen.foldl_blankTokens, List.cons_append, beginsWith_cons_iff,
    beginsWith_cons_iff]
  rfl

/-- A line without code is passed, be the remark behind it or not. -/
theorem passes_of_line {line rest : Text} (hdepth : st.depth = 0)
    (hs : s.dropWhile isPad = line ++ '\n' :: rest) (hline : '\n' ∉ line)
    (hidle : ∃ c ∈ (line ++ '\n' :: rest).head?, isIdle c)
    (h : (((st.advance (s.takeWhile isPad)).blankTokens line).foldl Seen.step seen).Passes e
      ((st.advance (s.takeWhile isPad)).advance (line ++ ['\n'])) true rest ts) :
    seen.Passes e st true s ((st.advance (s.takeWhile isPad)).blankTokens line ++ ts) := by
  have hne : line ++ '\n' :: rest ≠ [] := by simp
  have hs' : (s ++ e).dropWhile isPad = line ++ '\n' :: (rest ++ e) := by
    rw [dropWhile_append_remark hs hne, List.append_assoc, List.cons_append]
  have hidle' : ∃ c ∈ (line ++ '\n' :: (rest ++ e)).head?, isIdle c := by
    rwa [← List.cons_append, ← List.append_assoc, List.head?_append_of_ne_nil _ hne]
  rw [Seen.Passes, scan_blank hdepth hs' hline (.newline _) hidle']
  dsimp only
  rw [takeWhile_append_remark hs hne, List.foldl_append, List.foldl_append]
  exact h

/-- The indentation of a statement is settled before the remark. -/
theorem passes_of_settled {marks : List Token} (hdepth : st.depth = 0)
    (hs : s.dropWhile isPad = c :: t) (hidle : isIdle c = false)
    (hsettle : (st.advance (s.takeWhile isPad)).settle false (margin s) (s.takeWhile isPad) =
      .ok (marks, after))
    (h : (marks.foldl Seen.step seen).Passes e after false (c :: t) ts) :
    seen.Passes e st true s (marks ++ ts) := by
  have hs' : (s ++ e).dropWhile isPad = c :: (t ++ e) :=
    dropWhile_append_remark hs (List.cons_ne_nil c t) e
  have hpads := takeWhile_append_remark hs (List.cons_ne_nil c t) e
  have hmargin : margin (s ++ e) = margin s := by
    rw [← margin_takeWhile, hpads, margin_takeWhile]
  rw [Seen.Passes, scan_codeLine hdepth (lineMargin_lenient _) ((drop_margin _).trans hs')
    (by simpa [isIdle, and_assoc] using hidle)
    (by rw [take_margin, hpads, hmargin]; exact hsettle), List.foldl_append, List.foldl_append]
  exact h

private theorem passes_of_lineEnd (hs : s.dropWhile isPad = c :: t)
    (hlex : lexeme .lenient (c :: t) = .lineEnd n)
    (h : (seen.step ((st.advance (s.takeWhile isPad)).token
        (if 0 < st.depth then .blankLine else .newline) (c :: t.take (n - 1)))).Passes e
      ((st.advance (s.takeWhile isPad)).advance (c :: t.take (n - 1))) true (t.drop (n - 1)) ts) :
    seen.Passes e st false s ((st.advance (s.takeWhile isPad)).token
      (if 0 < st.depth then .blankLine else .newline) (c :: t.take (n - 1)) :: ts) := by
  obtain ⟨w, hw, hspelled, hsplit⟩ := eq_of_lexeme_lineEnd hlex
  have hs' : (s ++ e).dropWhile isPad = w ++ '\n' :: (t.drop (n - 1) ++ e) := by
    rw [dropWhile_append_remark hs (List.cons_ne_nil c t), hsplit, List.append_assoc,
      List.cons_append]
  rw [hspelled] at h ⊢
  rw [Seen.Passes, scan_return hw hs', takeWhile_append_remark hs (List.cons_ne_nil c t)]
  dsimp only
  rw [LexState.depth_advance]
  exact h

private theorem passes_of_continued (hs : s.dropWhile isPad = c :: t)
    (hlex : lexeme .lenient (c :: t) = .continuation n) (hrest : t.drop (n - 1) ≠ [])
    (h : seen.Passes e ((st.advance (s.takeWhile isPad)).advance (c :: t.take (n - 1))) false
      (t.drop (n - 1)) ts) : seen.Passes e st false s ts := by
  obtain ⟨w, hw, hspelled, hsplit⟩ := eq_of_lexeme_continuation hlex
  have hs' : (s ++ e).dropWhile isPad = '\\' :: w ++ '\n' :: (t.drop (n - 1) ++ e) := by
    rw [dropWhile_append_remark hs (List.cons_ne_nil c t), hsplit, List.append_assoc,
      List.cons_append (a := '\n')]
  rw [hspelled] at h
  rw [Seen.Passes, scan_backslash hw hs', takeWhile_append_remark hs (List.cons_ne_nil c t)]
  dsimp only
  rw [if_neg (by simp [hrest])]
  exact h

/-- What is behind a token that is read before a remark as it is without it. -/
theorem passes_of_token (hs : s.dropWhile isPad = c :: t)
    (hlex : lexeme .lenient (c :: (t ++ e)) = .token kind n) (hn : n - 1 ≤ t.length)
    (hbracket : (if kind = .operator then
        (st.advance (s.takeWhile isPad)).bracket false (c :: t.take (n - 1))
      else .ok (st.advance (s.takeWhile isPad))) = .ok after)
    (h : (seen.step ((st.advance (s.takeWhile isPad)).token kind (c :: t.take (n - 1)))).Passes e
      (after.advance (c :: t.take (n - 1))) (kind = .stray) (t.drop (n - 1)) ts) :
    seen.Passes e st false s
      ((st.advance (s.takeWhile isPad)).token kind (c :: t.take (n - 1)) :: ts) := by
  have htake : (t ++ e).take (n - 1) = t.take (n - 1) := List.take_append_of_le_length hn
  have hdrop : (t ++ e).drop (n - 1) = t.drop (n - 1) ++ e := List.drop_append_of_le_length hn
  have hpads := takeWhile_append_remark hs (List.cons_ne_nil c t) e
  have hs' : (s ++ e).dropWhile isPad = c :: (t ++ e) :=
    dropWhile_append_remark hs (List.cons_ne_nil c t) e
  rw [Seen.Passes, scan_token hs' hlex (by rw [hpads, htake]; exact hbracket)]
  dsimp only
  rw [hpads, htake, hdrop]
  exact h

/-- The tokens of a line's code, if they are read before a remark as they are without it. -/
theorem passes_of_code (he : IsRemark e) (hs : s.dropWhile isPad = c :: t)
    (hlex : lexeme .lenient (c :: t) = .token kind n) (hsign : c ≠ '#')
    (hkinds : kind ∈ [.name, .number, .string, .operator, .stray])
    (hbracket : (if kind = .operator then
        (st.advance (s.takeWhile isPad)).bracket false (c :: t.take (n - 1))
      else .ok (st.advance (s.takeWhile isPad))) = .ok after)
    (h : Reads (after.advance (c :: t.take (n - 1))) false (t.drop (n - 1)) ts f)
    (hkind : kind ≠ .stray) (hstray : ∀ t ∈ ts, t.kind ≠ .stray) (hoccupied : seen.Occupied false s)
    (ih : ∀ {next : Seen}, next.Occupied false (t.drop (n - 1)) → next.Passes e
      (after.advance (c :: t.take (n - 1))) false (t.drop (n - 1)) ts) :
    seen.Passes e st false s
      ((st.advance (s.takeWhile isPad)).token kind (c :: t.take (n - 1)) :: ts) := by
  have hn := length_of_lexeme hlex hkind (List.cons_ne_nil c t)
  rw [List.length_cons] at hn
  have hlex' := lexeme_append_remark he hlex hkind hsign fun q u hpad hdrop => by
    rw [hdrop] at h
    exact h.lexeme_ne_stray hstray hpad
  refine passes_of_token hs hlex' (by omega) hbracket ?_
  rw [decide_eq_false hkind]
  refine ih (hoccupied.rest (takeWhile_append_spelled hs n) fun hnewline => .inr
    ⟨rfl, hnewline, ?_⟩)
  have hsignificant : ((st.advance (s.takeWhile isPad)).token kind
      (c :: t.take (n - 1))).isSignificant = true := Token.isSignificant_iff.mpr hkinds
  generalize (st.advance (s.takeWhile isPad)).token kind (c :: t.take (n - 1)) = tok at hsignificant
  cases hk : tok.kind <;> simp_all [Seen.step, Token.isSignificant]

/-- A comment on its line, which goes on with the remark if it comes last. -/
theorem passes_of_comment (he : IsRemark e) (hs : s.dropWhile isPad = '#' :: t)
    (hlex : lexeme .lenient ('#' :: t) = .token .comment n)
    (h : Reads ((st.advance (s.takeWhile isPad)).advance ('#' :: t.take (n - 1))) false
      (t.drop (n - 1)) ts none) (hoccupied : seen.Occupied false s)
    (ih : ∀ {next : Seen}, next.Occupied false (t.drop (n - 1)) → next.Passes e
      ((st.advance (s.takeWhile isPad)).advance ('#' :: t.take (n - 1))) false
      (t.drop (n - 1)) ts) :
    seen.Passes e st false s
      ((st.advance (s.takeWhile isPad)).token .comment ('#' :: t.take (n - 1)) :: ts) := by
  obtain ⟨-, -, hdrop⟩ | ⟨-, hsign, -⟩ := eq_of_lexeme_token hlex
  swap
  · exact absurd rfl hsign
  cases hrest : t.drop (n - 1) with
  | nil =>
    -- the code ends with the comment, so the remark becomes a part of it
    have hline : ∀ c ∈ t ++ e, c ≠ '\r' ∧ c ≠ '\n' := by
      rw [hrest, eq_comm, List.dropWhile_eq_nil_iff] at hdrop
      rw [List.forall_mem_append]
      exact ⟨fun c hc => of_decide_eq_true (hdrop c hc), he.inLine⟩
    have hs' : (s ++ e).dropWhile isPad = '#' :: (t ++ e) :=
      dropWhile_append_remark hs (List.cons_ne_nil _ t) e
    rw [hrest] at h
    have hscan := h.scan_nil
    rw [scan_end rfl, Prod.mk.injEq] at hscan
    obtain ⟨hts, hnone⟩ := hscan
    have hdepth := LexState.depth_of_finish hnone
    rw [LexState.depth_advance, LexState.depth_advance, LexState.depth_advance] at hdepth
    rw [Seen.Passes, scan_comment hs' hline, takeWhile_append_remark hs (List.cons_ne_nil _ t)]
    refine ⟨by simp [LexState.finish, hdepth], ?_⟩
    rw [← hts]
    simp only [List.foldl_cons, Seen.foldl_finish]
    rfl
  | cons d u =>
    -- the comment ends with its line, before the remark
    have hd : d = '\r' ∨ d = '\n' := by
      have hhead := List.head?_dropWhile_not (fun c => decide (c ≠ '\r' ∧ c ≠ '\n')) t
      rw [← hdrop, hrest] at hhead
      simpa [or_iff_not_imp_left] using hhead
    have hlex' : lexeme .lenient ('#' :: (t ++ e)) = .token .comment n := by
      rw [lexeme_comment, takeWhile_append_remark (hdrop.symm.trans hrest) (List.cons_ne_nil d u),
        ← lexeme_comment]
      exact hlex
    have hn : n - 1 ≤ t.length := by
      have hlength := congrArg List.length hrest
      rw [List.length_drop, List.length_cons] at hlength
      omega
    refine passes_of_token hs hlex' hn rfl (ih (hoccupied.rest (takeWhile_append_spelled hs n) ?_))
    intro hnewline
    rw [hrest] at hnewline ⊢
    refine .inl (holdsVisible_of_not_mem hnewline List.mem_cons_self ?_)
    obtain rfl | rfl := hd <;> rfl

/-- **A remark changes nothing that is seen** of a text, for each run over it without faults and
stray characters that comes to the remark on a line that is not empty. -/
theorem passes_of_reads (he : IsRemark e) (h : Reads st fresh s ts f) (hnone : f = none)
    (hstray : ∀ t ∈ ts, t.kind ≠ .stray) (hoccupied : seen.Occupied fresh s) :
    seen.Passes e st fresh s ts := by
  -- only a comment or the end of the text may see the remark: nothing else looks behind its line
  induction h generalizing seen with
  | ended => exact absurd (hoccupied.holdsVisible (.inl rfl)) (not_holdsVisible_of_pads rfl)
  | bracketed hs hdepth _ ih =>
    rw [Seen.Passes, scan_bracketed (by simp [hs]) hdepth]
    exact ih hnone hstray (.inl (hoccupied.holdsVisible (.inl rfl)))
  | spare _ _ hpads =>
    exact absurd (hoccupied.holdsVisible (.inl rfl)) (not_holdsVisible_of_pads hpads)
  | blank hdepth hs hline hends hidle h ih =>
    rw [List.forall_mem_append] at hstray
    subst hnone
    cases hends with
    | eof =>
      rw [List.append_nil] at hs hidle
      exact passes_of_blank he hdepth hs hline hidle h
    | newline =>
      exact passes_of_line hdepth hs hline hidle
        (ih rfl hstray.2 (.inl (hoccupied.behind_newline hs)))
  | settled hdepth hs hidle hsettle _ ih =>
    rw [List.forall_mem_append] at hstray
    exact passes_of_settled hdepth hs hidle hsettle
      (ih hnone hstray.2 (.inl ((hoccupied.holdsVisible (.inl rfl)).dropWhile hs)))
  | unsettled => cases hnone
  | stop hs =>
    obtain hvisible | ⟨-, -, hstart⟩ := hoccupied
    · exact absurd hvisible (not_holdsVisible_of_pads hs)
    · exact passes_of_finish he hs
        ((LexState.depth_advance _ _).symm.trans (LexState.depth_of_finish hnone)) hstart
  | fault => cases hnone
  | lineEnd hs hlex _ ih =>
    rw [List.forall_mem_cons] at hstray
    obtain ⟨w, -, -, hsplit⟩ := eq_of_lexeme_lineEnd hlex
    exact passes_of_lineEnd hs hlex
      (ih hnone hstray.2 (.inl (hoccupied.behind_newline (hs.trans hsplit))))
  | broken => cases hnone
  | continued hs hlex hne _ ih =>
    obtain ⟨w, -, -, hsplit⟩ := eq_of_lexeme_continuation hlex
    exact passes_of_continued hs hlex hne
      (ih hnone hstray (.inl (hoccupied.behind_newline (hs.trans hsplit))))
  | @token st s c t kind n after ts f hs hlex hbracket h ih =>
    rw [List.forall_mem_cons] at hstray
    have hkind : kind ≠ .stray := hstray.1
    rw [decide_eq_false hkind] at h ih
    obtain ⟨rfl, rfl, -⟩ | ⟨hkinds, hsign, -⟩ := eq_of_lexeme_token hlex
    · cases hbracket
      subst hnone
      exact passes_of_comment he hs hlex h hoccupied (ih rfl hstray.2)
    · exact passes_of_code he hs hlex hsign hkinds hbracket h hkind hstray.2 hoccupied
        (ih hnone hstray.2)
  | stray => exact absurd rfl (hstray _ List.mem_cons_self)

/-- **A comment behind code** changes nothing of how the code ends, if the code has no faults and no
stray characters and its last line, which is what stands behind the last newline, holds a token or
the end of one, be it a comment. What has no text, as the end of a statement at the end of the code,
stands on no line. -/
theorem ofCode_append_comment {code blanks comment : Text} (hnone : (tokens code).2 = none)
    (hstray : ∀ t ∈ (tokens code).1, t.kind ≠ .stray)
    (hlast : ∃ t ∈ (tokens code).1, t.text ≠ [] ∧ t.endLine = 1 + code.count '\n')
    (hblanks : ∀ c ∈ blanks, isPad c = true) (hnewline : '\n' ∉ comment)
    (hreturn : '\r' ∉ comment) :
    ofCode (code ++ (blanks ++ '#' :: comment)) = ofCode code := by
  obtain ⟨t, ht, htext, hend⟩ := hlast
  have hreads : Reads {} true code (tokens code).1 (tokens code).2 := reads_scan _ _ _
  have he : IsRemark (blanks ++ '#' :: comment) := ⟨_, _, rfl, hblanks, hnewline, hreturn⟩
  obtain ⟨hnone', hseen⟩ : Seen.Passes (blanks ++ '#' :: comment) {} {} true code (tokens code).1 :=
    passes_of_reads he hreads hnone hstray (.inl (hreads.holdsVisible hstray ht htext hend))
  have hcode : tokens code = ((tokens code).1, none) := Prod.ext rfl hnone
  have hcode' : tokens (code ++ (blanks ++ '#' :: comment)) =
      ((tokens (code ++ (blanks ++ '#' :: comment))).1, none) := Prod.ext rfl hnone'
  rw [ofCode, ofCode, hcode, hcode']
  dsimp only
  rw [tokens, hseen]

/-- The remark stands behind the colon of a header that goes on over lines in a string, in brackets
and behind a backslash. -/
theorem ofCode_append_comment_header :
    let code := "for x in f('#:', [1,  # one:\n    \"\"\"two\n# three:\"\"\"]) + \\\n  rows:".toList
    let blanks := "  ".toList
    let comment := " it's: \"\"\"".toList
    (tokens code).2 = none ∧ (∀ t ∈ (tokens code).1, t.kind ≠ .stray) ∧
      (∃ t ∈ (tokens code).1, t.text ≠ [] ∧ t.endLine = 1 + code.count '\n') ∧
      (∀ c ∈ blanks, isPad c = true) ∧ '\n' ∉ comment ∧ '\r' ∉ comment ∧
      ofCode (code ++ (blanks ++ '#' :: comment)) = ofCode code ∧ ofCode code = ⟨true, 0⟩ := by
  intro code blanks comment
  have hnone : (tokens code).2 = none := by decide +kernel
  have hstray : ∀ t ∈ (tokens code).1, t.kind ≠ .stray := by decide +kernel
  have hlast : ∃ t ∈ (tokens code).1, t.text ≠ [] ∧ t.endLine = 1 + code.count '\n' := by
    decide +kernel
  have hblanks : ∀ c ∈ blanks, isPad c = true := List.all_eq_true.mp (by decide)
  have hnewline : '\n' ∉ comment := by decide
  have hreturn : '\r' ∉ comment := by decide
  exact ⟨hnone, hstray, hlast, hblanks, hnewline, hreturn,
    ofCode_append_comment hnone hstray hlast hblanks hnewline hreturn, by decide +kernel⟩

end Tail

end Code

end ServerPages
