import ServerPages.Proofs.Code.Extent

/-!
# The run of the lenient scanner

A run of the lenient scanner as a relation, with one rule for each thing that the scanner can do
where it stands (`Reads`): at the beginning of a line it may be inside brackets, find a line without
code, or settle the indentation of a statement; inside a line it may come to the end of the line,
pass a backslash that continues the line, read a token, or keep what spells none.

The main statement is that the relation holds of what the scanner gives (`reads_scan`), so that what
holds of all runs is proved by induction on the rules.
-/

namespace ServerPages

namespace Code

section

variable {d : Dialect} {st after : LexState} {lead s t u rest : Text} {c e : Char} {n : Nat}
  {ts : List Token} {f : LexFault}

/-! ### Further steps -/

theorem scan_bracketed (hs : s ≠ []) (hdepth : st.depth ≠ 0) :
    scan d st true s = scan d st false s := by
  obtain ⟨c, t, rfl⟩ := List.exists_cons_of_ne_nil hs
  rw [scan.eq_def]
  simp only [if_true, if_pos hdepth]

theorem scan_margin {m : Margin} (hs : s ≠ []) (hdepth : st.depth = 0)
    (hm : lineMargin d s = some m) (hdrop : s.drop m.length = []) :
    scan d st true s = (st.advance (s.take m.length)).finish false := by
  obtain ⟨c, t, rfl⟩ := List.exists_cons_of_ne_nil hs
  rw [scan.eq_def]
  simp only [if_true, hdepth, ne_eq, not_true_eq_false, if_false]
  rw [lineMargin] at hm
  simp only [hm]
  split
  · rfl
  · next hd => rw [hdrop] at hd; cases hd

theorem scan_unsettled {m : Margin} (hdepth : st.depth = 0) (hm : lineMargin d s = some m)
    (hs : s.drop m.length = e :: u) (he : ¬(e = '#' ∨ e = '\r' ∨ e = '\n'))
    (hsettle : (st.advance (s.take m.length)).settle d.strict m (s.take m.length) = .error f) :
    scan d st true s = ([], some f) := by
  obtain _ | ⟨c, t⟩ := s
  · simp at hs
  rw [scan.eq_def]
  simp only [if_true, hdepth, ne_eq, not_true_eq_false, if_false]
  rw [lineMargin] at hm
  simp only [hm]
  split
  · next hd => rw [hs] at hd; cases hd
  · next hd =>
    obtain ⟨rfl, rfl⟩ := List.cons.inj (hd.symm.trans hs)
    rw [if_neg he]
    simp only [hsettle]

theorem scan_continuation (h : s.dropWhile isPad = c :: t)
    (hlex : lexeme d (c :: t) = .continuation n) :
    scan d st false s =
      let next := (st.advance (s.takeWhile isPad)).advance (c :: t.take (n - 1))
      if t.drop (n - 1) = [] then next.finish true else scan d next false (t.drop (n - 1)) := by
  rw [scan.eq_def]
  simp only [Bool.false_eq_true, if_false]
  split
  · next hd => rw [h] at hd; cases hd
  · next hd =>
    obtain ⟨rfl, rfl⟩ := List.cons.inj (hd.symm.trans h)
    simp only [hlex]
    split
    · next hd => rw [if_pos hd]
    · next hd => rw [if_neg (by rw [hd]; exact List.cons_ne_nil _ _), hd]

/-- The lenient scanner goes on behind any token. -/
theorem LexState.exists_bracket (st : LexState) (kind : TokenKind) (op : Text) :
    ∃ after, (if kind = .operator then st.bracket false op else .ok st) = .ok after := by
  split
  · exact st.bracket_lenient op
  · exact ⟨st, rfl⟩

theorem lineMargin_lenient (s : Text) : lineMargin .lenient s = some (margin s) := rfl

/-! ### Lines without code -/

/-- What stands behind a line: nothing, or a newline and the lines that follow. -/
inductive LineEnds : Text → Text → Prop where
  | eof : LineEnds [] []
  | newline (rest : Text) : LineEnds ('\n' :: rest) rest

/-- The comment that a line without code begins with, if it does. -/
def commentOf (line : Text) : Text :=
  if Text.beginsWith ['#'] line then (line.reverse.dropWhile (· = '\r')).reverse else []

/-- The tokens of a line without code: its comment, if it is one, and its end. -/
def LexState.blankTokens (st : LexState) (line : Text) : List Token :=
  let comment := commentOf line
  (if comment = [] then [] else [st.token .comment comment]) ++
    [(st.advance comment).token .blankLine (line.drop comment.length ++ ['\n'])]

/-- Whether a character, the first behind the margin of a line, says that the line has no code. -/
def isIdle (c : Char) : Bool := c = '#' || c = '\r' || c = '\n'

theorem LineEnds.takeWhile_line {line : Text} (hline : '\n' ∉ line) (h : LineEnds u rest) :
    (line ++ u).takeWhile (· ≠ '\n') = line := by
  have hall : ∀ c ∈ line, decide (c ≠ '\n') = true := by
    intro c hc
    simpa using ne_of_mem_of_not_mem hc hline
  rw [List.takeWhile_append_of_pos hall]
  cases h <;> simp

private theorem blankLine_eq {line : Text} (hline : '\n' ∉ line) (h : LineEnds u rest) :
    blankLine (line ++ u) = (line.length, (commentOf line).length) := by
  have hbegins : Text.beginsWith ['#'] (line ++ u) = Text.beginsWith ['#'] line := by
    cases line with
    | nil => cases h <;> rfl
    | cons c line =>
      simp only [Text.beginsWith, Text.after?, List.cons_append]
      split <;> rfl
  simp only [blankLine, h.takeWhile_line hline, hbegins, commentOf]
  split <;> simp

theorem take_commentOf (line : Text) : line.take (commentOf line).length = commentOf line := by
  rw [commentOf]
  split
  · have h : (line.reverse.dropWhile (· = '\r')).reverse <+: line := by
      simpa using List.reverse_prefix.mpr (List.dropWhile_suffix (· = '\r') (l := line.reverse))
    exact List.prefix_iff_eq_take.mp h |>.symm
  · rfl

private theorem margin_length (s : Text) : (margin s).length = (s.takeWhile isPad).length := by
  have hpush : ∀ (w : Text) (m : Margin),
      (w.foldl Margin.push m).length = m.length + w.length := by
    intro w
    induction w with
    | nil => simp
    | cons c w ih =>
      intro m
      have hc : (m.push c).length = m.length + 1 := by
        unfold Margin.push
        repeat' split
        all_goals rfl
      rw [List.foldl_cons, ih, hc, List.length_cons]
      omega
  rw [margin, hpush]
  exact Nat.zero_add _

theorem take_margin (s : Text) : s.take (margin s).length = s.takeWhile isPad := by
  rw [margin_length]
  exact (List.prefix_iff_eq_take.mp (List.takeWhile_prefix isPad)).symm

theorem drop_margin (s : Text) : s.drop (margin s).length = s.dropWhile isPad := by
  rw [margin_length, drop_takeWhile]

/-- A line without code is passed over. -/
theorem scan_blank {line : Text} (hdepth : st.depth = 0) (hs : s.dropWhile isPad = line ++ u)
    (hline : '\n' ∉ line) (hends : LineEnds u rest) (hidle : ∃ c ∈ (line ++ u).head?, isIdle c) :
    scan .lenient st true s =
      let here := st.advance (s.takeWhile isPad)
      let behind := scan .lenient (here.advance (line ++ ['\n'])) true rest
      (here.blankTokens line ++ behind.1, behind.2) := by
  obtain ⟨e, he, hidle⟩ := hidle
  obtain ⟨v, hv⟩ : ∃ v, line ++ u = e :: v := by
    cases hcases : line ++ u with
    | nil => simp [hcases] at he
    | cons c v => exact ⟨v, by simpa [hcases] using he⟩
  have hdrop : v.drop line.length = rest := by
    have h : (e :: v).drop (line.length + 1) = rest := by
      rw [← hv, ← List.drop_drop, List.drop_left]
      cases hends <;> rfl
    simpa using h
  rw [scan_blankLine hdepth (lineMargin_lenient s) ((drop_margin s).trans (hs.trans hv))
    (by simpa [isIdle, or_assoc] using hidle), take_margin]
  dsimp only
  rw [← hv, blankLine_eq hline hends, hdrop]
  dsimp only
  rw [List.take_left, take_commentOf, LexState.blankTokens]
  simp

/-- Every text begins with a line, be it empty. -/
theorem exists_line (s : Text) : ∃ line u rest, s = line ++ u ∧ '\n' ∉ line ∧ LineEnds u rest := by
  refine ⟨s.takeWhile (· ≠ '\n'), s.dropWhile (· ≠ '\n'), (s.dropWhile (· ≠ '\n')).tail,
    List.takeWhile_append_dropWhile.symm, fun h => by simpa using List.mem_takeWhile_imp h, ?_⟩
  cases h : s.dropWhile (· ≠ '\n') with
  | nil => exact .eof
  | cons c u =>
    have hc : c = '\n' := by
      have hhead := List.head?_dropWhile_not (· ≠ '\n') s
      rw [h] at hhead
      simpa using hhead
    subst hc
    exact .newline u

end

/-! ### Runs -/

/-- The runs of the lenient scanner: from a state, at the beginning of a line or inside it, over a
text, with the tokens and the fault that it gives. -/
inductive Reads : LexState → Bool → Text → List Token → Option LexFault → Prop where
  | ended {st} : Reads st true [] (st.finish false).1 (st.finish false).2
  | bracketed {st s ts f} (hs : s ≠ []) (hdepth : st.depth ≠ 0) (h : Reads st false s ts f) :
      Reads st true s ts f
  | spare {st s} (hs : s ≠ []) (hdepth : st.depth = 0) (hpads : s.dropWhile isPad = []) :
      Reads st true s ((st.advance (s.takeWhile isPad)).finish false).1
        ((st.advance (s.takeWhile isPad)).finish false).2
  | blank {st s line u rest ts f} (hdepth : st.depth = 0) (hs : s.dropWhile isPad = line ++ u)
      (hline : '\n' ∉ line) (hends : LineEnds u rest) (hidle : ∃ c ∈ (line ++ u).head?, isIdle c)
      (h : Reads ((st.advance (s.takeWhile isPad)).advance (line ++ ['\n'])) true rest ts f) :
      Reads st true s ((st.advance (s.takeWhile isPad)).blankTokens line ++ ts) f
  | settled {st s c t marks after ts f} (hdepth : st.depth = 0) (hs : s.dropWhile isPad = c :: t)
      (hidle : isIdle c = false)
      (hsettle : (st.advance (s.takeWhile isPad)).settle false (margin s) (s.takeWhile isPad) =
        .ok (marks, after))
      (h : Reads after false (c :: t) ts f) : Reads st true s (marks ++ ts) f
  | unsettled {st s c t f} (hdepth : st.depth = 0) (hs : s.dropWhile isPad = c :: t)
      (hidle : isIdle c = false)
      (hsettle : (st.advance (s.takeWhile isPad)).settle false (margin s) (s.takeWhile isPad) =
        .error f) : Reads st true s [] (some f)
  | stop {st s} (hs : s.dropWhile isPad = []) :
      Reads st false s ((st.advance (s.takeWhile isPad)).token .newline [] ::
          ((st.advance (s.takeWhile isPad)).finish false).1)
        ((st.advance (s.takeWhile isPad)).finish false).2
  | fault {st s c t f} (hs : s.dropWhile isPad = c :: t)
      (hlex : lexeme .lenient (c :: t) = .fault f) : Reads st false s [] (some f)
  | lineEnd {st s c t n ts f} (hs : s.dropWhile isPad = c :: t)
      (hlex : lexeme .lenient (c :: t) = .lineEnd n)
      (h : Reads ((st.advance (s.takeWhile isPad)).advance (c :: t.take (n - 1))) true
        (t.drop (n - 1)) ts f) :
      Reads st false s ((st.advance (s.takeWhile isPad)).token
        (if 0 < st.depth then .blankLine else .newline) (c :: t.take (n - 1)) :: ts) f
  | broken {st s c t n} (hs : s.dropWhile isPad = c :: t)
      (hlex : lexeme .lenient (c :: t) = .continuation n) (hrest : t.drop (n - 1) = []) :
      Reads st false s [] (some .openStatement)
  | continued {st s c t n ts f} (hs : s.dropWhile isPad = c :: t)
      (hlex : lexeme .lenient (c :: t) = .continuation n) (hrest : t.drop (n - 1) ≠ [])
      (h : Reads ((st.advance (s.takeWhile isPad)).advance (c :: t.take (n - 1))) false
        (t.drop (n - 1)) ts f) : Reads st false s ts f
  | token {st s c t kind n after ts f} (hs : s.dropWhile isPad = c :: t)
      (hlex : lexeme .lenient (c :: t) = .token kind n)
      (hbracket : (if kind = .operator then
          (st.advance (s.takeWhile isPad)).bracket false (c :: t.take (n - 1))
        else .ok (st.advance (s.takeWhile isPad))) = .ok after)
      (h : Reads (after.advance (c :: t.take (n - 1))) (kind = .stray) (t.drop (n - 1)) ts f) :
      Reads st false s
        ((st.advance (s.takeWhile isPad)).token kind (c :: t.take (n - 1)) :: ts) f
  | stray {st p s c t ts f} (hs : (p :: s).dropWhile isPad = c :: t)
      (hlex : lexeme .lenient (c :: t) = .stray) (h : Reads (st.advance [p]) false s ts f) :
      Reads st false (p :: s) (st.token .stray [p] :: ts) f

@[simp]
theorem LexState.depth_advance (st : LexState) (s : Text) : (st.advance s).depth = st.depth := by
  unfold LexState.advance
  dsimp only
  split <;> rfl

/-- What the scanner gives at the beginning of a line, if what it gives of less is right. -/
theorem reads_line (st : LexState) (s : Text)
    (ih : ∀ st fresh u, 2 * u.length + fresh.toNat < 2 * s.length + 1 →
      Reads st fresh u (scan .lenient st fresh u).1 (scan .lenient st fresh u).2) :
    Reads st true s (scan .lenient st true s).1 (scan .lenient st true s).2 := by
  have hsuffix : (s.dropWhile isPad).length ≤ s.length :=
    (List.dropWhile_suffix isPad (l := s)).length_le
  obtain rfl | hs := eq_or_ne s []
  · rw [scan_nil]
    exact .ended
  by_cases hdepth : st.depth = 0
  · cases hrest : s.dropWhile isPad with
    | nil =>
      rw [scan_margin hs hdepth (lineMargin_lenient s) ((drop_margin s).trans hrest), take_margin]
      exact .spare hs hdepth hrest
    | cons c t =>
      rw [hrest] at hsuffix
      cases hidle : isIdle c with
      | true =>
        obtain ⟨line, u, rest, hu, hline, hends⟩ := exists_line (c :: t)
        have hidle' : ∃ c ∈ (line ++ u).head?, isIdle c := by simp [← hu, hidle]
        have hlt : rest.length < s.length := by
          have hlength : (c :: t).length = line.length + u.length := by simp [hu]
          cases hends with
          | eof => simp at hsuffix ⊢; omega
          | newline rest => simp at hlength hsuffix; omega
        rw [scan_blank hdepth (hrest.trans hu) hline hends hidle']
        exact .blank hdepth (hrest.trans hu) hline hends hidle'
          (ih _ true rest (by simp; omega))
      | false =>
        have hcode : ¬(c = '#' ∨ c = '\r' ∨ c = '\n') := by
          simpa [isIdle, and_assoc] using hidle
        have hdrop := (drop_margin s).trans hrest
        cases hsettle : (st.advance (s.takeWhile isPad)).settle false (margin s)
          (s.takeWhile isPad) with
        | error f =>
          rw [scan_unsettled hdepth (lineMargin_lenient s) hdrop hcode
            (by rw [take_margin]; exact hsettle)]
          exact .unsettled hdepth hrest hidle hsettle
        | ok settled =>
          rw [scan_codeLine hdepth (lineMargin_lenient s) hdrop hcode
            (by rw [take_margin]; exact hsettle)]
          exact .settled hdepth hrest hidle hsettle
            (ih settled.2 false (c :: t) (by simp at hsuffix ⊢; omega))
  · rw [scan_bracketed hs hdepth]
    exact .bracketed hs hdepth (ih st false s (by simp))

/-- What the scanner gives inside a line, if what it gives of less is right. -/
theorem reads_inside (st : LexState) (s : Text)
    (ih : ∀ st fresh u, u.length < s.length →
      Reads st fresh u (scan .lenient st fresh u).1 (scan .lenient st fresh u).2) :
    Reads st false s (scan .lenient st false s).1 (scan .lenient st false s).2 := by
  cases hrest : s.dropWhile isPad with
  | nil =>
    rw [scan_end hrest]
    exact .stop hrest
  | cons c t =>
    have hlt (n : Nat) : (t.drop n).length < s.length := by
      have hsuffix := (List.dropWhile_suffix isPad (l := s)).length_le
      rw [hrest, List.length_cons] at hsuffix
      rw [List.length_drop]
      omega
    cases hlex : lexeme .lenient (c :: t) with
    | fault f =>
      rw [scan_fault hrest hlex]
      exact .fault hrest hlex
    | lineEnd n =>
      have h := ih ((st.advance (s.takeWhile isPad)).advance (c :: t.take (n - 1))) true
        (t.drop (n - 1)) (hlt _)
      rw [scan_lineEnd hrest hlex]
      simpa using Reads.lineEnd hrest hlex h
    | continuation n =>
      rw [scan_continuation hrest hlex]
      by_cases hdrop : t.drop (n - 1) = []
      · simp only [hdrop, if_true]
        simpa [LexState.finish] using Reads.broken hrest hlex hdrop
      · have h := ih ((st.advance (s.takeWhile isPad)).advance (c :: t.take (n - 1))) false
          (t.drop (n - 1)) (hlt _)
        simp only [hdrop, if_false]
        exact .continued hrest hlex hdrop h
    | token kind n =>
      obtain ⟨after, hbracket⟩ := (st.advance (s.takeWhile isPad)).exists_bracket kind
        (c :: t.take (n - 1))
      have h := ih (after.advance (c :: t.take (n - 1))) (kind = .stray) (t.drop (n - 1)) (hlt _)
      rw [scan_token hrest hlex hbracket]
      exact .token hrest hlex hbracket h
    | stray =>
      obtain _ | ⟨p, rest⟩ := s
      · cases hrest
      rw [scan_stray hrest hlex]
      exact .stray hrest hlex (ih (st.advance [p]) false rest (by simp))

/-- **The scanner's runs are what the relation holds of.** -/
theorem reads_scan (st : LexState) (fresh : Bool) (s : Text) :
    Reads st fresh s (scan .lenient st fresh s).1 (scan .lenient st fresh s).2 := by
  -- with brackets open, the beginning of a line is passed without reading anything
  induction hsize : 2 * s.length + fresh.toNat using Nat.strong_induction_on
    generalizing st fresh s with
  | _ size ih =>
    cases fresh with
    | true => exact reads_line st s fun st fresh u hu => ih _ (hu.trans_eq hsize) st fresh u rfl
    | false =>
      refine reads_inside st s fun st fresh u hu => ih _ ?_ st fresh u rfl
      have hfresh := Bool.toNat_le fresh
      simp at hsize
      omega

end Code

end ServerPages
