import ServerPages.Code.Lexer

/-!
# One step of the scanner

What the scanner does where it stands, once the lexeme there is known: inside a line it writes
the token of that lexeme and goes on behind it (`scan_token`, `scan_lineEnd`), and at the
beginning of a line it measures the margin, passes over a line without code and settles the
indentation of one with code (`scan_blankLine`, `scan_codeLine`).
-/

namespace ServerPages

namespace Code

variable {d : Dialect} {st : LexState} {s t : Text} {c : Char}

/-! ### Inside a line -/

theorem scan_end (h : s.dropWhile isPad = []) :
    scan d st false s =
      let after := st.advance (s.takeWhile isPad)
      (after.token .newline [] :: (after.finish false).1, (after.finish false).2) := by
  rw [scan.eq_def]
  simp only [Bool.false_eq_true, if_false]
  split
  · rfl
  · next hd => rw [h] at hd; cases hd

theorem scan_token {kind : TokenKind} {n : Nat} {after : LexState}
    (h : s.dropWhile isPad = c :: t) (hlex : lexeme d (c :: t) = .token kind n)
    (hb : (if kind = .operator then
        (st.advance (s.takeWhile isPad)).bracket d.strict (c :: t.take (n - 1))
      else .ok (st.advance (s.takeWhile isPad))) = .ok after) :
    scan d st false s =
      let spelled := c :: t.take (n - 1)
      let rest := scan d (after.advance spelled) (kind = .stray) (t.drop (n - 1))
      ((st.advance (s.takeWhile isPad)).token kind spelled :: rest.1, rest.2) := by
  rw [scan.eq_def]
  simp only [Bool.false_eq_true, if_false]
  split
  · next hd => rw [h] at hd; cases hd
  · next hd =>
    obtain ⟨rfl, rfl⟩ := List.cons.inj (hd.symm.trans h)
    simp only [hlex, hb]

theorem scan_lineEnd {n : Nat} (h : s.dropWhile isPad = c :: t)
    (hlex : lexeme d (c :: t) = .lineEnd n) :
    scan d st false s =
      let here := st.advance (s.takeWhile isPad)
      let spelled := c :: t.take (n - 1)
      let rest := scan d (here.advance spelled) true (t.drop (n - 1))
      (here.token (if 0 < here.depth then .blankLine else .newline) spelled :: rest.1,
        rest.2) := by
  rw [scan.eq_def]
  simp only [Bool.false_eq_true, if_false]
  split
  · next hd => rw [h] at hd; cases hd
  · next hd =>
    obtain ⟨rfl, rfl⟩ := List.cons.inj (hd.symm.trans h)
    simp only [hlex]

theorem scan_fault {f : LexFault} (h : s.dropWhile isPad = c :: t)
    (hlex : lexeme d (c :: t) = .fault f) : scan d st false s = ([], some f) := by
  rw [scan.eq_def]
  simp only [Bool.false_eq_true, if_false]
  split
  · next hd => rw [h] at hd; cases hd
  · next hd =>
    obtain ⟨rfl, rfl⟩ := List.cons.inj (hd.symm.trans h)
    simp only [hlex]

/-- The lenient reader keeps the character where it stands, be it a blank before the one that
spells no token. -/
theorem scan_stray {p : Char} {rest : Text} (h : (p :: rest).dropWhile isPad = c :: t)
    (hlex : lexeme .lenient (c :: t) = .stray) :
    scan .lenient st false (p :: rest) =
      let after := scan .lenient (st.advance [p]) false rest
      (st.token .stray [p] :: after.1, after.2) := by
  rw [scan.eq_def]
  simp only [Bool.false_eq_true, if_false]
  split
  · next hd => rw [h] at hd; cases hd
  · next hd =>
    obtain ⟨rfl, rfl⟩ := List.cons.inj (hd.symm.trans h)
    simp only [hlex]
    simp [strayLexeme, Dialect.lenient]

/-! ### At the beginning of a line -/

/-- The margin that the scanner measures at the beginning of a line. -/
def lineMargin (d : Dialect) (s : Text) : Option Margin :=
  if d.strict then splitMargin 0 {} s else some (margin s)

variable {m : Margin} {e : Char} {u : Text}

theorem scan_nil : scan d st true [] = st.finish false := by
  rw [scan.eq_def]
  rfl

theorem scan_blankLine (hdepth : st.depth = 0) (hm : lineMargin d s = some m)
    (hs : s.drop m.length = e :: u) (he : e = '#' ∨ e = '\r' ∨ e = '\n') :
    scan d st true s =
      let here := st.advance (s.take m.length)
      let length := (blankLine (e :: u)).1
      let comment := (blankLine (e :: u)).2
      let line := (e :: u).take length
      let tail := here.advance (line.take comment)
      let marks := if comment = 0 then [] else [here.token .comment (line.take comment)]
      let rest := scan d (here.advance (line ++ ['\n'])) true (u.drop length)
      (marks ++ tail.token .blankLine (line.drop comment ++ ['\n']) :: rest.1, rest.2) := by
  obtain _ | ⟨c, t⟩ := s
  · simp at hs
  rw [scan.eq_def]
  simp only [if_true, hdepth, ne_eq, not_true_eq_false, if_false]
  rw [lineMargin] at hm
  simp only [hm]
  split
  · next hd => rw [hs] at hd; cases hd
  · next hd =>
    obtain ⟨rfl, rfl⟩ := List.cons.inj (hd.symm.trans hs)
    rw [if_pos he]

theorem scan_codeLine {marks : List Token} {after : LexState} (hdepth : st.depth = 0)
    (hm : lineMargin d s = some m) (hs : s.drop m.length = e :: u)
    (he : ¬(e = '#' ∨ e = '\r' ∨ e = '\n'))
    (hsettle : (st.advance (s.take m.length)).settle d.strict m (s.take m.length) =
      .ok (marks, after)) :
    scan d st true s =
      (marks ++ (scan d after false (e :: u)).1, (scan d after false (e :: u)).2) := by
  obtain _ | ⟨c, t⟩ := s
  · simp at hs
  rw [scan.eq_def]
  simp only [if_true, hdepth, ne_eq, not_true_eq_false, if_false]
  rw [lineMargin] at hm
  simp only [hm]
  split
  · next hd => rw [hs] at hd; cases hd
  · next hd =>
    obtain ⟨rfl, rfl⟩ := List.cons.inj (hd.symm.trans hs)
    rw [if_neg he]
    simp only [hsettle]

end Code

end ServerPages
