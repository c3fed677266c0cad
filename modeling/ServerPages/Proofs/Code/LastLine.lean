import ServerPages.Proofs.Code.Kept

/-!
# The last line of code

A token begins and ends with visible characters. So the line on which the last token ends is not
white space alone, be the token part of a string that began further up (`Reads.holdsVisible`).
-/

namespace ServerPages

namespace Code

/-- The line on which a token ends. -/
def Token.endLine (t : Token) : Nat := t.line + t.text.dropLast.count '\n'

variable {st after : LexState} {fresh : Bool} {s t u w : Text} {ts : List Token}
  {f : Option LexFault} {kind : TokenKind} {n : Nat} {c : Char} {tok : Token}

/-! ### The last line -/

private theorem lastPiece_append_of_mem (hu : '\n' ∈ u) (w : Text) :
    Text.lastPiece '\n' (w ++ u) = Text.lastPiece '\n' u := by
  obtain ⟨a, b, rfl⟩ := List.append_of_mem hu
  rw [← List.append_assoc, Text.lastPiece_append_cons_right, Text.lastPiece_append_cons_right]

private theorem mem_lastPiece_append (h : c ∈ Text.lastPiece '\n' u) (w : Text) :
    c ∈ Text.lastPiece '\n' (w ++ u) := by
  by_cases hu : '\n' ∈ u
  · rwa [lastPiece_append_of_mem hu]
  · rw [Text.lastPiece_append hu]
    rw [Text.lastPiece_of_not_mem hu] at h
    exact List.mem_append_right _ h

/-- Whether the last line of a text is not white space alone. -/
def HoldsVisible (s : Text) : Prop := ∃ c ∈ Text.lastPiece '\n' s, isPad c = false

theorem HoldsVisible.append (h : HoldsVisible u) (w : Text) : HoldsVisible (w ++ u) := by
  obtain ⟨c, hc, hpad⟩ := h
  exact ⟨c, mem_lastPiece_append hc w, hpad⟩

theorem HoldsVisible.of_append (h : HoldsVisible (w ++ u)) (hu : '\n' ∈ u) : HoldsVisible u := by
  rwa [HoldsVisible, lastPiece_append_of_mem hu] at h

theorem HoldsVisible.behind_newline (h : HoldsVisible (w ++ '\n' :: u)) : HoldsVisible u := by
  rwa [HoldsVisible, Text.lastPiece_append_cons_right] at h

theorem holdsVisible_of_not_mem (hs : '\n' ∉ s) (hc : c ∈ s) (hpad : isPad c = false) :
    HoldsVisible s := ⟨c, by rwa [Text.lastPiece_of_not_mem hs], hpad⟩

theorem not_holdsVisible_of_pads (hs : s.dropWhile isPad = []) : ¬HoldsVisible s := by
  rintro ⟨c, hc, hpad⟩
  have hall := List.dropWhile_eq_nil_iff.mp hs
  have hnewline : '\n' ∉ s := fun hmem => absurd (hall _ hmem) (by decide)
  rw [Text.lastPiece_of_not_mem hnewline] at hc
  rw [hall c hc] at hpad
  cases hpad

/-- The white space before a line is passed. -/
theorem HoldsVisible.dropWhile (h : HoldsVisible s) (hs : s.dropWhile isPad = c :: t) :
    HoldsVisible (c :: t) := by
  by_cases hmem : '\n' ∈ c :: t
  · rw [← takeWhile_append_rest hs] at h
    exact h.of_append hmem
  · exact holdsVisible_of_not_mem hmem List.mem_cons_self (isPad_of_dropWhile hs)

/-! ### What stands on the last line -/

/-- A run over nothing is what the scanner gives. -/
theorem Reads.scan_nil (h : Reads st fresh [] ts f) : scan .lenient st fresh [] = (ts, f) := by
  generalize hs : ([] : Text) = s at h ⊢
  cases h with
  | ended => rw [Code.scan_nil]
  | stop hdrop => rw [scan_end hdrop]
  | bracketed hne | spare hne => exact absurd hs.symm hne
  | blank _ hdrop _ _ hidle =>
    rw [← hs] at hdrop
    rw [← hdrop] at hidle
    simp at hidle
  | stray => cases hs
  | settled _ hdrop | unsettled _ hdrop | fault hdrop | lineEnd hdrop | broken hdrop
  | continued hdrop | token hdrop =>
    rw [← hs] at hdrop
    cases hdrop

private theorem LexState.finish_text (st : LexState) (continued : Bool) :
    ∀ t ∈ (st.finish continued).1, t.text = [] := by
  unfold LexState.finish
  split
  · simp
  · intro t ht
    rw [List.eq_of_mem_replicate ht]
    rfl

private theorem LexState.endLine_token (st : LexState) (kind : TokenKind) (hw : '\n' ∉ w.dropLast) :
    (st.token kind w).endLine = st.line :=
  congrArg (st.line + ·) (List.count_eq_zero.mpr hw)

private theorem LexState.line_pads (st : LexState) (s : Text) :
    (st.advance (s.takeWhile isPad)).line = st.line := by
  rw [LexState.line_advance, List.count_eq_zero.mpr (newline_not_mem_takeWhile s), Nat.add_zero]

/-- A change of indentation stands before a statement on its line. -/
theorem LexState.settle_endLine {m : Margin} {lead : Text} {marks : List Token}
    (hlead : '\n' ∉ lead) (h : st.settle false m lead = .ok (marks, after)) :
    after.line = st.line ∧ ∀ t ∈ marks, t.endLine = st.line := by
  have hnewline : '\n' ∉ lead.dropLast := fun hmem => hlead (List.dropLast_subset _ hmem)
  simp only [LexState.settle, Bool.false_eq_true, false_and, if_false] at h
  split at h
  · cases h
    refine ⟨rfl, fun t ht => ?_⟩
    rw [List.mem_singleton.mp ht]
    exact congrArg (st.line + ·) (List.count_eq_zero.mpr hnewline)
  · split at h
    · cases h
    · cases h
      refine ⟨rfl, fun t ht => ?_⟩
      rw [List.eq_of_mem_replicate ht]
      rfl

private theorem LexState.blankTokens_endLine (st : LexState) {line : Text} (hline : '\n' ∉ line) :
    ∀ t ∈ st.blankTokens line, t.endLine = st.line := by
  have hcomment : '\n' ∉ commentOf line := by
    rw [← take_commentOf]
    exact fun hmem => hline (List.mem_of_mem_take hmem)
  have hend : ((st.advance (commentOf line)).token .blankLine
      (line.drop (commentOf line).length ++ ['\n'])).endLine = st.line := by
    rw [LexState.endLine_token, LexState.line_advance, List.count_eq_zero.mpr hcomment,
      Nat.add_zero]
    rw [List.dropLast_concat]
    exact fun hmem => hline (List.mem_of_mem_drop hmem)
  intro t ht
  rw [LexState.blankTokens, List.mem_append, List.mem_singleton] at ht
  obtain ht | rfl := ht
  · split at ht
    · cases ht
    · rw [List.mem_singleton.mp ht]
      exact st.endLine_token .comment fun hmem => hcomment (List.dropLast_subset _ hmem)
  · exact hend

/-- No token goes beyond the text. -/
theorem length_of_lexeme (h : lexeme .lenient s = .token kind n) (hkind : kind ≠ .stray)
    (hs : s ≠ []) : n ≤ s.length := by
  have hnil : ∀ c ∈ ([] : Text).head?, c = '\n' := by simp
  rw [← List.append_nil s] at h
  by_contra hn
  obtain rfl : kind = .string := by
    by_contra hstring
    exact hn (le_length_of_lexeme hnil hs h hkind hstring)
  have hle := (lexeme_take_append hnil hs h (not_le.mp hn)).1
  rw [List.append_nil] at hle
  exact hn hle

/-- A token that goes beyond its line is a string, and ends with its mark. -/
theorem exists_mark_of_lexeme (h : lexeme .lenient (c :: t) = .token kind n) (hkind : kind ≠ .stray)
    (hnewline : '\n' ∈ c :: t.take (n - 1)) :
    ∃ w q, c :: t.take (n - 1) = w ++ [q] ∧ (q = '"' ∨ q = '\'') := by
  have hc : c ≠ '\n' := by
    rintro rfl
    cases h
  obtain ⟨line, u, rest, hsplit, hline, hends⟩ := exists_line (c :: t)
  have hu : ∀ d ∈ u.head?, d = '\n' := by cases hends <;> simp
  have hne : line ≠ [] := by
    rintro rfl
    exact hc (hu c (by rw [List.nil_append] at hsplit; rw [← hsplit]; rfl))
  obtain ⟨m, rfl⟩ | rfl : (∃ m, n = m + 1) ∨ n = 0 := by cases n <;> simp
  · have htake : c :: t.take (m + 1 - 1) = (line ++ u).take (m + 1) := by rw [← hsplit]; rfl
    rw [htake] at hnewline ⊢
    rw [hsplit] at h
    have hn : line.length < m + 1 := by
      by_contra hle
      rw [List.take_append_of_le_length (not_lt.mp hle)] at hnewline
      exact hline (List.mem_of_mem_take hnewline)
    obtain rfl : kind = .string := by
      by_contra hstring
      exact absurd (le_length_of_lexeme hu hne h hkind hstring) (not_le.mpr hn)
    obtain ⟨-, ⟨q, hq, w, hw⟩, -⟩ := lexeme_take_append hu hne h hn
    exact ⟨w, q, hw.symm, hq⟩
  · simp [hc.symm] at hnewline

private theorem LexState.line_advance_pads (st : LexState) (s w : Text) :
    ((st.advance (s.takeWhile isPad)).advance w).line =
      st.line + (s.takeWhile isPad ++ w).count '\n' := by
  rw [LexState.line_advance, LexState.line_advance, List.count_append, Nat.add_assoc]

theorem takeWhile_append_spelled (hs : s.dropWhile isPad = c :: t) (n : Nat) :
    s.takeWhile isPad ++ (c :: t.take (n - 1)) ++ t.drop (n - 1) = s :=
  consumed_append_spelled [] hs n

/-- A token that ends on the last line of the text ends on the last line of what is left of it. -/
theorem holdsVisible_of_rest (hs : w ++ u = s) (hline : after.line = st.line + w.count '\n')
    (hend : tok.endLine = st.line + s.count '\n')
    (h : tok.endLine = after.line + u.count '\n' → HoldsVisible u) : HoldsVisible s := by
  rw [← hs, List.count_append, ← Nat.add_assoc, ← hline] at hend
  exact hs ▸ (h hend).append w

/-- A token that ends on the line where it begins has a visible character there. -/
theorem holdsVisible_of_endLine (hs : s.dropWhile isPad = c :: t) (hline : tok.endLine = st.line)
    (hend : tok.endLine = st.line + s.count '\n') : HoldsVisible s := by
  have hcount : s.count '\n' = 0 := by omega
  exact holdsVisible_of_not_mem (List.count_eq_zero.mp hcount)
    (mem_of_dropWhile_eq_cons hs c List.mem_cons_self) (isPad_of_dropWhile hs)

/-- A token ends with a visible character, or it has one on the only line where it stands. -/
theorem holdsVisible_of_lexeme (hs : s.dropWhile isPad = c :: t)
    (hlex : lexeme .lenient (c :: t) = .token kind n) (hkind : kind ≠ .stray)
    (hend : ((st.advance (s.takeWhile isPad)).token kind (c :: t.take (n - 1))).endLine =
      st.line + s.count '\n') : HoldsVisible s := by
  by_cases hnewline : '\n' ∈ c :: t.take (n - 1)
  · obtain ⟨w, q, hw, hq⟩ := exists_mark_of_lexeme hlex hkind hnewline
    have hq' : q ≠ '\n' ∧ isPad q = false := by obtain rfl | rfl := hq <;> decide
    have hsplit := takeWhile_append_spelled hs n
    rw [hw] at hsplit hend
    have hcount : (t.drop (n - 1)).count '\n' = 0 := by
      have hsum := congrArg (List.count '\n') hsplit
      simp only [List.count_append] at hsum
      simp only [Token.endLine, LexState.token, List.dropLast_concat, LexState.line_pads] at hend
      omega
    rw [← hsplit, List.append_assoc, List.append_assoc, ← List.append_assoc]
    refine (holdsVisible_of_not_mem ?_ List.mem_cons_self hq'.2).append _
    rw [List.mem_cons, not_or]
    exact ⟨hq'.1.symm, List.count_eq_zero.mp hcount⟩
  · refine holdsVisible_of_endLine hs ?_ hend
    rw [LexState.endLine_token _ _ fun hmem => hnewline (List.dropLast_subset _ hmem),
      LexState.line_pads]

/-- The line on which a token ends is not white space alone. -/
theorem Reads.holdsVisible (h : Reads st fresh s ts f) (hstray : ∀ t ∈ ts, t.kind ≠ .stray)
    (htok : tok ∈ ts) (htext : tok.text ≠ []) (hend : tok.endLine = st.line + s.count '\n') :
    HoldsVisible s := by
  induction h with
  | @ended st => exact absurd (st.finish_text false tok htok) htext
  | bracketed _ _ _ ih => exact ih hstray htok hend
  | spare => exact absurd (LexState.finish_text _ false tok htok) htext
  | @blank st s line u rest ts f _ hs hline hends hidle h ih =>
    rw [List.forall_mem_append] at hstray
    obtain htok | htok := List.mem_append.mp htok
    · obtain ⟨d, hd, -⟩ := hidle
      refine holdsVisible_of_endLine (hs.trans (List.eq_cons_of_mem_head? hd)) ?_ hend
      rw [LexState.blankTokens_endLine _ hline tok htok, LexState.line_pads]
    · cases hends with
      | eof =>
        have hts := congrArg Prod.fst h.scan_nil
        rw [Code.scan_nil] at hts
        exact absurd (LexState.finish_text _ false tok (by rw [hts]; exact htok)) htext
      | newline =>
        have hsplit : s.takeWhile isPad ++ (line ++ ['\n']) ++ rest = s := by
          rw [List.append_assoc, List.append_assoc, List.singleton_append, takeWhile_append_rest hs]
        exact holdsVisible_of_rest hsplit (LexState.line_advance_pads _ _ _) hend (ih hstray.2 htok)
  | @settled st s c t marks after ts f _ hs _ hsettle _ ih =>
    rw [List.forall_mem_append] at hstray
    obtain ⟨hline, hmarks⟩ := LexState.settle_endLine (newline_not_mem_takeWhile s) hsettle
    obtain htok | htok := List.mem_append.mp htok
    · exact holdsVisible_of_endLine hs ((hmarks tok htok).trans (st.line_pads s)) hend
    · exact holdsVisible_of_rest (takeWhile_append_rest hs)
        (hline.trans (LexState.line_advance _ _)) hend (ih hstray.2 htok)
  | unsettled => cases htok
  | stop =>
    obtain rfl | htok := List.mem_cons.mp htok
    · exact absurd rfl htext
    · exact absurd (LexState.finish_text _ false tok htok) htext
  | fault => cases htok
  | @lineEnd st s c t n ts f hs hlex _ ih =>
    rw [List.forall_mem_cons] at hstray
    obtain rfl | htok := List.mem_cons.mp htok
    · obtain ⟨w, hw, hspelled, -⟩ := eq_of_lexeme_lineEnd hlex
      refine holdsVisible_of_endLine hs ?_ hend
      rw [LexState.endLine_token, LexState.line_pads]
      rw [hspelled, List.dropLast_concat]
      exact hw.newline_not_mem
    · exact holdsVisible_of_rest (takeWhile_append_spelled hs n) (LexState.line_advance_pads _ _ _)
        hend (ih hstray.2 htok)
  | broken => cases htok
  | @continued st s c t n ts f hs _ _ _ ih =>
    exact holdsVisible_of_rest (takeWhile_append_spelled hs n) (LexState.line_advance_pads _ _ _)
      hend (ih hstray htok)
  | @token st s c t kind n after ts f hs hlex hbracket _ ih =>
    rw [List.forall_mem_cons] at hstray
    obtain rfl | htok := List.mem_cons.mp htok
    · exact holdsVisible_of_lexeme hs hlex hstray.1 hend
    · have hline : (after.advance (c :: t.take (n - 1))).line =
          st.line + (s.takeWhile isPad ++ (c :: t.take (n - 1))).count '\n' := by
        rw [LexState.line_advance, (LexState.token_depth hbracket).1, ← LexState.line_advance,
          LexState.line_advance_pads]
      exact holdsVisible_of_rest (takeWhile_append_spelled hs n) hline hend (ih hstray.2 htok)
  | stray => exact absurd rfl (hstray _ List.mem_cons_self)

end Code

end ServerPages
