import ServerPages.Code.Tail
import ServerPages.Proofs.Code.Scanning
import ServerPages.Proofs.Text.Pieces
import Mathlib.Data.List.TakeWhile

/-!
# Code on one line

Code that holds no newline is one logical line. Whatever its tokens are, the first one stands in
its first column, and none of them begins a statement of its own. So the code leaves off where it
begins, be it a statement, a header or a comment (`Tail.column_ofCode`).
-/

namespace ServerPages

namespace Code

theorem isBlank_of_isPad {c : Char} (h : isPad c = true) : Text.isBlank c = true := by
  simp only [isPad, Bool.or_eq_true, beq_iff_eq] at h
  rcases h with (rfl | rfl) | rfl <;> rfl

/-! ### Lexemes -/

private theorem LineString.after_ne_escaped {n : Nat} {r : LineString} (h : ∀ m, r ≠ .escaped m) (m : Nat) :
    r.after n ≠ .escaped m := by
  cases r with
  | closed k => simp [LineString.after]
  | escaped k => exact absurd rfl (h k)
  | «open» => simp [LineString.after]

theorem lineString_ne_escaped (q : Char) {s : Text} (h : '\n' ∉ s) (n : Nat) :
    lineString q s ≠ .escaped n := by
  fun_induction lineString q s generalizing n with
  | case1 => simp
  | case2 => simp
  | case3 => simp
  | case4 => simp at h
  | case5 => simp at h
  | case6 _ _ _ _ _ _ ih =>
    simp only [List.mem_cons, not_or] at h
    exact LineString.after_ne_escaped (ih h.2.2) n
  | case7 => simp
  | case8 _ _ _ _ _ ih =>
    simp only [List.mem_cons, not_or] at h
    exact LineString.after_ne_escaped (ih h.2) n

/-- A string on one line is finished there, or the code breaks off. -/
theorem stringLexeme_of_newline_not_mem {o : StringOpening} {s : Text} {l : Lexeme}
    (h : '\n' ∉ s) (hl : stringLexeme o s = some l) :
    (∃ n, l = .token .string n) ∨ l = .fault .openString := by
  have hbody : '\n' ∉ s.drop o.length := fun hc => h ((List.drop_suffix _ s).subset hc)
  simp only [stringLexeme] at hl
  split at hl
  · split at hl
    · exact .inl ⟨_, (Option.some.inj hl).symm⟩
    · exact .inr (Option.some.inj hl).symm
  · split at hl
    · exact .inl ⟨_, (Option.some.inj hl).symm⟩
    · next hr => exact absurd hr (lineString_ne_escaped o.mark hbody _)
    · cases hl

/-- What a token inside a line may be: something that says something, or a comment. -/
def TokenKind.IsInner (kind : TokenKind) : Prop :=
  kind = .name ∨ kind = .number ∨ kind = .string ∨ kind = .operator ∨ kind = .comment

/-- On one line a lexeme is a word, a number, a string, an operator or a comment, which begins with
its sign, or else nothing that can be read. -/
theorem lexeme_of_newline_not_mem {c : Char} {t : Text} (h : '\n' ∉ c :: t) :
    (∃ kind n, lexeme .lenient (c :: t) = .token kind n ∧ kind.IsInner ∧
      (kind = .comment → c = '#')) ∨
    (∃ f, lexeme .lenient (c :: t) = .fault f) ∨ lexeme .lenient (c :: t) = .stray := by
  unfold lexeme
  split
  · next heq => simp [heq] at h
  · next heq => simp [heq] at h
  · next heq => simp [heq] at h
  · next heq => simp [heq] at h
  · next heq =>
    obtain ⟨rfl, rfl⟩ := List.cons.inj heq
    exact .inl ⟨_, _, rfl, by simp [TokenKind.IsInner]⟩
  · simp only
    split
    · rw [if_neg (by simp [Dialect.lenient])]
      exact .inl ⟨_, _, rfl, by simp [TokenKind.IsInner]⟩
    · split
      · next l hl =>
        obtain ⟨o, -, ho⟩ := Option.bind_eq_some_iff.1 hl
        obtain ⟨n, rfl⟩ | rfl := stringLexeme_of_newline_not_mem h ho
        · exact .inl ⟨_, _, rfl, by simp [TokenKind.IsInner]⟩
        · exact .inr (.inl ⟨_, rfl⟩)
      · split
        · exact .inl ⟨_, _, rfl, by simp [TokenKind.IsInner]⟩
        · unfold nameLexeme
          split
          · exact .inr (.inr rfl)
          · rw [if_neg (by simp [Dialect.lenient])]
            refine .inl ⟨_, _, rfl, ?_⟩
            split <;> simp [TokenKind.IsInner]

/-! ### The tokens of a line -/

private theorem LexState.advance_column {st : LexState} {s : Text} (h : '\n' ∉ s) :
    (st.advance s).column = st.column + s.length := by
  simp [LexState.advance, List.count_eq_zero.2 h]

theorem newline_not_mem_takeWhile (s : Text) : '\n' ∉ s.takeWhile isPad := fun h => by
  simpa [isPad] using List.mem_takeWhile_imp h

/-- The lenient reader takes brackets as they come. -/
theorem LexState.bracket_lenient (st : LexState) (op : Text) :
    ∃ after, st.bracket false op = .ok after := by
  unfold LexState.bracket
  split
  · split
    · exact ⟨_, if_neg (by simp)⟩
    · split
      · split
        · exact ⟨_, if_neg (by simp)⟩
        · exact ⟨_, if_neg (by simp)⟩
      · exact ⟨_, rfl⟩
  · exact ⟨_, rfl⟩

/-- What one step inside a line that goes on to the end of the text may do: break off, come to the
end, or read one token and go on with less of the line. -/
theorem scan_of_newline_not_mem (st : LexState) {s : Text} (h : '\n' ∉ s) :
    (scan .lenient st false s).1 = [] ∨
    (∃ t k u, t.kind = .newline ∧ u.kind = .dedent ∧
      (scan .lenient st false s).1 = t :: List.replicate k u) ∨
    (∃ t st' rest, (t.kind.IsInner ∨ t.kind = .stray) ∧
      (t.kind = .comment → ∃ u, s.dropWhile isPad = '#' :: u) ∧
      st.column ≤ t.column ∧ t.column ≤ st.column + (s.takeWhile isPad).length ∧
      rest <:+ s ∧ rest.length < s.length ∧
      (scan .lenient st false s).1 = t :: (scan .lenient st' false rest).1) := by
  have hcol : (st.advance (s.takeWhile isPad)).column = st.column + (s.takeWhile isPad).length :=
    LexState.advance_column (newline_not_mem_takeWhile s)
  have hsuf : s.dropWhile isPad <:+ s := List.dropWhile_suffix _
  cases hd : s.dropWhile isPad with
  | nil =>
    rw [scan_end hd]
    simp only [LexState.finish]
    split
    · exact .inr (.inl ⟨_, 0, ⟨.dedent, [], 0, 0⟩, rfl, rfl, rfl⟩)
    · exact .inr (.inl ⟨_, _, _, rfl, rfl, rfl⟩)
  | cons c t =>
    rw [hd] at hsuf
    have hline : '\n' ∉ c :: t := fun hc => h (hsuf.subset hc)
    have hlt : t.length < s.length := hsuf.length_le
    have htail : t <:+ s := (List.suffix_cons c t).trans hsuf
    obtain ⟨kind, n, hlex, hkind, hsign⟩ | ⟨f, hlex⟩ | hlex := lexeme_of_newline_not_mem hline
    · have hok : ∃ after, (if kind = .operator then
          (st.advance (s.takeWhile isPad)).bracket false (c :: t.take (n - 1))
          else .ok (st.advance (s.takeWhile isPad))) = .ok after := by
        split
        · exact LexState.bracket_lenient _ _
        · exact ⟨_, rfl⟩
      obtain ⟨after, hb⟩ := hok
      have hstray : decide (kind = .stray) = false := by
        obtain rfl | rfl | rfl | rfl | rfl := hkind <;> rfl
      rw [scan_token hd hlex hb, hstray]
      refine .inr (.inr ⟨_, _, t.drop (n - 1), .inl hkind, fun hc => ⟨t, ?_⟩, ?_, ?_,
        (List.drop_suffix _ t).trans htail, ?_, rfl⟩)
      · rw [hsign hc]
      · simp only [LexState.token, hcol]
        omega
      · simp only [LexState.token, hcol]
        omega
      · exact (List.drop_suffix _ t).length_le.trans_lt hlt
    · exact .inl (by rw [scan_fault hd hlex])
    · -- the character that stands here is kept, a blank as well as one that spells no token
      obtain _ | ⟨p, rest⟩ := s
      · cases hd
      rw [scan_stray hd hlex]
      refine .inr (.inr ⟨st.token .stray [p], st.advance [p], rest, .inr rfl, ?_, le_rfl,
        Nat.le_add_right _ _, List.suffix_cons p rest, Nat.lt_succ_self _, rfl⟩)
      simp [LexState.token]

/-- Code that begins with neither white space nor a comment is read from its first character on. -/
theorem tokens_of_not_blank {c : Char} (s : Text) (hc : Text.isBlank c = false) (hsign : c ≠ '#') :
    tokens (c :: s) = scan .lenient {} false (c :: s) := by
  have hpad : isPad c = false := by
    by_contra hpad
    rw [isBlank_of_isPad (by simpa using hpad)] at hc
    cases hc
  have hcode : ¬(c = '#' ∨ c = '\r' ∨ c = '\n') := by
    rintro (rfl | rfl | rfl)
    · exact hsign rfl
    · cases hc
    · cases hc
  have hm : lineMargin .lenient (c :: s) = some {} := by
    simp [lineMargin, Dialect.lenient, margin, hpad]
  have hsettle : (({} : LexState).advance []).settle false {} [] = .ok ([], {}) := rfl
  have hdepth : ({} : LexState).depth = 0 := rfl
  rw [tokens, scan_codeLine (d := .lenient) hdepth hm rfl hcode hsettle]
  rfl

/-! ### Where a line leaves off -/

namespace Tail

/-- Reading has come behind the first token of a line that began in the first column. -/
structure Seen.Within (seen : Seen) : Prop where
  column_eq : seen.column = 0
  comment_eq : seen.comment = none

/-- A token that neither ends a line nor begins a statement moves nothing. -/
theorem Seen.Within.step {seen : Seen} {t : Token} (h : seen.Within) (hs : seen.atStart = false)
    (ht : t.kind.IsInner ∨ t.kind = .stray) :
    (seen.step t).Within ∧ (seen.step t).atStart = false := by
  obtain ⟨hcol, hcom⟩ := h
  obtain (hk | hk | hk | hk | hk) | hk := ht <;>
    simp [Seen.step, hk, hs, hcol, hcom, Seen.Within.mk]

theorem Seen.Within.end {seen : Seen} {t u : Token} (h : seen.Within) (ht : t.kind = .newline)
    (hu : u.kind = .dedent) (k : Nat) :
    ((t :: List.replicate k u).foldl Seen.step seen).Within := by
  have hdedent : ∀ (k : Nat) (seen : Seen), (List.replicate k u).foldl Seen.step seen = seen := by
    intro k
    induction k with
    | zero => exact fun _ => rfl
    | succ k ih =>
      intro seen
      rw [List.replicate_succ, List.foldl_cons, Seen.step, hu, ih]
  rw [List.foldl_cons, hdedent, Seen.step, ht]
  exact ⟨h.column_eq, h.comment_eq⟩

/-- Behind the first token of a line nothing moves the column any more. -/
theorem Seen.Within.scan (st : LexState) {s : Text} {seen : Seen} (h : seen.Within)
    (hstart : seen.atStart = false) (hs : '\n' ∉ s) :
    ((scan .lenient st false s).1.foldl Seen.step seen).Within := by
  induction hlen : s.length using Nat.strong_induction_on generalizing s st seen with
  | _ n ih =>
    obtain hnil | ⟨t, k, u, ht, hu, heq⟩ | ⟨t, st', rest, ht, -, -, -, hsuf, hlt, heq⟩ :=
      scan_of_newline_not_mem st hs
    · rw [hnil]
      exact h
    · rw [heq]
      exact h.end ht hu k
    · rw [heq, List.foldl_cons]
      obtain ⟨h', hstart'⟩ := h.step hstart ht
      exact ih rest.length (hlen ▸ hlt) st' h' hstart' (fun hc => hs (hsuf.subset hc)) rfl

private theorem dropTrailing_of_not_mem {c : Char} {s : Text} (h : c ∉ s) :
    Text.dropTrailing c s = s := by
  have hrev : s.reverse.dropWhile (· = c) = s.reverse := by
    cases hr : s.reverse with
    | nil => rfl
    | cons d r =>
      have hd : d ∈ s := List.mem_reverse.1 (hr ▸ List.mem_cons_self)
      have hne : d ≠ c := fun hdc => h (hdc ▸ hd)
      rw [List.dropWhile_cons_of_neg (by simpa using hne)]
  rw [Text.dropTrailing, hrev, List.reverse_reverse]

private theorem lastMargin_of_newline_not_mem {c : Char} {s : Text} (h : '\n' ∉ c :: s)
    (hc : Text.isBlank c = false) : lastMargin (c :: s) = 0 := by
  rw [lastMargin, dropTrailing_of_not_mem h, Text.lastPiece, Text.splitOn_of_not_mem h]
  simp [Text.leadingBlanks, hc]

/-- A line that is a comment has one token and its end. -/
theorem tokens_comment {s : Text} (h : '\n' ∉ s) :
    ∃ t u, (tokens ('#' :: s)).1 = [t, u] ∧ t.kind = .comment ∧ t.column = 0 ∧
      u.kind = .blankLine := by
  have hline : ('#' :: s).takeWhile (· ≠ '\n') = '#' :: s :=
    List.takeWhile_eq_self_iff.2 fun d hd => by
      rw [decide_eq_true_eq]
      rintro rfl
      simp [h] at hd
  have hblank : blankLine ('#' :: s) =
      (('#' :: s).length, (('#' :: s).reverse.dropWhile (· = '\r')).length) := by
    simp only [blankLine, hline]
    exact if_pos rfl
  have hlast : (('#' :: s).reverse.dropWhile (· = '\r')).length ≠ 0 := by
    rw [ne_eq, List.length_eq_zero_iff, List.dropWhile_eq_nil_iff]
    exact fun hall => by simpa using hall '#' (by simp)
  have hnil : s.drop ('#' :: s).length = [] := List.drop_eq_nil_of_le (Nat.le_succ _)
  have hm : lineMargin .lenient ('#' :: s) = some {} := rfl
  rw [tokens, scan_blankLine rfl hm rfl (.inl rfl)]
  simp only [hblank, hlast, if_false, hnil, scan_nil]
  have hfinish : ∀ st : LexState, st.indents = [] → (st.finish false).1 = [] := by
    intro st hst
    simp only [LexState.finish, hst]
    split <;> rfl
  rw [hfinish _ (by simp [LexState.advance])]
  exact ⟨_, _, rfl, rfl, rfl, rfl⟩

/-- A comment opens no suite. -/
theorem opens_ofCode_comment {s : Text} (h : '\n' ∉ s) : (ofCode ('#' :: s)).opens = false := by
  obtain ⟨t, u, htokens, ht, -, hu⟩ := tokens_comment h
  have hlast : ((tokens ('#' :: s)).1.foldl Seen.step {}).last = none := by
    simp [htokens, Seen.step, ht, hu]
  simp only [ofCode, hlast]
  split <;> rfl

/-- What has been seen of a whole line. -/
theorem seen_of_newline_not_mem {c : Char} {s : Text} (h : '\n' ∉ c :: s)
    (hc : Text.isBlank c = false) :
    let seen := (tokens (c :: s)).1.foldl Seen.step {}
    seen.column = 0 ∧ (seen.comment = none ∨ seen.comment = some 0) := by
  have hpad : isPad c = false := by
    by_contra hpad
    rw [isBlank_of_isPad (by simpa using hpad)] at hc
    cases hc
  by_cases hsign : c = '#'
  · obtain ⟨t, u, htokens, ht, htcol, hu⟩ := tokens_comment (List.not_mem_of_not_mem_cons h)
    simp [hsign, htokens, Seen.step, ht, hu, htcol]
  · rw [tokens_of_not_blank s hc hsign]
    have hstart : ({} : Seen).Within := ⟨rfl, rfl⟩
    have hwithin : ((scan .lenient {} false (c :: s)).1.foldl Seen.step {}).Within := by
      obtain hnil | ⟨t, k, u, ht, hu, heq⟩ |
          ⟨t, st', rest, ht, hcomment, -, hle, hsuf, -, heq⟩ := scan_of_newline_not_mem {} h
      · rw [hnil]
        exact hstart
      · rw [heq]
        exact hstart.end ht hu k
      · have hcol : t.column = 0 := by simpa [hpad] using hle
        have hkind : t.kind ≠ .comment := fun hk => by
          obtain ⟨u, hu⟩ := hcomment hk
          rw [List.dropWhile_cons_of_neg (by simp [hpad])] at hu
          exact hsign (List.cons.inj hu).1
        have hfirst : (({} : Seen).step t).Within ∧ (({} : Seen).step t).atStart = false := by
          obtain (hk | hk | hk | hk | hk) | hk := ht
          all_goals first
            | exact absurd hk hkind
            | simp [Seen.step, hk, hcol, Seen.Within.mk]
        rw [heq, List.foldl_cons]
        exact hfirst.1.scan st' hfirst.2 fun hc => h (hsuf.subset hc)
    exact ⟨hwithin.column_eq, .inl hwithin.comment_eq⟩

/-- **A line leaves off where it begins.** -/
theorem column_ofCode {c : Char} {s : Text} (h : '\n' ∉ c :: s) (hc : Text.isBlank c = false) :
    (ofCode (c :: s)).column = 0 := by
  obtain ⟨hcol, hcom⟩ := seen_of_newline_not_mem h hc
  simp only [ofCode]
  split
  · exact lastMargin_of_newline_not_mem h hc
  · simp only [hcol]
    obtain hcom | hcom := hcom <;> simp [hcom]

end Tail

end Code

end ServerPages
