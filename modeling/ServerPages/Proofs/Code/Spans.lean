import ServerPages.Proofs.Code.Steps
import Mathlib.Data.List.Basic

/-!
# How far lexemes reach

A lexeme other than a string ends in the line where it begins (`le_length_of_lexeme`), and what it
is depends on that line alone (`lexeme_append_line`). A string may go on over lines; it ends with its
mark and depends on the characters up to it and on no others (`lexeme_take_append`).
-/

namespace ServerPages

namespace Code

variable {c q : Char} {s t a y z w : Text} {n m : Nat} {kind : TokenKind} {o : StringOpening}

/-! ### Strings up to their end -/

private theorem beginsWith_take (hn : s.length ≤ n) (h : n ≤ t.length) (z : Text) :
    Text.beginsWith s (t.take n ++ z) = Text.beginsWith s t := by
  rw [Bool.eq_iff_iff, Text.beginsWith_iff, Text.beginsWith_iff]
  have hlength : s.length ≤ (t.take n).length := by
    rw [List.length_take]
    omega
  constructor
  · intro hs
    exact (List.prefix_of_prefix_length_le hs (List.prefix_append _ z) hlength).trans
      (List.take_prefix n t)
  · intro hs
    exact (List.prefix_of_prefix_length_le hs (List.take_prefix n t) hlength).trans
      (List.prefix_append _ z)

private theorem tripleRest_cons (hc : c ≠ '\\') : tripleRest q (c :: s) =
    if c = q ∧ Text.beginsWith [q, q] s then some 3 else (tripleRest q s).map (· + 1) := by
  rw [tripleRest.eq_def]
  simp only [if_neg hc]

private theorem le_tripleRest (h : tripleRest q s = some n) : 3 ≤ n := by
  fun_induction tripleRest q s generalizing n <;> simp_all <;> grind

private theorem suffix_take_add_one {u : Text} (h : u <:+ s.take n) : u <:+ (c :: s).take (n + 1) :=
  h.trans (List.suffix_cons _ _)

private theorem suffix_take_add_two {d : Char} {u : Text} (h : u <:+ s.take n) :
    u <:+ (c :: d :: s).take (n + 2) :=
  suffix_take_add_one (suffix_take_add_one h)

/-- The rest of a string ends with its mark and does not depend on what follows. -/
theorem tripleRest_take (h : tripleRest q s = some n) :
    n ≤ s.length ∧ [q] <:+ s.take n ∧ ∀ z, tripleRest q (s.take n ++ z) = some n := by
  fun_induction tripleRest q s generalizing n with
  | case1 => cases h
  | case2 => cases h
  | case3 d t ih =>
    obtain ⟨m, hm, rfl⟩ := Option.map_eq_some_iff.mp h
    obtain ⟨hle, hend, htake⟩ := ih hm
    exact ⟨by simpa using hle, suffix_take_add_two hend, fun z => by simp [tripleRest, htake z]⟩
  | case4 c s hc hclose =>
    obtain rfl := Option.some.inj h
    obtain ⟨r, rfl⟩ := Text.beginsWith_iff.mp hclose.2
    refine ⟨by simp, ⟨[c, q], rfl⟩, fun z => ?_⟩
    have hmarks : Text.beginsWith [q, q] ([q, q] ++ z) = true :=
      Text.beginsWith_iff.mpr (List.prefix_append _ _)
    show tripleRest q (c :: ([q, q] ++ z)) = some 3
    rw [tripleRest_cons hc, if_pos ⟨hclose.1, hmarks⟩]
  | case5 c s hc hopen ih =>
    obtain ⟨m, hm, rfl⟩ := Option.map_eq_some_iff.mp h
    obtain ⟨hle, hend, htake⟩ := ih hm
    have hthree := le_tripleRest hm
    refine ⟨by simpa using hle, suffix_take_add_one hend, fun z => ?_⟩
    rw [List.take_succ_cons, List.cons_append, tripleRest_cons hc,
      beginsWith_take (by simp; omega) hle, if_neg hopen, htake z]
    rfl

/-- The length of what is told of a string in its line. -/
def LineString.length? : LineString → Option Nat
  | .closed n => some n
  | .escaped n => some n
  | .open => none

private theorem LineString.length?_after (m : Nat) (r : LineString) :
    (r.after m).length? = r.length?.map (m + ·) := by
  cases r <;> rfl

theorem lineString_cons (hq : c ≠ q) (hn : c ≠ '\n') (hb : c ≠ '\\') :
    lineString q (c :: s) = (lineString q s).after 1 := by
  rw [lineString.eq_def]
  simp only [if_neg hq, if_neg hn, if_neg hb]

theorem lineString_escape (hq : '\\' ≠ q) (hn : c ≠ '\n') (hr : c = '\r' → s.head? ≠ some '\n') :
    lineString q ('\\' :: c :: s) = (lineString q s).after 2 := by
  rw [lineString.eq_def]
  simp only [if_neg hq, if_neg (by decide : '\\' ≠ '\n'), if_true]
  split
  · next h => exact absurd (List.cons.inj h).1 hn
  · next h => exact absurd (by rw [(List.cons.inj h).2]; rfl) (hr (List.cons.inj h).1)
  · next h => rw [(List.cons.inj h).2]
  · next h => cases h

/-- What is told of a string in its line does not depend on what follows. -/
theorem lineString_take (h : (lineString q s).length? = some n) :
    0 < n ∧ n ≤ s.length ∧ ∀ z, lineString q (s.take n ++ z) = lineString q s := by
  fun_induction lineString q s generalizing n with
  | case1 => cases h
  | case2 =>
    cases h
    refine ⟨by simp, by simp, fun z => ?_⟩
    show lineString q (q :: z) = .closed 1
    rw [lineString.eq_def]
    simp only [if_true]
  | case3 => cases h
  | case4 t hq hn =>
    cases h
    refine ⟨by simp, by simp, fun z => ?_⟩
    show lineString q ('\\' :: '\n' :: z) = .escaped 2
    rw [lineString.eq_def]
    simp only [if_neg hq, if_neg hn, if_true]
  | case5 t hq hn =>
    cases h
    refine ⟨by simp, by simp, fun z => ?_⟩
    show lineString q ('\\' :: '\r' :: '\n' :: z) = .escaped 3
    rw [lineString.eq_def]
    simp only [if_neg hq, if_neg hn, if_true]
  | case6 d t hnewline hreturn hq hn ih =>
    rw [LineString.length?_after] at h
    obtain ⟨k, hk, rfl⟩ := Option.map_eq_some_iff.mp h
    obtain ⟨hpos, hle, htake⟩ := ih hk
    refine ⟨by omega, by simp only [List.length_cons]; omega, fun z => ?_⟩
    have hhead : d = '\r' → (t.take k ++ z).head? ≠ some '\n' := by
      intro hd hhead
      obtain _ | ⟨e, t⟩ := t
      · simp at hle
        omega
      · obtain ⟨k, rfl⟩ := Nat.exists_eq_succ_of_ne_zero hpos.ne'
        have he : e = '\n' := by simpa using hhead
        exact hreturn t hd (by rw [he])
    rw [Nat.add_comm, List.take_succ_cons, List.take_succ_cons, List.cons_append, List.cons_append,
      lineString_escape hq hnewline hhead, htake z]
  | case7 => cases h
  | case8 c s hq hn hb ih =>
    rw [LineString.length?_after] at h
    obtain ⟨k, hk, rfl⟩ := Option.map_eq_some_iff.mp h
    obtain ⟨-, hle, htake⟩ := ih hk
    refine ⟨by omega, by simpa [Nat.add_comm] using hle, fun z => ?_⟩
    rw [Nat.add_comm, List.take_succ_cons, List.cons_append, lineString_cons hq hn hb, htake z]

private theorem LineString.after_eq_closed {r : LineString} (h : r.after m = .closed n) :
    ∃ k, r = .closed k ∧ n = m + k := by
  cases r <;> cases h
  exact ⟨_, rfl, rfl⟩

/-- A string that is closed in its line ends with its mark. -/
theorem suffix_of_lineString_closed (h : lineString q s = .closed n) : [q] <:+ s.take n := by
  fun_induction lineString q s generalizing n with
  | case2 => cases h; exact List.suffix_rfl
  | case6 d t _ _ _ _ ih =>
    obtain ⟨k, hk, rfl⟩ := LineString.after_eq_closed h
    rw [Nat.add_comm]
    exact suffix_take_add_two (ih hk)
  | case8 c s _ _ _ ih =>
    obtain ⟨k, hk, rfl⟩ := LineString.after_eq_closed h
    rw [Nat.add_comm]
    exact suffix_take_add_one (ih hk)
  | case1 | case3 | case4 | case5 | case7 => cases h

private theorem closingIn_cons (hq : c ≠ q) (hb : c ≠ '\\') :
    closingIn q (c :: s) = (closingIn q s).map (· + 1) := by
  rw [closingIn.eq_def]
  simp only [if_neg hq, if_neg hb]

/-- A string that is closed in a line ends with its mark and does not depend on what follows. -/
theorem closingIn_take (h : closingIn q s = some n) :
    n ≤ s.length ∧ [q] <:+ s.take n ∧ ∀ z, closingIn q (s.take n ++ z) = some n := by
  fun_induction closingIn q s generalizing n with
  | case1 => cases h
  | case2 =>
    cases h
    refine ⟨by simp, List.suffix_rfl, fun z => ?_⟩
    show closingIn q (q :: z) = some 1
    rw [closingIn.eq_def]
    simp only [if_true]
  | case3 => cases h
  | case4 => cases h
  | case5 d t hq hd ih =>
    obtain ⟨k, hk, rfl⟩ := Option.map_eq_some_iff.mp h
    obtain ⟨hle, hend, htake⟩ := ih hk
    refine ⟨by simpa using hle, suffix_take_add_two hend, fun z => ?_⟩
    rw [List.take_succ_cons, List.take_succ_cons, List.cons_append, List.cons_append,
      closingIn.eq_def]
    simp only [if_neg hq, if_neg hd, if_true, htake z]
    rfl
  | case6 c s hq hb ih =>
    obtain ⟨k, hk, rfl⟩ := Option.map_eq_some_iff.mp h
    obtain ⟨hle, hend, htake⟩ := ih hk
    refine ⟨by simpa using hle, suffix_take_add_one hend, fun z => ?_⟩
    rw [List.take_succ_cons, List.cons_append, closingIn_cons hq hb, htake z]
    rfl

/-! ### Lines of strings -/

private theorem lines_append_cons (hs : '\n' ∉ s) (t : Text) :
    Text.lines (s ++ '\n' :: t) = (s ++ ['\n']) :: Text.lines t := by
  induction s with
  | nil => simp [Text.lines]
  | cons c s ih =>
    rw [List.mem_cons, not_or] at hs
    rw [List.cons_append, Text.lines, if_neg (Ne.symm hs.1), ih hs.2]
    rfl

private theorem lines_of_not_mem (hne : s ≠ []) (hs : '\n' ∉ s) : Text.lines s = [s] := by
  induction s with
  | nil => exact absurd rfl hne
  | cons c s ih =>
    rw [List.mem_cons, not_or] at hs
    rw [Text.lines, if_neg (Ne.symm hs.1)]
    cases s with
    | nil => rfl
    | cons d s => rw [ih (by simp) hs.2]

/-- The first line of a text that begins with part of a line. -/
theorem exists_lines_append (hne : s ≠ []) (hs : '\n' ∉ s) (t : Text) :
    ∃ r rest, Text.lines (s ++ t) = (s ++ r) :: rest := by
  obtain ⟨line, u, rest, rfl, hline, hends⟩ := exists_line t
  have hall : '\n' ∉ s ++ line := by simp [hs, hline]
  rw [← List.append_assoc]
  cases hends with
  | eof => exact ⟨line, [], by rw [List.append_nil, lines_of_not_mem (by simp [hne]) hall]⟩
  | newline => exact ⟨line ++ ['\n'], Text.lines rest, by
      rw [lines_append_cons hall, List.append_assoc]⟩

private theorem closingIn_append_newline (hq : q ≠ '\n') (s : Text) :
    closingIn q (s ++ ['\n']) = closingIn q s := by
  fun_induction closingIn q s with
  | case1 => simp [closingIn, hq.symm]
  | case2 => rw [List.cons_append, closingIn.eq_def]; simp only [if_true]
  | case3 hb => rw [List.cons_append, closingIn.eq_def]; simp [hb]
  | case4 t hb => rw [List.cons_append, List.cons_append, closingIn.eq_def]; simp [hb]
  | case5 d t hb hd ih =>
    rw [List.cons_append, List.cons_append, closingIn.eq_def]
    simp only [if_neg hb, if_neg hd, if_true, ih]
  | case6 c t hc hb ih => rw [List.cons_append, closingIn_cons hc hb, ih]

/-- A string that is closed in the line at hand. -/
theorem continuedString_take_closing {line u : Text} {k : Nat} (hline : '\n' ∉ line)
    (h : closingIn q line = some k) (m : Nat) :
    k ≤ (line ++ u).length ∧ [q] <:+ (line ++ u).take k ∧ ∀ z,
      continuedString q m (Text.lines ((line ++ u).take k ++ z)) = .token .string (m + k) := by
  obtain ⟨hle, hend, htake⟩ := closingIn_take h
  rw [List.take_append_of_le_length hle, List.length_append]
  refine ⟨by omega, hend, fun z => ?_⟩
  have hne : line.take k ≠ [] := List.ne_nil_of_mem (hend.mem (List.mem_singleton.mpr rfl))
  obtain ⟨r, rest, hlines⟩ := exists_lines_append hne (fun hc => hline (List.mem_of_mem_take hc)) z
  rw [hlines, continuedString, htake r]

/-- A string that goes on over lines ends with its mark and does not depend on what follows it. -/
theorem continuedString_take (hq : q ≠ '\n')
    (h : continuedString q m (Text.lines s) = .token .string n) :
    ∃ k, n = m + k ∧ k ≤ s.length ∧ [q] <:+ s.take k ∧
      ∀ z, continuedString q m (Text.lines (s.take k ++ z)) = .token .string n := by
  -- line by line: only a line that ends with a backslash leads to the next one
  induction hlength : s.length using Nat.strong_induction_on generalizing s m with
  | _ length ih =>
    obtain ⟨line, u, rest, rfl, hline, hends⟩ := exists_line s
    cases hends with
    | eof =>
      rw [List.append_nil] at h
      by_cases hempty : line = []
      · rw [hempty] at h
        cases h
      rw [lines_of_not_mem hempty hline, continuedString] at h
      split at h
      · next k hk =>
        cases h
        exact ⟨k, rfl, hlength ▸ continuedString_take_closing (u := []) hline hk m⟩
      · split at h <;> cases h
    | newline =>
      rw [lines_append_cons hline, continuedString, closingIn_append_newline hq] at h
      split at h
      · next k hk =>
        cases h
        exact ⟨k, rfl, hlength ▸ continuedString_take_closing (u := '\n' :: rest) hline hk m⟩
      · next hk =>
        split at h
        · next hescaped =>
          have hlt : rest.length < length := by
            rw [← hlength, List.length_append, List.length_cons]
            omega
          obtain ⟨k, rfl, hle, hend, htake⟩ := ih rest.length hlt h rfl
          have hsplit : (line ++ '\n' :: rest).take ((line ++ ['\n']).length + k) =
              (line ++ ['\n']) ++ rest.take k := by
            have hcons : line ++ '\n' :: rest = (line ++ ['\n']) ++ rest := by simp
            rw [hcons, List.take_length_add_append]
          refine ⟨(line ++ ['\n']).length + k, by omega, ?_, ?_, fun z => ?_⟩
          · simp at hlength ⊢
            omega
          · rw [hsplit]
            exact hend.trans (List.suffix_append _ _)
          · rw [hsplit, List.append_assoc, List.append_assoc, List.singleton_append,
              lines_append_cons hline, continuedString, closingIn_append_newline hq, hk]
            dsimp only
            rw [if_pos hescaped, htake z]
        · cases h

/-- A string ends with its mark and does not depend on what follows it. -/
theorem stringLexeme_take (ho : o.length ≤ s.length) (hmark : o.mark ≠ '\n')
    (h : stringLexeme o s = some (.token .string n)) :
    n ≤ s.length ∧ [o.mark] <:+ s.take n ∧
      ∀ z, stringLexeme o (s.take n ++ z) = some (.token .string n) := by
  have hsuffix : ∀ k, [o.mark] <:+ (s.drop o.length).take k →
      [o.mark] <:+ s.take (o.length + k) := by
    intro k hk
    rw [List.take_add]
    exact hk.trans (List.suffix_append _ _)
  have hdrop : ∀ k ≤ (s.drop o.length).length, ∀ z,
      (s.take (o.length + k) ++ z).drop o.length = (s.drop o.length).take k ++ z := by
    intro k hk z
    rw [List.length_drop] at hk
    rw [List.drop_append_of_le_length (by rw [List.length_take]; omega), List.drop_take,
      Nat.add_sub_cancel_left]
  have hlength : (s.drop o.length).length = s.length - o.length := List.length_drop
  simp only [stringLexeme] at h ⊢
  split at h
  · next htriple =>
    split at h
    · next k hk =>
      cases h
      obtain ⟨hle, hend, htake⟩ := tripleRest_take hk
      refine ⟨by omega, hsuffix k hend, fun z => ?_⟩
      rw [hdrop k hle z, htake z, if_pos htriple]
    · cases h
  · next htriple =>
    split at h
    · next k hk =>
      cases h
      obtain ⟨-, hle, htake⟩ := lineString_take (congrArg LineString.length? hk)
      refine ⟨by omega, hsuffix k (suffix_of_lineString_closed hk), fun z => ?_⟩
      rw [hdrop k hle z, htake z, hk, if_neg htriple]
    -- the first line ends behind a backslash, and the string goes on over others
    · next k hk =>
      obtain ⟨-, hle, htake⟩ := lineString_take (congrArg LineString.length? hk)
      obtain ⟨j, rfl, hjle, hend, hjtake⟩ := continuedString_take hmark (Option.some.inj h)
      rw [List.length_drop] at hjle
      have hend' : [o.mark] <:+ (s.drop o.length).take (k + j) := by
        rw [List.take_add]
        exact hend.trans (List.suffix_append _ _)
      rw [Nat.add_assoc]
      refine ⟨by omega, hsuffix (k + j) hend', fun z => ?_⟩
      have hbody : (s.drop o.length).take (k + j) ++ z =
          (s.drop o.length).take k ++ (((s.drop o.length).drop k).take j ++ z) := by
        rw [List.take_add, List.append_assoc]
      rw [hdrop (k + j) (by omega) z, hbody, htake, hk, if_neg htriple]
      dsimp only
      rw [List.drop_left' (by rw [List.length_take]; omega), hjtake z, Nat.add_assoc]
    · cases h

private theorem operatorLength_quote (hq : q = '"' ∨ q = '\'') : operatorLength (q :: t) = 0 := by
  have hfirst : ∀ op ∈ operators, op.head? ≠ some '"' ∧ op.head? ≠ some '\'' := by decide
  refine operatorLength_eq_zero fun op hop => ?_
  obtain rfl | rfl := hq
  · exact (hfirst op hop).1
  · exact (hfirst op hop).2

/-- A string that is opened on a line and neither closed nor continued there is no string: its mark
is a stray. -/
theorem codeLexeme_drop_lead (ho : stringOpening? s = some o)
    (h : stringLexeme o s = none) :
    ∃ t, s.drop o.lead = o.mark :: t ∧ codeLexeme (o.mark :: t) = .stray := by
  obtain ⟨t, hrest, hmark, -, htriple⟩ := eq_of_stringOpening? ho
  have hsingle : o.triple = false := by
    by_contra htrue
    rw [Bool.not_eq_false] at htrue
    simp only [stringLexeme, htrue, if_true] at h
    split at h <;> cases h
  have hopen : lineString o.mark t = .open := by
    have hbody : s.drop o.length = t := by
      have hlength : o.length = o.lead + 1 := by simp [StringOpening.length, hsingle]
      rw [hlength, ← List.drop_drop, hrest]
      rfl
    simp only [stringLexeme, hsingle, hbody, Bool.false_eq_true, if_false] at h
    split at h <;> simp_all
  refine ⟨t, hrest, ?_⟩
  have hnumber : numberLength (o.mark :: t) = 0 :=
    numberLength_eq_zero (isDigit_of_not_isPlainWord (isPlainWord_quote hmark))
      (by obtain hq | hq := hmark <;> simp [hq])
  have hword : Text.isWord o.mark = false := by
    obtain hq | hq := hmark <;> rw [hq] <;> rfl
  have hstring : stringLexeme ⟨0, o.mark, false⟩ (o.mark :: t) = none := by
    simp [stringLexeme, StringOpening.length, hopen]
  rw [codeLexeme, hnumber, stringOpening?_quote hmark, Option.bind_some, ← htriple, hsingle,
    hstring, operatorLength_quote hmark]
  simp [nameLexeme, Dialect.lenient, hword]

private theorem isWord_of_isPlainWord (h : Text.isPlainWord c = true) : Text.isWord c = true := by
  have hlow : c.toNat < 0x80 := by
    simp only [Text.isPlainWord, Bool.or_eq_true, Bool.and_eq_true, decide_eq_true_eq,
      beq_iff_eq] at h
    rcases h with ((⟨-, h⟩ | ⟨-, h⟩) | rfl) | ⟨-, h⟩
    · exact Nat.lt_of_le_of_lt (show c.toNat ≤ _ from h) (by decide)
    · exact Nat.lt_of_le_of_lt (show c.toNat ≤ _ from h) (by decide)
    · decide
    · exact Nat.lt_of_le_of_lt (show c.toNat ≤ _ from h) (by decide)
  rw [Text.isWord, if_pos hlow, h]

/-- What a token is that is no number and no string. -/
theorem codeLexeme_of_not_string (hnumber : numberLength s = 0)
    (hstring : (stringOpening? s).bind (stringLexeme · s) = none) : codeLexeme s =
      if operatorLength s ≠ 0 then .token .operator (operatorLength s)
      else nameLexeme .lenient s := by
  rw [codeLexeme, hnumber, hstring]
  simp

/-! ### Lexemes of code -/

/-- No number begins as a string does. -/
theorem numberLength_of_stringOpening? (h : stringOpening? s = some o) : numberLength s = 0 := by
  obtain ⟨t, hrest, hmark, hlead, -⟩ := eq_of_stringOpening? h
  cases s with
  | nil => rw [List.drop_nil] at hrest; cases hrest
  | cons c s =>
    suffices hc : isDigit c = false ∧ c ≠ '.' from numberLength_eq_zero hc.1 hc.2
    cases hn : o.lead with
    | zero =>
      rw [hn] at hrest
      obtain ⟨rfl, -⟩ := List.cons.inj hrest
      obtain hq | hq := hmark <;> rw [hq] <;> exact ⟨rfl, by decide⟩
    | succ n =>
      have hletters : ["", "b", "r", "u", "f", "br", "rb", "fr", "rf"].all
          (fun w => w.toList.all fun c => !isDigit c && c != '.') = true := by decide
      rw [hn, List.take_succ_cons, isStringPrefix, List.any_eq_true] at hlead
      obtain ⟨w, hw, heq⟩ := hlead
      have hlower : c.toLower ∈ w.toList := by simp [← of_decide_eq_true heq]
      have hc := List.all_eq_true.mp (List.all_eq_true.mp hletters w hw) _ hlower
      simp only [Bool.and_eq_true, Bool.not_eq_true', bne_iff_ne, ne_eq] at hc
      by_cases hupper : c.val ≥ 'A'.val ∧ c.val ≤ 'Z'.val
      · have hrange : 'A' ≤ c ∧ c ≤ 'Z' := hupper
        refine ⟨?_, fun hdot => absurd (hdot ▸ hrange.1) (by decide)⟩
        have hdigit : ¬c ≤ '9' := fun hle => absurd (Char.le_trans hrange.1 hle) (by decide)
        simp [isDigit, hdigit]
      · have hsame : c.toLower = c := dif_neg hupper
        rwa [hsame] at hc

/-- Letters before a mark that opens no string are read as a name, and the mark spells nothing. -/
theorem exists_letters (hnumber : numberLength s = 0) (hopening : stringOpening? s = some o)
    (hstring : stringLexeme o s = none) (h : codeLexeme s = .token kind n) :
    ∃ q t, n = (s.takeWhile Text.isWord).length ∧ s.drop n = q :: t ∧ (q = '"' ∨ q = '\'') ∧
      codeLexeme (q :: t) = .stray := by
  obtain ⟨t, hrest, hmark, hlead, -⟩ := eq_of_stringOpening? hopening
  obtain ⟨t', hrest', hstray⟩ := codeLexeme_drop_lead hopening hstring
  obtain rfl : t = t' := (List.cons.inj (hrest.symm.trans hrest')).2
  have hsplit : s = s.take o.lead ++ o.mark :: t := by rw [← hrest, List.take_append_drop]
  have hletters : ∀ c ∈ s.take o.lead, Text.isPlainWord c = true :=
    fun c => isPlainWord_of_isStringPrefix hlead
  have hword : Text.isWord o.mark = false := by
    obtain hq | hq := hmark <;> rw [hq] <;> rfl
  have hlength : (s.take o.lead).length = o.lead := by
    have hpos := congrArg List.length hrest
    rw [List.length_drop, List.length_cons] at hpos
    rw [List.length_take]
    omega
  have htake : s.takeWhile Text.isWord = s.take o.lead := by
    conv_lhs => rw [hsplit]
    rw [List.takeWhile_append_of_pos fun c hc => isWord_of_isPlainWord (hletters c hc),
      List.takeWhile_cons_of_neg (by simp [hword]), List.append_nil]
  have hoperator : operatorLength s = 0 := by
    rw [hsplit]
    cases hcases : s.take o.lead with
    | nil => exact operatorLength_quote hmark
    | cons c u => exact operatorLength_of_isPlainWord (hletters c (by simp [hcases]))
  rw [codeLexeme_of_not_string hnumber (by simp [hopening, hstring]),
    if_neg (not_not.mpr hoperator), nameLexeme] at h
  have hn : n = o.lead := by
    simp only [Dialect.lenient] at h
    rw [htake] at h
    rw [← hlength]
    split at h
    · cases h
    · next heq =>
      cases h
      simp [heq]
  exact ⟨o.mark, t, by rw [hn, htake, hlength], hn ▸ hrest, hmark, hstray⟩

/-- A token of code: a number, a string, letters before a mark that opens no string, or an operator
or a name on a line that opens none. -/
theorem codeLexeme_token_cases (h : codeLexeme s = .token kind n) (hkind : kind ≠ .stray) :
    (kind = .number ∧ numberLength s = n ∧ n ≠ 0) ∨
    (∃ o, kind = .string ∧ stringOpening? s = some o ∧
      stringLexeme o s = some (.token .string n)) ∨
    (∃ q t, n = (s.takeWhile Text.isWord).length ∧ s.drop n = q :: t ∧ (q = '"' ∨ q = '\'') ∧
      codeLexeme (q :: t) = .stray) ∨
    (numberLength s = 0 ∧ stringOpening? s = none ∧
      (kind = .operator ∧ operatorLength s = n ∧ n ≠ 0 ∨
        operatorLength s = 0 ∧ nameLexeme .lenient s = .token kind n)) := by
  by_cases hnumber : numberLength s = 0
  · cases hopening : stringOpening? s with
    | none =>
      refine .inr (.inr (.inr ⟨hnumber, rfl, ?_⟩))
      rw [codeLexeme_of_not_string hnumber (by rw [hopening]; rfl)] at h
      split at h
      · next hop =>
        cases h
        exact .inl ⟨rfl, rfl, hop⟩
      · next hop => exact .inr ⟨not_not.mp hop, h⟩
    | some o =>
      cases hstring : stringLexeme o s with
      | some l =>
        have hl : codeLexeme s = l := by simp [codeLexeme, hnumber, hopening, hstring]
        obtain ⟨m, rfl⟩ | ⟨m, rfl⟩ | rfl := stringLexeme_cases hstring
        · cases hl.symm.trans h
          exact .inr (.inl ⟨o, rfl, rfl, hstring⟩)
        · cases hl.symm.trans h
          exact absurd rfl hkind
        · cases hl.symm.trans h
      | none => exact .inr (.inr (.inl (exists_letters hnumber hopening hstring h)))
  · simp only [codeLexeme, ne_eq, hnumber, not_false_eq_true, if_true] at h
    cases h
    exact .inl ⟨rfl, rfl, hnumber⟩

/-- A token of code is what it is whatever stands behind a delimiter, unless the mark of a string
without an end stands behind the token. -/
theorem codeLexeme_append (hy : IsDelimited y) (hz : IsDelimited z) (ha : a ≠ [])
    (h : codeLexeme (a ++ y) = .token kind n) (hkind : kind ≠ .stray) (hn : n ≤ a.length)
    (hnext : ∀ q t, (q = '"' ∨ q = '\'') → (a ++ y).drop n = q :: t →
      codeLexeme (q :: t) ≠ .stray) : codeLexeme (a ++ z) = .token kind n := by
  have hname : ∀ d ∈ delimiters, Dialect.lenient.isNameChar d = false :=
    forall_delimiters (by decide)
  obtain ⟨rfl, hlength, hpos⟩ | ⟨o, rfl, ho, hstring⟩ | ⟨q, t, -, hdrop, hq, hstray⟩ |
    ⟨hzero, hnone, hother⟩ := codeLexeme_token_cases h hkind
  · rw [numberLength_append hy] at hlength
    simp [codeLexeme, numberLength_append hz, hlength, hpos]
  · obtain ⟨t, -, hmark, -⟩ := eq_of_stringOpening? ho
    have hnewline : o.mark ≠ '\n' := by obtain hq | hq := hmark <;> simp [hq]
    obtain ⟨-, -, htake⟩ := stringLexeme_take (StringOpening.length_le ho) hnewline hstring
    have hsame := htake (a.drop n ++ z)
    rw [List.take_append_of_le_length hn, ← List.append_assoc, List.take_append_drop] at hsame
    rw [stringOpening?_append hy, ← stringOpening?_append hz] at ho
    simp [codeLexeme, numberLength_of_stringOpening? ho, ho, hsame]
  · -- a name is cut before the mark of a string without an end, which is then a stray
    exact absurd hstray (hnext q t hq hdrop)
  · rw [numberLength_append hy] at hzero
    rw [stringOpening?_append hy] at hnone
    rw [operatorLength_append hy ha, nameLexeme_append hy hname] at hother
    rw [codeLexeme_of_not_string (by rw [numberLength_append hz, hzero])
      (by rw [stringOpening?_append hz, hnone]; rfl), operatorLength_append hz ha,
      nameLexeme_append hz hname]
    obtain ⟨rfl, rfl, hpos⟩ | ⟨hzero, hname⟩ := hother
    · exact if_pos hpos
    · rw [if_neg (not_not.mpr hzero), hname]

/-! ### Lexemes and lines -/

theorem lexeme_comment (t : Text) : lexeme .lenient ('#' :: t) =
    .token .comment (1 + (t.takeWhile fun c => c ≠ '\r' ∧ c ≠ '\n').length) := rfl

theorem lexeme_token_cases (h : lexeme .lenient s = .token kind n) :
    (kind = .comment ∧ s.head? = some '#') ∨
      (s.head? ≠ some '#' ∧ codeLexeme s = .token kind n) := by
  cases s with
  | nil => exact .inr ⟨by simp, h⟩
  | cons c t =>
    obtain ⟨hk, rfl, -⟩ | ⟨-, hc, hcode⟩ := eq_of_lexeme_token h
    · exact .inl ⟨hk, rfl⟩
    · exact .inr ⟨by simpa using hc, hcode⟩

section

variable (hy : ∀ c ∈ y.head?, c = '\n') (ha : a ≠ [])
  (h : lexeme .lenient (a ++ y) = .token kind n) (hkind : kind ≠ .stray)

include hy in
private theorem length_takeWhile_append_line {p : Char → Bool} (hn : p '\n' = false) :
    ((a ++ y).takeWhile p).length ≤ a.length := by
  rw [takeWhile_append_line hy hn]
  exact (List.takeWhile_prefix p).length_le

private theorem nameLexeme_length (h : nameLexeme .lenient s = .token kind n) :
    n = (s.takeWhile Text.isWord).length := by
  rw [nameLexeme] at h
  simp only [Dialect.lenient] at h
  split at h
  · cases h
  · next heq =>
    cases h
    simp [heq]

include hy ha h hkind in
/-- No token but a string goes beyond its line. -/
theorem le_length_of_lexeme (hstring : kind ≠ .string) : n ≤ a.length := by
  obtain ⟨-, hsign⟩ | ⟨-, hcode⟩ := lexeme_token_cases h
  · obtain ⟨c, b, rfl⟩ := List.exists_cons_of_ne_nil ha
    obtain rfl : c = '#' := by simpa using hsign
    have hline : ((b ++ y).takeWhile fun c => c ≠ '\r' ∧ c ≠ '\n').length ≤ b.length :=
      length_takeWhile_append_line hy (by decide)
    rw [List.cons_append, lexeme_comment] at h
    cases h
    rw [List.length_cons]
    omega
  · obtain ⟨-, rfl, -⟩ | ⟨o, hk, -⟩ | ⟨q, t, rfl, -⟩ | ⟨-, -, ⟨-, rfl, -⟩ | ⟨-, hname⟩⟩ :=
      codeLexeme_token_cases hcode hkind
    · rw [numberLength_append_line hy]
      exact numberLength_le_length a
    · exact absurd hk hstring
    · exact length_takeWhile_append_line hy (by decide)
    · rw [operatorLength_append_line hy]
      exact operatorLength_le_length a
    · rw [nameLexeme_length hname]
      exact length_takeWhile_append_line hy (by decide)

include hy ha h hkind in
/-- A token that ends in its line is what it is whatever the next line holds, unless the mark of a
string without an end stands behind it. -/
theorem lexeme_append_line (hn : n ≤ a.length)
    (hnext : ∀ q t, (q = '"' ∨ q = '\'') → (a ++ y).drop n = q :: t →
      lexeme .lenient (q :: t) ≠ .stray)
    (hz : ∀ c ∈ z.head?, c = '\n') : lexeme .lenient (a ++ z) = .token kind n := by
  obtain ⟨-, hsign⟩ | ⟨hsign, hcode⟩ := lexeme_token_cases h
  · obtain ⟨c, b, rfl⟩ := List.exists_cons_of_ne_nil ha
    obtain rfl : c = '#' := by simpa using hsign
    rw [List.cons_append, lexeme_comment, takeWhile_append_line hz (by decide),
      ← takeWhile_append_line hy (by decide), ← lexeme_comment]
    exact h
  · have hhead : (a ++ z).head? ≠ some '#' := by
      rwa [List.head?_append_of_ne_nil _ ha] at hsign ⊢
    have hcode' : codeLexeme (a ++ z) = .token kind n := by
      refine codeLexeme_append (isDelimited_of_newline hy) (isDelimited_of_newline hz) ha hcode
        hkind hn fun q t hq hdrop hstray => hnext q t hq hdrop ?_
      obtain rfl | rfl := hq <;> exact hstray
    exact (lexeme_eq_codeLexeme (by simp [hcode']) hhead).trans hcode'

include hy ha in
/-- A string that goes beyond its line ends with its mark, and is what it is whatever follows. -/
theorem lexeme_take_append (h : lexeme .lenient (a ++ y) = .token .string n) (hn : a.length < n) :
    n ≤ (a ++ y).length ∧ (∃ q, (q = '"' ∨ q = '\'') ∧ [q] <:+ (a ++ y).take n) ∧
      ∀ w, lexeme .lenient ((a ++ y).take n ++ w) = .token .string n := by
  obtain ⟨hk, -⟩ | ⟨hsign, hcode⟩ := lexeme_token_cases h
  · cases hk
  obtain ⟨hk, -⟩ | ⟨o, -, ho, hstring⟩ | ⟨q, t, hlength, -⟩ | ⟨-, -, ⟨hk, -⟩ | ⟨-, hname⟩⟩ :=
    codeLexeme_token_cases hcode (by decide)
  · cases hk
  · obtain ⟨t, -, hmark, -⟩ := eq_of_stringOpening? ho
    have hnewline : o.mark ≠ '\n' := by obtain hq | hq := hmark <;> simp [hq]
    obtain ⟨hle, hend, htake⟩ := stringLexeme_take (StringOpening.length_le ho) hnewline hstring
    refine ⟨hle, ⟨o.mark, hmark, hend⟩, fun w => ?_⟩
    -- what is kept of the next line begins with the newline before it
    have hsplit : (a ++ y).take n ++ w = a ++ (y.take (n - a.length) ++ w) := by
      rw [List.take_append, List.take_of_length_le (by omega), List.append_assoc]
    have hline : ∀ c ∈ (y.take (n - a.length) ++ w).head?, c = '\n' := by
      cases y with
      | nil => simp at hle; omega
      | cons c y =>
        obtain ⟨k, hk⟩ := Nat.exists_eq_add_of_lt hn
        rw [show n - a.length = k + 1 by omega]
        simpa using hy c rfl
    rw [stringOpening?_append_line hy, ← stringOpening?_append_line hline, ← hsplit] at ho
    have hcode' : codeLexeme ((a ++ y).take n ++ w) = .token .string n := by
      simp [codeLexeme, numberLength_of_stringOpening? ho, ho, htake w]
    have hhead : ((a ++ y).take n ++ w).head? ≠ some '#' := by
      rw [List.head?_append_of_ne_nil _ ha] at hsign
      rwa [hsplit, List.head?_append_of_ne_nil _ ha]
    exact (lexeme_eq_codeLexeme (by simp [hcode']) hhead).trans hcode'
  · have hle : ((a ++ y).takeWhile Text.isWord).length ≤ a.length :=
      length_takeWhile_append_line hy (by decide)
    omega
  · cases hk
  · have hle : ((a ++ y).takeWhile Text.isWord).length ≤ a.length :=
      length_takeWhile_append_line hy (by decide)
    rw [← nameLexeme_length hname] at hle
    omega

end

end Code

end ServerPages
