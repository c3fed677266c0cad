import ServerPages.Proofs.Code.Lexemes
import ServerPages.Proofs.Code.OneLine
import Mathlib.Data.List.Find

/-!
# What lexemes look at

What begins a text is a line end, a backslash that continues the line, a comment, or code
(`lexeme_cases`), and white space is no code (`codeLexeme_of_isBlank`).

What a number, an operator or a name is, and how a string is opened, is told by what stands before
a delimiter: what follows does not matter (`numberLength_append` and the lemmas named like it). A
newline is a delimiter, so it is told by the line where it begins (`numberLength_append_line` and
the lemmas named like it).
-/

namespace ServerPages

namespace Code

variable {c q : Char} {s t a y z w u : Text} {n m : Nat} {kind : TokenKind}

theorem drop_takeWhile (p : Char → Bool) (s : Text) :
    s.drop (s.takeWhile p).length = s.dropWhile p := by
  have h : (s.takeWhile p ++ s.dropWhile p).drop (s.takeWhile p).length = s.dropWhile p :=
    List.drop_left
  rwa [List.takeWhile_append_dropWhile] at h

theorem isPad_of_dropWhile (hs : s.dropWhile isPad = c :: t) : isPad c = false := by
  have hhead := List.head?_dropWhile_not isPad s
  rwa [hs] at hhead

theorem takeWhile_append_rest (hs : s.dropWhile isPad = u) : s.takeWhile isPad ++ u = s := by
  rw [← hs, List.takeWhile_append_dropWhile]

/-- Characters that may stand behind code and go on with no token that ends there. -/
def delimiters : List Char := ['\n', ',', ')', '#', ' ', '\t', '\x0c']

/-- Whether a text goes on with no token before it: it is empty, or a delimiter comes first. -/
def IsDelimited (y : Text) : Prop := ∀ c ∈ y.head?, c ∈ delimiters

/-- What holds of each delimiter is decided by going through them. -/
theorem forall_delimiters {p : Char → Prop} [DecidablePred p]
    (h : delimiters.all (fun d => p d) = true) : ∀ d ∈ delimiters, p d := fun d hd =>
  of_decide_eq_true (List.all_eq_true.mp h d hd)

theorem isDelimited_cons (hc : c ∈ delimiters) (t : Text) : IsDelimited (c :: t) := by
  rintro d ⟨⟩
  exact hc

theorem IsDelimited.eq_nil_or_cons (hy : IsDelimited y) :
    y = [] ∨ ∃ c t, c ∈ delimiters ∧ y = c :: t := by
  cases y with
  | nil => exact .inl rfl
  | cons c t => exact .inr ⟨c, t, hy c rfl, rfl⟩

theorem isDelimited_of_newline (hy : ∀ c ∈ y.head?, c = '\n') : IsDelimited y := fun c hc =>
  hy c hc ▸ List.mem_cons_self

/-- What stands behind a line is nothing, or a newline comes first. -/
theorem eq_nil_or_newline (hy : ∀ c ∈ y.head?, c = '\n') : y = [] ∨ ∃ t, y = '\n' :: t := by
  cases y with
  | nil => exact .inl rfl
  | cons c t => exact .inr ⟨t, by rw [hy c rfl]⟩

/-! ### Kinds of lexemes -/

/-- What may stand at the end of a line before its newline: nothing, or a carriage return. -/
def IsReturn (w : Text) : Prop := w = [] ∨ w = ['\r']

theorem IsReturn.newline_not_mem {w : Text} (h : IsReturn w) : '\n' ∉ w := by
  obtain rfl | rfl := h <;> simp

/-- The lexeme of code: a number, a string, an operator or a name. -/
def codeLexeme (s : Text) : Lexeme :=
  if numberLength s ≠ 0 then .token .number (numberLength s)
  else
    match (stringOpening? s).bind (stringLexeme · s) with
    | some l => l
    | none =>
      if operatorLength s ≠ 0 then .token .operator (operatorLength s) else nameLexeme .lenient s

/-- What begins a text: a backslash that continues the line, the end of the line, a comment, or
code. -/
theorem lexeme_cases (s : Text) :
    (∃ w u, IsReturn w ∧ s = '\\' :: w ++ '\n' :: u ∧
      lexeme .lenient s = .continuation (w.length + 2)) ∨
    (∃ w u, IsReturn w ∧ s = w ++ '\n' :: u ∧ lexeme .lenient s = .lineEnd (w.length + 1)) ∨
    (∃ t, s = '#' :: t ∧ lexeme .lenient s =
      .token .comment (1 + (t.takeWhile fun c => c ≠ '\r' ∧ c ≠ '\n').length)) ∨
    (s.head? ≠ some '#' ∧ lexeme .lenient s = codeLexeme s) := by
  unfold lexeme
  split
  · next u => exact .inl ⟨[], u, .inl rfl, rfl, rfl⟩
  · next u => exact .inl ⟨['\r'], u, .inr rfl, rfl, rfl⟩
  · next u => exact .inr (.inl ⟨[], u, .inl rfl, rfl, rfl⟩)
  · next u => exact .inr (.inl ⟨['\r'], u, .inr rfl, rfl, rfl⟩)
  · next t => exact .inr (.inr (.inl ⟨t, rfl, rfl⟩))
  · next hsign =>
    refine .inr (.inr (.inr ⟨?_, ?_⟩))
    · cases s with
      | nil => simp
      | cons c t => simpa using fun hc => hsign t (by rw [hc])
    · rfl

private theorem continuedString_cases (q : Char) (n : Nat) (lines : List Text) :
    (∃ m, continuedString q n lines = .token .string m) ∨
      (∃ m, continuedString q n lines = .token .stray m) ∨
        continuedString q n lines = .fault .openString := by
  induction lines generalizing n with
  | nil => exact .inr (.inr rfl)
  | cons line lines ih =>
    rw [continuedString]
    split
    · exact .inl ⟨_, rfl⟩
    · split
      · exact ih _
      · exact .inr (.inl ⟨_, rfl⟩)

/-- A string that is opened is read as one, or as a stray, or it does not end. -/
theorem stringLexeme_cases {o : StringOpening} {l : Lexeme} (h : stringLexeme o s = some l) :
    (∃ n, l = .token .string n) ∨ (∃ n, l = .token .stray n) ∨ l = .fault .openString := by
  unfold stringLexeme at h
  dsimp only at h
  split at h
  · split at h
    · exact .inl ⟨_, (Option.some.inj h).symm⟩
    · exact .inr (.inr (Option.some.inj h).symm)
  · split at h
    · exact .inl ⟨_, (Option.some.inj h).symm⟩
    · exact Option.some.inj h ▸ continuedString_cases _ _ _
    · cases h

/-- Code neither ends a line nor begins a comment. -/
theorem codeLexeme_cases (s : Text) :
    (∃ kind n, codeLexeme s = .token kind n ∧ kind ∈ [.name, .number, .string, .operator]) ∨
      (∃ n, codeLexeme s = .token .stray n) ∨ (∃ f, codeLexeme s = .fault f) ∨
        codeLexeme s = .stray := by
  unfold codeLexeme
  split
  · exact .inl ⟨_, _, rfl, by simp⟩
  · split
    · next l hl =>
      obtain ⟨o, -, ho⟩ := Option.bind_eq_some_iff.mp hl
      obtain ⟨n, rfl⟩ | ⟨n, rfl⟩ | rfl := stringLexeme_cases ho
      · exact .inl ⟨_, _, rfl, by simp⟩
      · exact .inr (.inl ⟨n, rfl⟩)
      · exact .inr (.inr (.inl ⟨_, rfl⟩))
    · split
      · exact .inl ⟨_, _, rfl, by simp⟩
      · unfold nameLexeme
        split
        · exact .inr (.inr (.inr rfl))
        · rw [if_neg (by simp [Dialect.lenient])]
          refine .inl ⟨_, _, rfl, ?_⟩
          split <;> simp

/-- The end of a line that is read, and what stands behind it. -/
theorem eq_of_lexeme_lineEnd (h : lexeme .lenient (c :: t) = .lineEnd n) :
    ∃ w, IsReturn w ∧ c :: t.take (n - 1) = w ++ ['\n'] ∧
      c :: t = w ++ '\n' :: t.drop (n - 1) := by
  obtain ⟨w, u, -, -, hlex⟩ | ⟨w, u, hw, hs, hlex⟩ | ⟨u, -, hlex⟩ | ⟨-, hlex⟩ :=
    lexeme_cases (c :: t)
  · cases hlex.symm.trans h
  · cases hlex.symm.trans h
    obtain rfl | rfl := hw <;> cases hs <;> simp [IsReturn]
  · cases hlex.symm.trans h
  · obtain ⟨_, _, hcode, -⟩ | ⟨_, hcode⟩ | ⟨_, hcode⟩ | hcode := codeLexeme_cases (c :: t) <;>
      cases (hlex.trans hcode).symm.trans h

/-- The end of a line that is continued, and what stands behind it. -/
theorem eq_of_lexeme_continuation (h : lexeme .lenient (c :: t) = .continuation n) :
    ∃ w, IsReturn w ∧ c :: t.take (n - 1) = '\\' :: w ++ ['\n'] ∧
      c :: t = '\\' :: w ++ '\n' :: t.drop (n - 1) := by
  obtain ⟨w, u, hw, hs, hlex⟩ | ⟨w, u, -, -, hlex⟩ | ⟨u, -, hlex⟩ | ⟨-, hlex⟩ :=
    lexeme_cases (c :: t)
  · cases hlex.symm.trans h
    obtain rfl | rfl := hw <;> cases hs <;> simp [IsReturn]
  · cases hlex.symm.trans h
  · cases hlex.symm.trans h
  · obtain ⟨_, _, hcode, -⟩ | ⟨_, hcode⟩ | ⟨_, hcode⟩ | hcode := codeLexeme_cases (c :: t) <;>
      cases (hlex.trans hcode).symm.trans h

/-- A token that is read: a comment that goes up to the end of its line, or code. -/
theorem eq_of_lexeme_token (h : lexeme .lenient (c :: t) = .token kind n) :
    (kind = .comment ∧ c = '#' ∧
      t.drop (n - 1) = t.dropWhile fun c => c ≠ '\r' ∧ c ≠ '\n') ∨
    (kind ∈ [.name, .number, .string, .operator, .stray] ∧ c ≠ '#' ∧
      codeLexeme (c :: t) = .token kind n) := by
  obtain ⟨w, u, -, -, hlex⟩ | ⟨w, u, -, -, hlex⟩ | ⟨u, hs, hlex⟩ | ⟨hsign, hlex⟩ :=
    lexeme_cases (c :: t)
  · cases hlex.symm.trans h
  · cases hlex.symm.trans h
  · cases hlex.symm.trans h
    obtain ⟨rfl, rfl⟩ := List.cons.inj hs
    exact .inl ⟨rfl, rfl, by rw [Nat.add_sub_cancel_left, drop_takeWhile]⟩
  · refine .inr ⟨?_, by simpa using hsign, hlex.symm.trans h⟩
    obtain ⟨_, _, hcode, hkind⟩ | ⟨_, hcode⟩ | ⟨_, hcode⟩ | hcode := codeLexeme_cases (c :: t)
    all_goals cases (hlex.trans hcode).symm.trans h
    · exact List.mem_append_left [.stray] hkind
    · simp

/-! ### White space -/

/-- The characters of white space. -/
def blanks : List Char :=
  ['\t', '\n', '\x0b', '\x0c', '\r', '\x1c', '\x1d', '\x1e', '\x1f', ' ', '\x85', '\xa0', '\u1680',
    '\u2000', '\u2001', '\u2002', '\u2003', '\u2004', '\u2005', '\u2006', '\u2007', '\u2008',
    '\u2009', '\u200a', '\u2028', '\u2029', '\u202f', '\u205f', '\u3000']

private theorem mem_blanks (h : Text.isBlank c = true) : c ∈ blanks := by
  have hcode : c.toNat ∈ blanks.map Char.toNat := by
    simp only [Text.isBlank, Bool.or_eq_true, Bool.and_eq_true, decide_eq_true_eq, beq_iff_eq] at h
    simp [blanks]
    omega
  obtain ⟨d, hd, heq⟩ := List.mem_map.mp hcode
  rwa [← Char.toNat_inj.mp heq]

/-- Neither white space nor a backslash spells code. -/
theorem codeLexeme_of_mem (hmem : c ∈ '\\' :: blanks) : codeLexeme (c :: t) = .stray := by
  have hplain : ('\\' :: blanks).all (fun d => !Text.isPlainWord d && !Text.isWord d && d != '.' &&
      d != '"' && d != '\'' && operators.all fun op => op.head? != some d) = true := by
    decide +kernel
  have hc := List.all_eq_true.mp hplain c hmem
  simp only [Bool.and_eq_true, Bool.not_eq_true', bne_iff_ne, List.all_eq_true] at hc
  obtain ⟨⟨⟨⟨⟨hword, hname⟩, hdot⟩, hdouble⟩, hsingle⟩, hoperators⟩ := hc
  have hnumber : numberLength (c :: t) = 0 :=
    numberLength_eq_zero (isDigit_of_not_isPlainWord hword) hdot
  have hopening : stringOpening? (c :: t) = none := by
    refine stringOpening?_eq_none fun p r hpr hp q hq hquote => ?_
    cases p with
    | nil =>
      have hr : r = c :: t := by simpa using hpr.symm
      obtain rfl : c = q := by simpa [hr] using hq
      exact hquote.elim hdouble hsingle
    | cons d p =>
      obtain ⟨rfl, -⟩ := List.cons.inj hpr
      rw [hp c List.mem_cons_self] at hword
      cases hword
  have hoperator : operatorLength (c :: t) = 0 := operatorLength_eq_zero hoperators
  rw [codeLexeme, hnumber, hopening, hoperator]
  simp [nameLexeme, Dialect.lenient, hname]

theorem codeLexeme_of_isBlank (h : Text.isBlank c = true) : codeLexeme (c :: t) = .stray :=
  codeLexeme_of_mem (List.mem_cons_of_mem _ (mem_blanks h))

/-- What spells code, and no comment, is read as code. -/
theorem lexeme_eq_codeLexeme (h : codeLexeme s ≠ .stray) (hsign : s.head? ≠ some '#') :
    lexeme .lenient s = codeLexeme s := by
  obtain ⟨w, u, -, rfl, -⟩ | ⟨w, u, hw, rfl, -⟩ | ⟨u, rfl, -⟩ | ⟨-, hlex⟩ := lexeme_cases s
  · exact absurd (codeLexeme_of_mem List.mem_cons_self) h
  · refine absurd ?_ h
    obtain rfl | rfl := hw <;> exact codeLexeme_of_isBlank rfl
  · exact absurd rfl hsign
  · exact hlex

/-! ### Numbers -/

section

variable {p : Char → Bool}

private theorem digitTail_le_length (p : Char → Bool) (s : Text) : digitTail p s ≤ s.length := by
  fun_induction digitTail p s with
  | case1 => simp
  | case2 d t hd ih => simp only [List.length_cons]; omega
  | case3 => simp
  | case4 c t hc hd ih => simp only [List.length_cons]; omega
  | case5 => simp

private theorem digitRun_le_length (p : Char → Bool) (s : Text) : digitRun p s ≤ s.length := by
  cases s with
  | nil => simp [digitRun]
  | cons c s =>
    have h := digitTail_le_length p s
    rw [digitRun, List.length_cons]
    split <;> omega

private theorem exponentLength_le_length (s : Text) : exponentLength s ≤ s.length := by
  unfold exponentLength
  split
  · next c s =>
    split
    · split
      · next d t =>
        have ht := digitRun_le_length isDigit t
        have hs := digitRun_le_length isDigit (d :: t)
        simp only [List.length_cons] at hs ⊢
        split <;> split <;> omega
      · simp
    · simp
  · simp

private theorem imaginaryMark_le_length (s : Text) : imaginaryMark s ≤ s.length := by
  cases s with
  | nil => simp [imaginaryMark]
  | cons c s =>
    rw [imaginaryMark, List.length_cons]
    split <;> omega

private theorem withMark_le_length (h : n ≤ s.length) : withMark s n ≤ s.length := by
  have hmark := imaginaryMark_le_length (s.drop n)
  rw [List.length_drop] at hmark
  rw [withMark]
  omega

private theorem integerLength_le_length (s : Text) : integerLength s ≤ s.length := by
  unfold integerLength
  split
  · next b t =>
    have hhex := digitTail_le_length isHexDigit t
    have hbinary := digitTail_le_length (fun c => c = '0' || c = '1') t
    have hoctal := digitTail_le_length (fun c => '0' ≤ c && c ≤ '7') t
    have hzeros := digitRun_le_length (· = '0') ('0' :: b :: t)
    simp only [List.length_cons] at hzeros ⊢
    repeat' split
    all_goals omega
  · simp
  · exact digitRun_le_length _ _

theorem numberLength_le_length (s : Text) : numberLength s ≤ s.length := by
  have hwhole := digitRun_le_length isDigit s
  unfold numberLength
  dsimp only
  split
  · next t ht =>
    have hlength := congrArg List.length ht
    have hfraction := digitRun_le_length isDigit t
    simp only [List.length_drop, List.length_cons] at hlength
    split
    · omega
    · have hexponent := exponentLength_le_length
        (s.drop (digitRun isDigit s + 1 + digitRun isDigit t))
      rw [List.length_drop] at hexponent
      exact withMark_le_length (by omega)
  · have hexponent := exponentLength_le_length (s.drop (digitRun isDigit s))
    have hmark := imaginaryMark_le_length (s.drop (digitRun isDigit s))
    rw [List.length_drop] at hexponent hmark
    split
    · omega
    · split
      · split
        · omega
        · exact integerLength_le_length s
      · exact withMark_le_length (by omega)

private theorem digitTail_cons (hc : c ≠ '_') :
    digitTail p (c :: t) = if p c then 1 + digitTail p t else 0 := by
  rw [digitTail.eq_def]
  split
  · next h => cases h
  · next h => exact absurd (List.cons.inj h).1 hc
  · next h => rw [(List.cons.inj h).1, (List.cons.inj h).2]

variable (hy : IsDelimited y)

include hy in
private theorem digitTail_append_delimited (hp : ∀ d ∈ delimiters, p d = false) (hu : p '_' = false) :
    digitTail p (a ++ y) = digitTail p a := by
  have hunder : ∀ d ∈ delimiters, d ≠ '_' := forall_delimiters (by decide)
  have hnil : digitTail p y = 0 := by
    obtain rfl | ⟨d, y, hd, rfl⟩ := hy.eq_nil_or_cons
    · rfl
    · rw [digitTail_cons (hunder d hd), if_neg (by simp [hp d hd])]
  fun_induction digitTail p a with
  | case1 => exact hnil
  | case2 d t hd ih => simp [digitTail, hd, ih]
  | case3 d t hd => simp [digitTail, hd]
  | case4 c t hnot hc ih =>
    have hne : c ≠ '_' := by
      rintro rfl
      rw [hu] at hc
      cases hc
    rw [List.cons_append, digitTail_cons hne, if_pos hc, ih]
  | case5 c t hnot hc =>
    by_cases hne : c = '_'
    · cases t with
      | cons d t => exact absurd rfl (hnot d t hne)
      | nil =>
        obtain rfl | ⟨d, y, hd, rfl⟩ := hy.eq_nil_or_cons
        · simp [hne, digitTail, hu]
        · simp [hne, digitTail, hp d hd]
    · rw [List.cons_append, digitTail_cons hne, if_neg hc]

include hy in
private theorem digitRun_append_delimited (hp : ∀ d ∈ delimiters, p d = false) (hu : p '_' = false) :
    digitRun p (a ++ y) = digitRun p a := by
  cases a with
  | nil =>
    obtain rfl | ⟨d, y, hd, rfl⟩ := hy.eq_nil_or_cons
    · rfl
    · simp [digitRun, hp d hd]
  | cons c a => simp only [List.cons_append, digitRun, digitTail_append_delimited hy hp hu]

include hy in
private theorem exponentLength_append : exponentLength (a ++ y) = exponentLength a := by
  have hsigns : ∀ d ∈ delimiters, d ≠ 'e' ∧ d ≠ 'E' ∧ d ≠ '+' ∧ d ≠ '-' ∧ isDigit d = false :=
    forall_delimiters (by decide)
  obtain _ | ⟨c, a⟩ := a
  · obtain rfl | ⟨d, y, hd, rfl⟩ := hy.eq_nil_or_cons
    · rfl
    · simp [exponentLength, hsigns d hd]
  obtain _ | ⟨d, a⟩ := a
  · obtain rfl | ⟨d, y, hd, rfl⟩ := hy.eq_nil_or_cons
    · rfl
    · simp [exponentLength, digitRun, hsigns d hd]
  · have ht : digitRun isDigit (a ++ y) = digitRun isDigit a :=
      digitRun_append_delimited hy (forall_delimiters (by decide)) rfl
    have hs : digitRun isDigit (d :: (a ++ y)) = digitRun isDigit (d :: a) :=
      digitRun_append_delimited (a := d :: a) hy (forall_delimiters (by decide)) rfl
    simp only [List.cons_append, exponentLength, ht, hs]

include hy in
private theorem imaginaryMark_append : imaginaryMark (a ++ y) = imaginaryMark a := by
  cases a with
  | nil =>
    have hmarks : ∀ d ∈ delimiters, ¬(d = 'j' ∨ d = 'J') := forall_delimiters (by decide)
    obtain rfl | ⟨d, y, hd, rfl⟩ := hy.eq_nil_or_cons
    · rfl
    · exact if_neg (hmarks d hd)
  | cons c a => rfl

include hy in
private theorem withMark_append (hn : n ≤ a.length) : withMark (a ++ y) n = withMark a n := by
  rw [withMark, withMark, List.drop_append_of_le_length hn, imaginaryMark_append hy]

private theorem integerLength_of_ne (h : ∀ t, s ≠ '0' :: t) : integerLength s = digitRun isDigit s := by
  unfold integerLength
  split
  · exact absurd rfl (h _)
  · exact absurd rfl (h _)
  · rfl

include hy in
private theorem integerLength_append : integerLength (a ++ y) = integerLength a := by
  have hrun : digitRun isDigit (a ++ y) = digitRun isDigit a :=
    digitRun_append_delimited hy (forall_delimiters (by decide)) rfl
  by_cases hzero : ∃ t, a = '0' :: t
  · obtain ⟨t, rfl⟩ := hzero
    cases t with
    | nil =>
      have hbases : ∀ d ∈ delimiters, ¬(d = 'x' ∨ d = 'X') ∧ ¬(d = 'b' ∨ d = 'B') ∧
          ¬(d = 'o' ∨ d = 'O') ∧ d ≠ '0' ∧ d ≠ '_' := forall_delimiters (by decide)
      obtain rfl | ⟨d, y, hd, rfl⟩ := hy.eq_nil_or_cons
      · rfl
      · simp [integerLength, digitRun, digitTail, hbases d hd]
    | cons b t =>
      have htail : ∀ p : Char → Bool, (∀ d ∈ delimiters, p d = false) → p '_' = false →
          digitTail p (t ++ y) = digitTail p t := fun p => digitTail_append_delimited hy
      have hzeros :
          digitRun (· = '0') ('0' :: b :: (t ++ y)) = digitRun (· = '0') ('0' :: b :: t) :=
        digitRun_append_delimited (a := '0' :: b :: t) hy (forall_delimiters (by decide)) rfl
      simp only [List.cons_append, integerLength, hzeros]
      rw [htail isHexDigit (forall_delimiters (by decide)) rfl,
        htail _ (forall_delimiters (by decide)) rfl, htail _ (forall_delimiters (by decide)) rfl]
  · have hnot : ∀ t, a ++ y ≠ '0' :: t := by
      intro t ht
      cases a with
      | nil => exact absurd (hy '0' (by simp [show y = '0' :: t from ht])) (by decide)
      | cons c a => exact hzero ⟨a, by rw [(List.cons.inj ht).1]⟩
    rw [integerLength_of_ne hnot, integerLength_of_ne fun t ht => hzero ⟨t, ht⟩, hrun]

private theorem numberLength_of_dot (h : s.drop (digitRun isDigit s) = '.' :: t) : numberLength s =
    if digitRun isDigit s = 0 ∧ digitRun isDigit t = 0 then 0
    else
      let n := digitRun isDigit s + 1 + digitRun isDigit t
      withMark s (n + exponentLength (s.drop n)) := by
  unfold numberLength
  simp only [h]

private theorem numberLength_of_ne (h : ∀ t, s.drop (digitRun isDigit s) ≠ '.' :: t) : numberLength s =
    let rest := s.drop (digitRun isDigit s)
    if digitRun isDigit s = 0 then 0
    else if exponentLength rest = 0 then
      if imaginaryMark rest = 1 then digitRun isDigit s + 1 else integerLength s
    else withMark s (digitRun isDigit s + exponentLength rest) := by
  unfold numberLength
  dsimp only
  split
  · next ht => exact absurd ht (h _)
  · rfl

include hy in
/-- The number that begins a text does not depend on what stands behind a delimiter. -/
theorem numberLength_append : numberLength (a ++ y) = numberLength a := by
  have hrun : digitRun isDigit (a ++ y) = digitRun isDigit a :=
    digitRun_append_delimited hy (forall_delimiters (by decide)) rfl
  have hwhole : digitRun isDigit a ≤ a.length := digitRun_le_length isDigit a
  have hdrop : (a ++ y).drop (digitRun isDigit (a ++ y)) = a.drop (digitRun isDigit a) ++ y := by
    rw [hrun, List.drop_append_of_le_length hwhole]
  by_cases hdot : ∃ t, a.drop (digitRun isDigit a) = '.' :: t
  · obtain ⟨t, ht⟩ := hdot
    have hfraction : digitRun isDigit (t ++ y) = digitRun isDigit t :=
      digitRun_append_delimited hy (forall_delimiters (by decide)) rfl
    have hlength := congrArg List.length ht
    have ht' := digitRun_le_length isDigit t
    simp only [List.length_drop, List.length_cons] at hlength
    have hn : digitRun isDigit a + 1 + digitRun isDigit t ≤ a.length := by omega
    have hexponent := exponentLength_le_length
      (a.drop (digitRun isDigit a + 1 + digitRun isDigit t))
    rw [List.length_drop] at hexponent
    have hdot : (a ++ y).drop (digitRun isDigit (a ++ y)) = '.' :: (t ++ y) := by
      rw [hdrop, ht, List.cons_append]
    rw [numberLength_of_dot ht, numberLength_of_dot hdot, hrun, hfraction]
    dsimp only
    rw [List.drop_append_of_le_length hn, exponentLength_append hy, withMark_append hy (by omega)]
  · have hnot : ∀ t, (a ++ y).drop (digitRun isDigit (a ++ y)) ≠ '.' :: t := by
      intro t ht
      rw [hdrop] at ht
      cases hrest : a.drop (digitRun isDigit a) with
      | nil =>
        rw [hrest] at ht
        exact absurd (hy '.' (by simp [show y = '.' :: t from ht])) (by decide)
      | cons c rest =>
        rw [hrest] at ht
        exact hdot ⟨rest, by rw [hrest, (List.cons.inj ht).1]⟩
    have hexponent := exponentLength_le_length (a.drop (digitRun isDigit a))
    rw [List.length_drop] at hexponent
    rw [numberLength_of_ne hnot, numberLength_of_ne fun t ht => hdot ⟨t, ht⟩]
    dsimp only
    rw [hdrop, hrun, exponentLength_append hy, imaginaryMark_append hy, integerLength_append hy,
      withMark_append hy (by omega)]

/-! ### Operators, names and strings before a delimiter -/

include hy in
theorem beginsWith_append (hs : ∀ d ∈ delimiters, d ∉ s) :
    Text.beginsWith s (a ++ y) = Text.beginsWith s a := by
  rw [Bool.eq_iff_iff, Text.beginsWith_iff, Text.beginsWith_iff]
  constructor
  · rintro ⟨r, hr⟩
    obtain ⟨b, rfl, -⟩ | ⟨b, rfl, rfl⟩ := List.append_eq_append_iff.mp hr
    · exact List.prefix_append s b
    · cases b with
      | nil => simp
      | cons c b => exact absurd (by simp) (hs c (hy c rfl))
  · intro h
    exact h.trans (List.prefix_append a y)

theorem beginsWith_cons_iff {d : Char} :
    Text.beginsWith (d :: s) (c :: t) = (decide (d = c) && Text.beginsWith s t) := by
  rw [Bool.eq_iff_iff, Bool.and_eq_true, decide_eq_true_eq, Text.beginsWith_iff,
    Text.beginsWith_iff, List.cons_prefix_cons]

include hy in
/-- The operator that begins a text does not depend on what stands behind a delimiter. -/
theorem operatorLength_append (ha : a ≠ []) : operatorLength (a ++ y) = operatorLength a := by
  have htails : ∀ op ∈ operators, op ≠ [] ∧ delimiters.all (fun d => d ∉ op.tail) = true := by
    decide
  have hfind : operators.find? (fun op => Text.beginsWith op (a ++ y)) =
      operators.find? fun op => Text.beginsWith op a := by
    refine List.find?_congr fun op hop => ?_
    obtain ⟨hne, htail⟩ := htails op hop
    obtain ⟨d, op, rfl⟩ := List.exists_cons_of_ne_nil hne
    obtain ⟨c, a, rfl⟩ := List.exists_cons_of_ne_nil ha
    rw [List.tail_cons] at htail
    rw [List.cons_append, beginsWith_cons_iff, beginsWith_cons_iff,
      beginsWith_append hy (forall_delimiters htail)]
  rw [operatorLength, operatorLength, hfind]

theorem operatorLength_le_length (s : Text) : operatorLength s ≤ s.length := by
  unfold operatorLength
  split
  · next op h =>
    exact (Text.beginsWith_iff.mp (List.find?_some (p := (Text.beginsWith · s)) h)).length_le
  · exact Nat.zero_le _

include hy in
private theorem takeWhile_append_delimited (hp : ∀ d ∈ delimiters, p d = false) :
    (a ++ y).takeWhile p = a.takeWhile p := by
  induction a with
  | nil =>
    obtain rfl | ⟨d, y, hd, rfl⟩ := hy.eq_nil_or_cons
    · rfl
    · exact List.takeWhile_cons_of_neg (by simp [hp d hd])
  | cons c a ih => simp only [List.cons_append, List.takeWhile_cons, ih]

include hy in
theorem nameLexeme_append {d : Dialect} (hd : ∀ c ∈ delimiters, d.isNameChar c = false) :
    nameLexeme d (a ++ y) = nameLexeme d a := by
  simp only [nameLexeme, takeWhile_append_delimited hy hd]

include hy in
/-- How a string is opened does not depend on what stands behind a delimiter. -/
theorem stringOpening?_append : stringOpening? (a ++ y) = stringOpening? a := by
  rw [stringOpening?, stringOpening?]
  congr 1
  funext n
  by_cases hn : n ≤ a.length
  · rw [List.drop_append_of_le_length hn, List.take_append_of_le_length hn]
    cases hrest : a.drop n with
    | nil =>
      have hmarks : ∀ d ∈ delimiters, ¬(d = '"' ∨ d = '\'') := forall_delimiters (by decide)
      obtain rfl | ⟨d, y, hd, rfl⟩ := hy.eq_nil_or_cons
      · rfl
      · exact if_neg fun hq => hmarks d hd hq.1
    | cons q t =>
      rw [List.cons_append]
      by_cases hq : (q = '"' ∨ q = '\'') ∧ isStringPrefix (a.take n) = true
      · have hmarks : Text.beginsWith [q, q] (t ++ y) = Text.beginsWith [q, q] t :=
          beginsWith_append hy (forall_delimiters (by obtain ⟨rfl | rfl, -⟩ := hq <;> decide))
        simp only [if_pos hq, hmarks]
      · simp only [if_neg hq]
  · rw [List.drop_eq_nil_of_le (by omega : a.length ≤ n)]
    cases hrest : (a ++ y).drop n with
    | nil => rfl
    | cons q t =>
      -- the letters before the mark would hold the delimiter
      refine if_neg fun hq => ?_
      have hwords : ∀ d ∈ delimiters, Text.isPlainWord d = false := forall_delimiters (by decide)
      obtain rfl | ⟨d, y, hd, rfl⟩ := hy.eq_nil_or_cons
      · rw [List.append_nil, List.drop_eq_nil_of_le (by omega)] at hrest
        cases hrest
      · have hmem : d ∈ (a ++ d :: y).take n := by
          obtain ⟨k, rfl⟩ := Nat.exists_eq_add_of_lt (not_le.mp hn)
          rw [Nat.add_assoc, List.take_length_add_append]
          simp
        cases (isPlainWord_of_isStringPrefix hq.2 hmem).symm.trans (hwords d hd)

/-! ### Operators, names and strings on their line -/

section

variable (hline : ∀ c ∈ y.head?, c = '\n')
include hline

theorem takeWhile_append_line (hn : p '\n' = false) : (a ++ y).takeWhile p = a.takeWhile p := by
  induction a with
  | nil =>
    obtain rfl | ⟨y, rfl⟩ := eq_nil_or_newline hline
    · rfl
    · exact List.takeWhile_cons_of_neg (by simp [hn])
  | cons c a ih => simp only [List.cons_append, List.takeWhile_cons, ih]

/-- The number that begins a line does not depend on the next one. -/
theorem numberLength_append_line : numberLength (a ++ y) = numberLength a :=
  numberLength_append (isDelimited_of_newline hline)

theorem operatorLength_append_line : operatorLength (a ++ y) = operatorLength a := by
  obtain rfl | ha := eq_or_ne a []
  · obtain rfl | ⟨y, rfl⟩ := eq_nil_or_newline hline
    · rfl
    · exact operatorLength_eq_zero (by decide)
  · exact operatorLength_append (isDelimited_of_newline hline) ha

theorem stringOpening?_append_line : stringOpening? (a ++ y) = stringOpening? a :=
  stringOpening?_append (isDelimited_of_newline hline)

end

/-- What opens a string: letters, and a mark or three. -/
theorem eq_of_stringOpening? {o : StringOpening} (h : stringOpening? s = some o) :
    ∃ t, s.drop o.lead = o.mark :: t ∧ (o.mark = '"' ∨ o.mark = '\'') ∧
      isStringPrefix (s.take o.lead) = true ∧ o.triple = Text.beginsWith [o.mark, o.mark] t := by
  rw [stringOpening?] at h
  obtain ⟨n, -, hn⟩ := List.exists_of_findSome?_eq_some h
  split at hn
  · next q t hrest =>
    split at hn
    · next hq =>
      obtain rfl := Option.some.inj hn
      exact ⟨t, hrest, hq.1, hq.2, rfl⟩
    · cases hn
  · cases hn

theorem StringOpening.length_le {o : StringOpening} (h : stringOpening? s = some o) :
    o.length ≤ s.length := by
  obtain ⟨t, hrest, -, -, htriple⟩ := eq_of_stringOpening? h
  have hlength := congrArg List.length hrest
  rw [List.length_drop, List.length_cons] at hlength
  rw [StringOpening.length]
  split
  · next hmarks =>
    have hle := (Text.beginsWith_iff.mp (htriple.symm.trans hmarks)).length_le
    simp only [List.length_cons, List.length_nil] at hle
    omega
  · omega

end

end Code

end ServerPages
