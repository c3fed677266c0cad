import ServerPages.Proofs.Code.Edge.Reading
import ServerPages.Proofs.Code.Spans

/-!
# Code before a delimiter

Code of one line that is read without fault before closing brackets is a run of tokens: it is read
as these tokens whatever delimiter stands behind it (`exists_runs`), as far as its brackets may stand
where it stands (`alike_scan_of_runs`, `fault_of_runs`).
-/

namespace ServerPages

namespace Code

variable {c q : Char} {s t x y z : Text} {k m n : Nat} {kind : TokenKind} {o : StringOpening}
  {st st' : LexState} {ps qs : List Token}

/-! ### Strings before closing brackets -/

/-- Round brackets that close, and the end of the line. -/
def closers (k : Nat) : Text := List.replicate (k + 1) ')' ++ ['\n']

theorem isDelimited_closers (k : Nat) : IsDelimited (closers k) :=
  isDelimited_cons (by decide) _

private theorem mem_closers (h : c ∈ closers k) : c = ')' ∨ c = '\n' := by
  obtain h | h := List.mem_append.mp h
  · exact .inl (List.eq_of_mem_replicate h)
  · exact .inr (List.mem_singleton.mp h)

/-- Where no backslash stands before it, the end of the line tells nothing of a string. -/
theorem lineString_append_newline (hq : q ≠ '\n') (hn : '\n' ∉ s) (hr : '\r' ∉ s)
    (hlast : s.getLast? ≠ some '\\') : lineString q (s ++ ['\n']) = lineString q s := by
  fun_induction lineString q s with
  | case1 => simp [lineString, hq.symm]
  | case2 t =>
    show lineString q (q :: (t ++ ['\n'])) = .closed 1
    rw [lineString.eq_def]
    simp only [if_true]
  | case3 => simp at hn
  | case4 => simp at hn
  | case5 => simp at hn
  | case6 d t hnewline hreturn hmark hne ih =>
    simp only [List.mem_cons, not_or] at hn hr
    have htail : t.getLast? ≠ some '\\' := by
      cases t with
      | nil => simp
      | cons e t => simpa [List.getLast?_cons_cons] using hlast
    rw [List.cons_append, List.cons_append, lineString_escape hmark (Ne.symm hn.2.1)
      (fun hd => absurd hd.symm hr.2.1), ih hn.2.2 hr.2.2 htail]
  | case7 => simp at hlast
  | case8 c t hmark hne hb ih =>
    simp only [List.mem_cons, not_or] at hn hr
    have htail : t.getLast? ≠ some '\\' := by
      cases t with
      | nil => simp
      | cons e t => simpa [List.getLast?_cons_cons] using hlast
    rw [List.cons_append, lineString_cons hmark hne hb, ih hn.2 hr.2 htail]

/-- The last bracket is no backslash, so no string goes on behind the end of the line. -/
theorem lineString_closers (hx : ∀ c ∈ x, isInLine c = true) (hq : q ≠ '\n') (k m : Nat) :
    lineString q (x ++ closers k) ≠ .escaped m := by
  have hmem : ∀ d ∈ x ++ List.replicate (k + 1) ')', isInLine d = true := by
    intro d hd
    obtain hd | hd := List.mem_append.mp hd
    · exact hx d hd
    · rw [List.eq_of_mem_replicate hd]
      rfl
  have hn : '\n' ∉ x ++ List.replicate (k + 1) ')' := fun h => absurd (hmem '\n' h) (by decide)
  have hr : '\r' ∉ x ++ List.replicate (k + 1) ')' := fun h => absurd (hmem '\r' h) (by decide)
  rw [closers, ← List.append_assoc, lineString_append_newline hq hn hr]
  · exact lineString_ne_escaped q hn m
  · rw [List.getLast?_append_of_ne_nil _ (by simp), List.getLast?_replicate]
    simp

/-- A part of a text that ends with what does not stand behind a place ends before it. -/
theorem le_of_suffix_take (hq : q ∉ y) (hn : n ≤ (x ++ y).length)
    (h : [q] <:+ (x ++ y).take n) : n ≤ x.length := by
  by_contra hlt
  obtain ⟨k, rfl⟩ := Nat.exists_eq_add_of_lt (not_le.mp hlt)
  rw [Nat.add_assoc, List.take_length_add_append] at h
  rw [List.length_append] at hn
  have hsuffix : [q] <:+ y.take (k + 1) := by
    refine List.suffix_of_suffix_length_le h (List.suffix_append _ _) ?_
    rw [List.length_take, List.length_singleton]
    omega
  exact hq (List.mem_of_mem_take (hsuffix.mem (List.mem_singleton.mpr rfl)))

/-- A string before closing brackets ends before them and is what it is whatever follows, or it does
not end. -/
theorem stringLexeme_closers (hx : ∀ c ∈ x, isInLine c = true) (ho : stringOpening? x = some o)
    (k : Nat) :
    (∃ n, 0 < n ∧ n ≤ x.length ∧ ∀ y, stringLexeme o (x ++ y) = some (.token .string n)) ∨
      stringLexeme o (x ++ closers k) = some (.fault .openString) ∨
        stringLexeme o (x ++ closers k) = none := by
  obtain ⟨-, -, hmark, -, -⟩ := eq_of_stringOpening? ho
  have hnewline : o.mark ≠ '\n' := by obtain hq | hq := hmark <;> simp [hq]
  have hle : o.length ≤ x.length := StringOpening.length_le ho
  have hopen : ∀ m, lineString o.mark ((x ++ closers k).drop o.length) ≠ .escaped m := by
    rw [List.drop_append_of_le_length hle]
    exact lineString_closers (fun c hc => hx c (List.mem_of_mem_drop hc)) hnewline k
  cases hl : stringLexeme o (x ++ closers k) with
  | none => exact .inr (.inr rfl)
  | some l =>
  have hcases : (∃ n, l = .token .string n) ∨ l = .fault .openString := by
    simp only [stringLexeme] at hl
    split at hl
    · split at hl
      · exact .inl ⟨_, (Option.some.inj hl).symm⟩
      · exact .inr (Option.some.inj hl).symm
    · split at hl
      · exact .inl ⟨_, (Option.some.inj hl).symm⟩
      · next hr => exact absurd hr (hopen _)
      · cases hl
  obtain ⟨n, rfl⟩ | rfl := hcases
  swap
  · exact .inr (.inl rfl)
  have hwhole : o.length ≤ (x ++ closers k).length := by
    rw [List.length_append]
    omega
  obtain ⟨hn, hend, htake⟩ := stringLexeme_take hwhole hnewline hl
  have hnot : o.mark ∉ closers k := by
    intro h
    obtain hq | hq := mem_closers h <;> simp [hq] at hmark
  have hnx : n ≤ x.length := le_of_suffix_take hnot hn hend
  refine .inl ⟨n, ?_, hnx, fun y => ?_⟩
  · have hlength := hend.length_le
    rw [List.length_take, List.length_singleton] at hlength
    omega
  · have hsame := htake (x.drop n ++ y)
    rwa [List.take_append_of_le_length hnx, ← List.append_assoc, List.take_append_drop] at hsame

/-! ### Lexemes before a delimiter -/

private theorem mayFollowNumber_append (hy : IsDelimited y) (number : Text) :
    mayFollowNumber .strict' number (s ++ y) = mayFollowNumber .strict' number s := by
  cases s with
  | nil =>
    have hnone : ∀ d ∈ delimiters, isDigit d = false ∧ Dialect.strict'.isNameChar d = false :=
      forall_delimiters (by decide)
    obtain rfl | ⟨d, y, hd, rfl⟩ := hy.eq_nil_or_cons
    · rfl
    · simp [mayFollowNumber, hnone d hd]
  | cons c s =>
    have hwords : ∀ w ∈ ["and", "else", "for", "if", "in", "is", "or", "not"],
        delimiters.all (fun d => d ∉ w.toList) = true := by decide
    have hany : (["and", "else", "for", "if", "in", "is", "or", "not"].any fun w =>
          Text.beginsWith w.toList (c :: (s ++ y))) =
        ["and", "else", "for", "if", "in", "is", "or", "not"].any fun w =>
          Text.beginsWith w.toList (c :: s) := by
      rw [Bool.eq_iff_iff, List.any_eq_true, List.any_eq_true]
      refine exists_congr fun w => and_congr_right fun hw => ?_
      rw [← List.cons_append, beginsWith_append hy (forall_delimiters (hwords w hw))]
    simp only [List.cons_append, mayFollowNumber, hany]

theorem ne_of_isFirst (hc : isFirst c = true) : c ≠ '\\' ∧ c ≠ '\n' ∧ c ≠ '\r' ∧ c ≠ '#' := by
  refine ⟨?_, ?_, ?_, ?_⟩ <;> rintro rfl <;> cases hc

/-- Where no string is opened, what begins a text does not depend on what stands behind a
delimiter. -/
theorem lexeme_append_delimited (hc : isFirst c = true) (hnone : stringOpening? (c :: t) = none)
    (hy : IsDelimited y) : lexeme .strict' (c :: t ++ y) = lexeme .strict' (c :: t) := by
  obtain ⟨hb, hn, hr, hs⟩ := ne_of_isFirst hc
  have hnames : ∀ d ∈ delimiters, Dialect.strict'.isNameChar d = false :=
    forall_delimiters (by decide)
  have hle := numberLength_le_length (c :: t)
  rw [List.cons_append, lexeme_cons hb hn hr hs, lexeme_cons hb hn hr hs, ← List.cons_append,
    numberLength_append hy, stringOpening?_append hy, hnone, nameLexeme_append hy hnames,
    operatorLength_append hy (List.cons_ne_nil c t)]
  dsimp only
  rw [List.take_append_of_le_length hle, List.drop_append_of_le_length hle,
    mayFollowNumber_append hy, Option.bind_none, Option.bind_none]

private theorem lexeme_strict_cases (hc : isFirst c = true) (hnone : stringOpening? (c :: t) = none) :
    (∃ kind n, lexeme .strict' (c :: t) = .token kind n ∧ 0 < n ∧ n ≤ (c :: t).length ∧
      kind ∈ [.name, .number, .string, .operator]) ∨
    (∃ f, lexeme .strict' (c :: t) = .fault f) ∨ lexeme .strict' (c :: t) = .stray := by
  obtain ⟨hb, hn, hr, hs⟩ := ne_of_isFirst hc
  rw [lexeme_cons hb hn hr hs]
  dsimp only
  split
  · next hnumber =>
    split
    · exact .inr (.inl ⟨_, rfl⟩)
    · exact .inl ⟨_, _, rfl, Nat.pos_of_ne_zero hnumber, numberLength_le_length _, by simp⟩
  · rw [hnone, Option.bind_none]
    dsimp only
    split
    · next hoperator =>
      exact .inl ⟨_, _, rfl, Nat.pos_of_ne_zero hoperator, operatorLength_le_length _, by simp⟩
    · rw [nameLexeme]
      split
      · exact .inr (.inr rfl)
      · next d u htake =>
        rw [if_pos (by rfl)]
        split
        · refine .inl ⟨_, _, rfl, Nat.succ_pos _, ?_, by simp⟩
          rw [← List.length_cons (a := d), ← htake]
          exact (List.takeWhile_prefix _).length_le
        · exact .inr (.inl ⟨_, rfl⟩)

/-- What spells no code and no name is a stray in programs too. -/
theorem lexeme_stray_of_codeLexeme (hcode : lexeme .lenient (c :: t) = codeLexeme (c :: t))
    (h : codeLexeme (c :: t) = .stray) (hname : Dialect.strict'.isNameChar c = false) :
    lexeme .strict' (c :: t) = .stray := by
  rw [h] at hcode
  unfold lexeme at hcode ⊢
  split at hcode
  · cases hcode
  · cases hcode
  · cases hcode
  · cases hcode
  · cases hcode
  · have hnumber : numberLength (c :: t) = 0 := by
      by_contra hne
      simp [codeLexeme, hne] at h
    have hstring : (stringOpening? (c :: t)).bind (stringLexeme · (c :: t)) = none := by
      cases hl : (stringOpening? (c :: t)).bind (stringLexeme · (c :: t)) with
      | none => rfl
      | some l =>
        obtain ⟨o, -, ho⟩ := Option.bind_eq_some_iff.mp hl
        obtain ⟨n, rfl⟩ | ⟨n, rfl⟩ | rfl := stringLexeme_cases ho <;>
          simp [codeLexeme, hnumber, hl] at h
    have hoperator : operatorLength (c :: t) = 0 := by
      by_contra hne
      simp [codeLexeme, hnumber, hstring, hne] at h
    simp [hnumber, hstring, hoperator, nameLexeme, hname]

/-- A quotation mark that opens no string is no token of a program. -/
theorem scan_openMark (hq : q = '"' ∨ q = '\'') (h : codeLexeme (q :: t) = .stray)
    (st : LexState) : scan .strict' st false (q :: t) = ([], some .malformed) := by
  have hpad : isPad q = false := by obtain rfl | rfl := hq <;> rfl
  have hchar : strayLexeme .strict' q = .error .malformed := by obtain rfl | rfl := hq <;> rfl
  have hname : Dialect.strict'.isNameChar q = false := by obtain rfl | rfl := hq <;> rfl
  have hcode : lexeme .lenient (q :: t) = codeLexeme (q :: t) := by
    obtain rfl | rfl := hq <;> rfl
  exact scan_stray_fault (List.dropWhile_cons_of_neg (by simp [hpad]))
    (lexeme_stray_of_codeLexeme hcode h hname) hchar

/-- A program may hold no string that does not end. -/
theorem fault_of_open (ho : stringOpening? s = some o) (h : stringLexeme o s = none) :
    ∃ f, (scan .strict' st false s).2 = some f := by
  obtain ⟨t, hrest, hmark, hlead, -⟩ := eq_of_stringOpening? ho
  obtain ⟨t', hrest', hstray⟩ := codeLexeme_drop_lead ho h
  obtain rfl : t = t' := (List.cons.inj (hrest.symm.trans hrest')).2
  have hbroken : ∀ st, scan .strict' st false (o.mark :: t) = ([], some .malformed) :=
    scan_openMark hmark hstray
  have hsplit : s = s.take o.lead ++ o.mark :: t := by rw [← hrest, List.take_append_drop]
  have hletters : ∀ c ∈ s.take o.lead, Text.isPlainWord c = true :=
    fun c => isPlainWord_of_isStringPrefix hlead
  -- letters before the mark are read as a name, and the mark behind it stands alone
  cases hcases : s.take o.lead with
  | nil =>
    rw [hcases, List.nil_append] at hsplit
    exact ⟨_, by rw [hsplit, hbroken]⟩
  | cons c p =>
  rw [hcases] at hsplit hletters
  have hword := hletters c List.mem_cons_self
  have hsigns : ∀ d, Text.isPlainWord d = false → c ≠ d := by
    rintro d hd rfl
    cases hword.symm.trans hd
  have hpad : isPad c = false := by
    simp [isPad, hsigns ' ' rfl, hsigns '\t' rfl, hsigns '\x0c' rfl]
  have hname : Dialect.strict'.isNameChar o.mark = false := by
    obtain hq | hq := hmark <;> rw [hq] <;> rfl
  have htake : (c :: p ++ o.mark :: t).takeWhile Dialect.strict'.isNameChar = c :: p := by
    have hall : ∀ a ∈ c :: p, Dialect.strict'.isNameChar a = true := fun a ha => by
      simp [Dialect.strict', hletters a ha]
    rw [List.takeWhile_append_of_pos hall, List.takeWhile_cons_of_neg (by simp [hname]),
      List.append_nil]
  have hlex : lexeme .strict' (c :: p ++ o.mark :: t) =
      if Text.isIdentifier (c :: p) then .token .name (p.length + 1) else .fault .malformed := by
    have hnumber := numberLength_of_stringOpening? ho
    rw [hsplit] at ho h hnumber
    rw [List.cons_append] at ho h hnumber htake
    rw [List.cons_append, lexeme_cons (hsigns _ rfl) (hsigns _ rfl) (hsigns _ rfl) (hsigns _ rfl),
      hnumber, ho, Option.bind_some, h, operatorLength_of_isPlainWord hword]
    rw [nameLexeme, htake]
    rfl
  have hdrop : (c :: p ++ o.mark :: t).dropWhile isPad = c :: (p ++ o.mark :: t) :=
    List.dropWhile_cons_of_neg (by simp [hpad])
  rw [hsplit]
  split at hlex
  · rw [scan_token hdrop hlex (if_neg (by decide))]
    simp only [Nat.add_sub_cancel, List.drop_left]
    exact ⟨_, congrArg Prod.snd (hbroken _)⟩
  · exact ⟨_, by rw [scan_fault hdrop hlex]⟩

/-! ### Runs of tokens -/

/-- The tokens of code, places aside, whatever delimiter stands behind it. -/
inductive Runs : Text → List Token → Prop
  | nil : Runs [] []
  | pad {c : Char} {x : Text} {ps : List Token} (hc : isPad c = true) (h : Runs x ps) :
      Runs (c :: x) ps
  | token {c : Char} {x : Text} {ps : List Token} {kind : TokenKind} {n : Nat}
      (hc : isPad c = false) (hkind : kind ∈ [.name, .number, .string, .operator]) (hpos : 0 < n)
      (hn : n ≤ (c :: x).length)
      (hlex : ∀ y, IsDelimited y → lexeme .strict' (c :: x ++ y) = .token kind n)
      (h : Runs ((c :: x).drop n) ps) : Runs (c :: x) (⟨kind, (c :: x).take n, 0, 0⟩ :: ps)
  | stray {c : Char} {x : Text} {ps : List Token} {kind : TokenKind} (hc : isPad c = false)
      (hlex : ∀ y, IsDelimited y → lexeme .strict' (c :: x ++ y) = .stray)
      (hkind : strayLexeme .strict' c = .ok kind) (h : Runs x ps) :
      Runs (c :: x) (⟨kind, [c], 0, 0⟩ :: ps)

theorem not_isPad_of_isFirst (hc : isFirst c = true) : isPad c = false := by
  simp only [isFirst, Bool.and_eq_true, Bool.not_eq_true'] at hc
  exact hc.1.1.2

/-- A token that opens no string begins a run. -/
theorem Runs.of_lexeme (hc : isFirst c = true) (hnone : stringOpening? (c :: x) = none)
    (hlex : lexeme .strict' (c :: x) = .token kind n) (h : Runs ((c :: x).drop n) ps) :
    Runs (c :: x) (⟨kind, (c :: x).take n, 0, 0⟩ :: ps) := by
  obtain ⟨kind', n', hlex', hpos, hn, hkind⟩ | ⟨f, hf⟩ | hstray := lexeme_strict_cases hc hnone
  · cases hlex.symm.trans hlex'
    exact .token (not_isPad_of_isFirst hc) hkind hpos hn
      (fun y hy => (lexeme_append_delimited hc hnone hy).trans hlex) h
  · cases hlex.symm.trans hf
  · cases hlex.symm.trans hstray

theorem dropWhile_of_not_isPad (hc : isPad c = false) (t : Text) :
    (c :: t).dropWhile isPad = c :: t :=
  List.dropWhile_cons_of_neg (by simp [hc])

private theorem takeWhile_of_not_isPad (hc : isPad c = false) (t : Text) :
    (c :: t).takeWhile isPad = [] :=
  List.takeWhile_cons_of_neg (by simp [hc])

theorem LexState.advance_nil (st : LexState) : st.advance [] = st := by simp [LexState.advance]

private theorem LexState.advance_append (hs : '\n' ∉ s) (ht : '\n' ∉ t) :
    st.advance (s ++ t) = (st.advance s).advance t := by
  rw [LexState.advance_of_not_mem _ (by simp [hs, ht]), LexState.advance_of_not_mem _ ht,
    LexState.advance_of_not_mem _ hs, List.length_append, Nat.add_assoc]

theorem LexState.alike_advance_self (st : LexState) (s : Text) : Alike (st.advance s) st := by
  rw [alike_lexState_iff, LexState.advance]
  split <;> exact ⟨rfl, rfl, rfl⟩

/-- White space before a token. -/
theorem scan_pad (hc : isPad c = true) (s : Text) :
    scan .strict' st false (c :: s) = scan .strict' (st.advance [c]) false s := by
  have hdrop : (c :: s).dropWhile isPad = s.dropWhile isPad := List.dropWhile_cons_of_pos hc
  have hline : c ≠ '\n' := by
    rintro rfl
    cases hc
  have hhere : st.advance ((c :: s).takeWhile isPad) =
      (st.advance [c]).advance (s.takeWhile isPad) := by
    rw [List.takeWhile_cons_of_pos hc]
    exact LexState.advance_append (s := [c]) (by simpa using hline.symm)
      (newline_not_mem_takeWhile s)
  cases hrest : s.dropWhile isPad with
  | nil => rw [scan_end hrest, scan_end (hdrop.trans hrest), hhere]
  | cons d t =>
  cases hlex : lexeme .strict' (d :: t) with
  | fault f => rw [scan_fault hrest hlex, scan_fault (hdrop.trans hrest) hlex]
  | lineEnd n => rw [scan_lineEnd hrest hlex, scan_lineEnd (hdrop.trans hrest) hlex, hhere]
  | continuation n =>
    rw [scan_continuation hrest hlex, scan_continuation (hdrop.trans hrest) hlex, hhere]
  | token kind n =>
    cases hb : (if kind = .operator then
        ((st.advance [c]).advance (s.takeWhile isPad)).bracket true (d :: t.take (n - 1))
      else .ok ((st.advance [c]).advance (s.takeWhile isPad))) with
    | error f =>
      rw [scan_unbalanced hrest hlex hb, scan_unbalanced (hdrop.trans hrest) hlex (hhere ▸ hb)]
    | ok after =>
      rw [scan_token hrest hlex hb, scan_token (hdrop.trans hrest) hlex (hhere ▸ hb), hhere]
  | stray =>
    cases hchar : strayLexeme .strict' d with
    | error f =>
      rw [scan_stray_fault hrest hlex hchar, scan_stray_fault (hdrop.trans hrest) hlex hchar]
    | ok kind =>
      rw [scan_stray_token hrest hlex hchar, scan_stray_token (hdrop.trans hrest) hlex hchar, hhere]

/-- What begins code before closing brackets. -/
theorem exists_lexeme (hc : isFirst c = true) (ht : ∀ d ∈ t, isInLine d = true) (k : Nat) :
    (∃ kind n, kind ∈ [.name, .number, .string, .operator] ∧ 0 < n ∧ n ≤ (c :: t).length ∧
      ∀ y, IsDelimited y → lexeme .strict' (c :: t ++ y) = .token kind n) ∨
    (∀ y, IsDelimited y → lexeme .strict' (c :: t ++ y) = .stray) ∨
    ∀ st, ∃ f, (scan .strict' st false (c :: t ++ closers k)).2 = some f := by
  obtain ⟨hb, hn, hr, hs⟩ := ne_of_isFirst hc
  have hpad := not_isPad_of_isFirst hc
  have hfault : ∀ f, lexeme .strict' (c :: t ++ closers k) = .fault f →
      ∀ st, ∃ f, (scan .strict' st false (c :: t ++ closers k)).2 = some f := by
    intro f hf st
    exact ⟨f, congrArg Prod.snd (scan_fault (dropWhile_of_not_isPad hpad _) hf)⟩
  cases ho : stringOpening? (c :: t) with
  | none =>
    obtain ⟨kind, n, hlex, hpos, hle, hkind⟩ | ⟨f, hlex⟩ | hlex := lexeme_strict_cases hc ho
    · exact .inl ⟨kind, n, hkind, hpos, hle, fun y hy =>
        (lexeme_append_delimited hc ho hy).trans hlex⟩
    · exact .inr (.inr (hfault f
        ((lexeme_append_delimited hc ho (isDelimited_closers k)).trans hlex)))
    · exact .inr (.inl fun y hy => (lexeme_append_delimited hc ho hy).trans hlex)
  | some o =>
    have hopen : ∀ y, IsDelimited y → stringOpening? (c :: (t ++ y)) = some o := fun y hy =>
      (stringOpening?_append (a := c :: t) hy).trans ho
    have hstring : ∀ y l, IsDelimited y → stringLexeme o (c :: t ++ y) = some l →
        lexeme .strict' (c :: t ++ y) = l := by
      intro y l hy hl
      rw [List.cons_append] at hl
      rw [List.cons_append, lexeme_cons hb hn hr hs,
        numberLength_of_stringOpening? (hopen y hy), hopen y hy, Option.bind_some, hl]
      rfl
    have hline : ∀ d ∈ c :: t, isInLine d = true := by
      simp only [isFirst, Bool.and_eq_true] at hc
      exact List.forall_mem_cons.mpr ⟨hc.1.1.1, ht⟩
    obtain ⟨n, hpos, hle, hlex⟩ | hlex | hlex := stringLexeme_closers hline ho k
    · exact .inl ⟨.string, n, by simp, hpos, hle, fun y hy => hstring y _ hy (hlex y)⟩
    · exact .inr (.inr (hfault _ (hstring _ _ (isDelimited_closers k) hlex)))
    · exact .inr (.inr fun st => fault_of_open (hopen _ (isDelimited_closers k)) hlex)

/-- The state behind tokens, whose brackets may not stand there. -/
def LexState.bracketed (st : LexState) (ps : List Token) : Except LexFault LexState :=
  ps.foldlM (fun st p => if p.kind = .operator then st.bracket true p.text else .ok st) st

theorem LexState.bracketed_cons (st : LexState) (p : Token) (ps : List Token) :
    st.bracketed (p :: ps) =
      (if p.kind = .operator then st.bracket true p.text else .ok st).bind fun st =>
        st.bracketed ps := by
  rw [bracketed, List.foldlM_cons]
  rfl

private theorem LexState.bracketed_cons_of_ok {p : Token} {after : LexState}
    (h : (if p.kind = .operator then st.bracket true p.text else .ok st) = .ok after)
    (ps : List Token) : st.bracketed (p :: ps) = after.bracketed ps := by
  rw [bracketed_cons, h]
  rfl

/-- The characters that spell no token and stand in programs open and close nothing. -/
theorem of_strayLexeme (h : strayLexeme .strict' c = .ok kind) :
    kind = .operator ∧ ∀ st : LexState, st.bracket true [c] = .ok st := by
  have hstrict : (!Dialect.strict'.strict) = false := rfl
  rw [strayLexeme, hstrict] at h
  simp only [Bool.false_eq_true, if_false] at h
  split at h
  · next hmem =>
    obtain rfl := Except.ok.inj h
    simp only [List.mem_cons, List.not_mem_nil, or_false] at hmem
    obtain rfl | rfl | rfl | rfl := hmem <;> exact ⟨rfl, fun st => rfl⟩
  · split at h <;> cases h

private theorem take_cons_append (hpos : 0 < n) (hn : n ≤ (c :: x).length) (y : Text) :
    c :: (x ++ y).take (n - 1) = (c :: x).take n := by
  obtain ⟨n, rfl⟩ := Nat.exists_eq_add_one.mpr hpos
  rw [List.length_cons] at hn
  rw [Nat.add_sub_cancel, List.take_append_of_le_length (by omega), List.take_succ_cons]

private theorem drop_cons_append (hpos : 0 < n) (hn : n ≤ (c :: x).length) (y : Text) :
    (x ++ y).drop (n - 1) = (c :: x).drop n ++ y := by
  obtain ⟨n, rfl⟩ := Nat.exists_eq_add_one.mpr hpos
  rw [List.length_cons] at hn
  rw [Nat.add_sub_cancel, List.drop_append_of_le_length (by omega), List.drop_succ_cons]

private theorem ne_stray_of_mem (h : kind ∈ [.name, .number, .string, .operator]) : kind ≠ .stray := by
  rintro rfl
  revert h
  decide

/-- A token before a delimiter is read. -/
theorem alike_scan_token (hc : isPad c = false)
    (hkind : kind ∈ [.name, .number, .string, .operator]) (hpos : 0 < n)
    (hn : n ≤ (c :: x).length) (hlex : lexeme .strict' (c :: x ++ y) = .token kind n)
    (hb : (if kind = .operator then st.bracket true ((c :: x).take n) else .ok st) = .ok st') :
    Alike (scan .strict' st false (c :: x ++ y))
      (preceded [⟨kind, (c :: x).take n, 0, 0⟩] (scan .strict' st' false ((c :: x).drop n ++ y))) := by
  have hhere : st.advance ((c :: x ++ y).takeWhile isPad) = st := by
    rw [List.cons_append, takeWhile_of_not_isPad hc, LexState.advance_nil]
  have hafter : (if kind = .operator then
      (st.advance ((c :: (x ++ y)).takeWhile isPad)).bracket true (c :: (x ++ y).take (n - 1))
      else .ok (st.advance ((c :: (x ++ y)).takeWhile isPad))) = .ok st' := by
    rw [← List.cons_append, hhere, take_cons_append hpos hn]
    exact hb
  have hstep := scan_token (dropWhile_of_not_isPad hc (x ++ y)) hlex hafter
  rw [decide_eq_false (ne_stray_of_mem hkind), ← List.cons_append, hhere,
    take_cons_append hpos hn, drop_cons_append hpos hn] at hstep
  rw [hstep]
  exact alike_preceded (alike_cons_iff.mpr ⟨rfl, .refl []⟩)
    (alike_scan (LexState.alike_advance_self st' _))

theorem alike_preceded_append {r r' r'' : List Token × Option LexFault}
    (h : Alike r (preceded ps r')) (h' : Alike r' (preceded qs r'')) :
    Alike r (preceded (ps ++ qs) r'') := by
  have hboth := alike_preceded (.refl ps) h'
  rw [preceded_append] at hboth
  exact h.trans hboth

/-- Reading that goes on alike stops alike. -/
theorem snd_eq_of_alike {r r' : List Token × Option LexFault} (h : Alike r r') : r.2 = r'.2 := by
  obtain ⟨hnone, hnone'⟩ | ⟨f, f', hsome, hsome', hff⟩ := h.snd.option_cases
  · rw [hnone, hnone']
  · rw [hsome, hsome', alike_fault_iff.mp hff]

/-- A character that spells no token is read before a delimiter. -/
theorem alike_scan_stray (hc : isPad c = false) (hlex : lexeme .strict' (c :: x ++ y) = .stray)
    (hkind : strayLexeme .strict' c = .ok kind) :
    Alike (scan .strict' st false (c :: x ++ y))
      (preceded [⟨kind, [c], 0, 0⟩] (scan .strict' st false (x ++ y))) := by
  have hstep : scan .strict' st false (c :: (x ++ y)) = _ :=
    scan_stray_token (dropWhile_of_not_isPad hc (x ++ y)) hlex hkind
  rw [takeWhile_of_not_isPad hc, LexState.advance_nil] at hstep
  rw [List.cons_append, hstep]
  exact alike_preceded (alike_cons_iff.mpr ⟨rfl, .refl []⟩)
    (alike_scan (LexState.alike_advance_self st _))

/-- **Code is read as its tokens** whatever delimiter stands behind it, where its brackets may
stand. -/
theorem alike_scan_of_runs (h : Runs x ps) (hy : IsDelimited y) (hb : st.bracketed ps = .ok st') :
    Alike (scan .strict' st false (x ++ y)) (preceded ps (scan .strict' st' false y)) := by
  induction h generalizing st with
  | nil =>
    obtain rfl : st = st' := Except.ok.inj hb
    exact .refl _
  | pad hc _ ih =>
    rw [List.cons_append, scan_pad hc]
    exact (alike_scan (LexState.alike_advance_self st _)).trans (ih hb)
  | @token c x ps kind n hc hkind hpos hn hlex _ ih =>
    cases hafter : (if kind = .operator then st.bracket true ((c :: x).take n) else .ok st) with
    | error f =>
      rw [LexState.bracketed_cons, hafter] at hb
      cases hb
    | ok after =>
      rw [LexState.bracketed_cons_of_ok hafter] at hb
      exact alike_preceded_append (alike_scan_token hc hkind hpos hn (hlex y hy) hafter) (ih hb)
  | stray hc hlex hkind _ ih =>
    obtain ⟨rfl, hbracket⟩ := of_strayLexeme hkind
    rw [LexState.bracketed_cons_of_ok ((if_pos rfl).trans (hbracket st))] at hb
    exact alike_preceded_append (alike_scan_stray hc (hlex y hy) hkind) (ih hb)

/-- Where the brackets of a token may not stand, reading stops at it. -/
theorem scan_unbalanced_token {f : LexFault} (hc : isPad c = false) (hpos : 0 < n)
    (hn : n ≤ (c :: x).length) (hlex : lexeme .strict' (c :: x ++ y) = .token kind n)
    (hb : (if kind = .operator then st.bracket true ((c :: x).take n) else .ok st) = .error f) :
    scan .strict' st false (c :: x ++ y) = ([], some f) := by
  have hhere : st.advance ((c :: x ++ y).takeWhile isPad) = st := by
    rw [List.cons_append, takeWhile_of_not_isPad hc, LexState.advance_nil]
  exact scan_unbalanced (dropWhile_of_not_isPad hc (x ++ y)) hlex
    (by rw [take_cons_append hpos hn, hhere]; exact hb)

/-- Where the brackets of code may not stand, reading stops. -/
theorem fault_of_runs (h : Runs x ps) (hy : IsDelimited y) {f : LexFault}
    (hb : st.bracketed ps = .error f) : (scan .strict' st false (x ++ y)).2 = some f := by
  induction h generalizing st with
  | nil => cases hb
  | pad hc _ ih =>
    rw [List.cons_append, scan_pad hc]
    exact (snd_eq_of_alike (alike_scan (LexState.alike_advance_self st _))).trans (ih hb)
  | @token c x ps kind n hc hkind hpos hn hlex _ ih =>
    cases hafter : (if kind = .operator then st.bracket true ((c :: x).take n) else .ok st) with
    | error g =>
      rw [LexState.bracketed_cons, hafter] at hb
      obtain rfl := Except.error.inj hb
      exact congrArg Prod.snd (scan_unbalanced_token hc hpos hn (hlex y hy) hafter)
    | ok after =>
      rw [LexState.bracketed_cons_of_ok hafter] at hb
      exact (snd_eq_of_alike (alike_scan_token hc hkind hpos hn (hlex y hy) hafter)).trans (ih hb)
  | stray hc hlex hkind _ ih =>
    obtain ⟨rfl, hbracket⟩ := of_strayLexeme hkind
    rw [LexState.bracketed_cons_of_ok ((if_pos rfl).trans (hbracket st))] at hb
    exact (snd_eq_of_alike (alike_scan_stray hc (hlex y hy) hkind)).trans (ih hb)

/-- A backslash on a line continues none. -/
theorem lexeme_backslash (ht : ∀ d ∈ t, isInLine d = true) (k : Nat) :
    lexeme .strict' ('\\' :: (t ++ closers k)) = .stray := by
  refine lexeme_stray_of_codeLexeme ?_ (codeLexeme_of_mem List.mem_cons_self) rfl
  obtain ⟨w, u, hw, hs, -⟩ | ⟨w, u, hw, hs, -⟩ | ⟨u, hs, -⟩ | ⟨-, hcode⟩ :=
    lexeme_cases ('\\' :: (t ++ closers k))
  · -- the line end would stand before the brackets
    rw [List.cons_append] at hs
    have htail := (List.cons.inj hs).2
    obtain _ | ⟨d, t⟩ := t
    · obtain rfl | rfl := hw <;> cases htail
    · have hd := ht d List.mem_cons_self
      obtain rfl | rfl := hw <;> obtain ⟨rfl, -⟩ := List.cons.inj htail <;> cases hd
  · obtain rfl | rfl := hw <;> cases hs
  · cases hs
  · exact hcode

/-- Code of one line that is read before closing brackets is a run of tokens. -/
theorem exists_runs (hx : ∀ c ∈ x, isInLine c = true ∧ c ≠ '#')
    (h : (scan .strict' st false (x ++ closers k)).2 = none) : ∃ ps, Runs x ps := by
  induction hlength : x.length using Nat.strong_induction_on generalizing x st with
  | _ length ih =>
  obtain _ | ⟨c, t⟩ := x
  · exact ⟨[], .nil⟩
  obtain ⟨hc, ht⟩ := List.forall_mem_cons.mp hx
  have hlt : t.length < length := hlength ▸ Nat.lt_succ_self _
  by_cases hpad : isPad c = true
  · rw [List.cons_append, scan_pad hpad] at h
    obtain ⟨ps, hps⟩ := ih t.length hlt ht h rfl
    exact ⟨ps, .pad hpad hps⟩
  rw [Bool.not_eq_true] at hpad
  have hdelimited := isDelimited_closers k
  have hstray : (∀ y, IsDelimited y → lexeme .strict' (c :: t ++ y) = .stray) →
      ∃ ps, Runs (c :: t) ps := by
    intro hlex
    cases hchar : strayLexeme .strict' c with
    | error f =>
      have hfault : scan .strict' st false (c :: (t ++ closers k)) = _ :=
        scan_stray_fault (dropWhile_of_not_isPad hpad (t ++ closers k)) (hlex _ hdelimited) hchar
      cases h.symm.trans (congrArg Prod.snd hfault)
    | ok kind =>
      have hrest : (scan .strict' st false (c :: t ++ closers k)).2 = _ :=
        snd_eq_of_alike (alike_scan_stray hpad (hlex _ hdelimited) hchar)
      obtain ⟨ps, hps⟩ := ih t.length hlt ht (hrest.symm.trans h) rfl
      exact ⟨_, .stray hpad hlex hchar hps⟩
  by_cases hb : c = '\\'
  · -- the line does not end behind the backslash, so reading stops at it
    subst hb
    have hfault : scan .strict' st false ('\\' :: (t ++ closers k)) = _ :=
      scan_stray_fault (dropWhile_of_not_isPad hpad (t ++ closers k))
        (lexeme_backslash (fun d hd => (ht d hd).1) k) rfl
    cases h.symm.trans (congrArg Prod.snd hfault)
  have hfirst : isFirst c = true := by simp [isFirst, hc.1, hpad, hb, hc.2]
  obtain ⟨kind, n, hkind, hpos, hn, hlex⟩ | hlex | hfault :=
    exists_lexeme hfirst (fun d hd => (ht d hd).1) k
  · cases hafter : (if kind = .operator then st.bracket true ((c :: t).take n) else .ok st) with
    | error f =>
      have hfault := scan_unbalanced_token hpad hpos hn (hlex _ hdelimited) hafter
      cases h.symm.trans (congrArg Prod.snd hfault)
    | ok after =>
      -- the token takes some of the code, and what is behind it is read without fault too
      have hrest := snd_eq_of_alike
        (alike_scan_token hpad hkind hpos hn (hlex _ hdelimited) hafter)
      have hdrop : ((c :: t).drop n).length < length := by
        rw [List.length_drop, hlength]
        omega
      obtain ⟨ps, hps⟩ := ih _ hdrop (fun d hd => hx d (List.mem_of_mem_drop hd))
        (hrest.symm.trans h) rfl
      exact ⟨_, .token hpad hkind hpos hn hlex hps⟩
  · exact hstray hlex
  · obtain ⟨f, hf⟩ := hfault st
    cases h.symm.trans hf

end Code

end ServerPages
