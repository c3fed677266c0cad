import ServerPages.Proofs.Code.Edge.Runs

/-!
# Code in brackets

Code of one line that is read in round brackets of its own is a run of tokens whose brackets are
balanced (`exists_runs_of_enclosed`, `nested_of_enclosed`), and these are the tokens between the
brackets (`alike_programTokens_enclosed`).
-/

namespace ServerPages

namespace Code

variable {c : Char} {e x y : Text} {k n : Nat} {st : LexState} {ps : List Token}
  {bs bs' : List Char}

/-! ### Open brackets -/

/-- A state in which certain brackets are open, the innermost first. -/
def LexState.holding (st : LexState) (bs : List Char) : LexState :=
  { st with depth := bs.length, brackets := bs }

/-- The brackets that are open behind tokens. -/
def nested (bs : List Char) (ps : List Token) : Except LexFault (List Char) :=
  ((({} : LexState).holding bs).bracketed ps).map LexState.brackets

private theorem LexState.bracket_holding (st : LexState) (bs : List Char) (op : Text) :
    (st.holding bs).bracket true op =
      ((({} : LexState).holding bs).bracket true op).map fun s => st.holding s.brackets := by
  unfold bracket
  split
  · next c =>
    dsimp only [holding]
    split
    · by_cases hlimit : bracketLimit ≤ bs.length <;> simp [hlimit, Except.map]
    · split
      · cases bs with
        | nil => rfl
        | cons b bs =>
          dsimp only
          by_cases hcloses : closes b c = true <;> simp [hcloses, Except.map]
      · rfl
  · rfl

private theorem LexState.eq_holding_of_bracket {s : LexState} {op : Text}
    (h : (({} : LexState).holding bs).bracket true op = .ok s) :
    s = ({} : LexState).holding s.brackets := by
  have hsame := bracket_holding {} bs op
  rw [h] at hsame
  exact Except.ok.inj hsame

/-- Which brackets tokens leave open does not depend on the place where they stand. -/
theorem LexState.bracketed_holding (st : LexState) (bs : List Char) (ps : List Token) :
    (st.holding bs).bracketed ps = (nested bs ps).map st.holding := by
  induction ps generalizing bs with
  | nil => rfl
  | cons p ps ih =>
    rw [nested, bracketed_cons, bracketed_cons]
    by_cases hop : p.kind = .operator
    · rw [if_pos hop, if_pos hop, bracket_holding st]
      cases hb : (({} : LexState).holding bs).bracket true p.text with
      | error f => rfl
      | ok s =>
        show (st.holding s.brackets).bracketed ps =
          ((s.bracketed ps).map LexState.brackets).map st.holding
        rw [ih, nested, ← eq_holding_of_bracket hb]
    · rw [if_neg hop, if_neg hop]
      exact ih bs

/-- **Code is read as its tokens** where its brackets may stand, and leaves some brackets open. -/
theorem Runs.alike_scan (st : LexState) (h : Runs x ps) (hy : IsDelimited y)
    (hb : nested bs ps = .ok bs') :
    Alike (scan .strict' (st.holding bs) false (x ++ y))
      (preceded ps (scan .strict' (st.holding bs') false y)) :=
  alike_scan_of_runs h hy (by rw [LexState.bracketed_holding, hb]; rfl)

theorem Runs.exists_nested (h : Runs x ps) (hy : IsDelimited y)
    (hnone : (scan .strict' (st.holding bs) false (x ++ y)).2 = none) :
    ∃ bs', nested bs ps = .ok bs' := by
  cases hb : nested bs ps with
  | ok bs' => exact ⟨bs', rfl⟩
  | error f =>
    have hopen : (st.holding bs).bracketed ps = .error f := by
      rw [LexState.bracketed_holding, hb]
      rfl
    have hfault := fault_of_runs h hy hopen
    cases hnone.symm.trans hfault

private theorem nested_cons (bs : List Char) (p : Token) (ps : List Token) :
    nested bs (p :: ps) =
      if p.kind = .operator then
        (({} : LexState).holding bs).bracket true p.text >>= fun s => nested s.brackets ps
      else nested bs ps := by
  rw [nested, LexState.bracketed_cons]
  by_cases hop : p.kind = .operator
  · rw [if_pos hop, if_pos hop]
    cases hb : (({} : LexState).holding bs).bracket true p.text with
    | error f => rfl
    | ok s =>
      show (s.bracketed ps).map LexState.brackets = nested s.brackets ps
      rw [nested, ← LexState.eq_holding_of_bracket hb]
  · rw [if_neg hop, if_neg hop]
    rfl

/-- An operator does to the innermost brackets what it does where no others are open. -/
theorem LexState.brackets_append {outer : List Char} {op : Text} {s s' : LexState}
    (h : (({} : LexState).holding bs).bracket true op = .ok s)
    (h' : (({} : LexState).holding (bs ++ outer)).bracket true op = .ok s') :
    s'.brackets = s.brackets ++ outer := by
  have hkept : s = ({} : LexState).holding bs → s' = ({} : LexState).holding (bs ++ outer) →
      s'.brackets = s.brackets ++ outer := by
    rintro rfl rfl
    rfl
  obtain _ | ⟨c, _ | ⟨d, op⟩⟩ := op
  · exact hkept (Except.ok.inj h).symm (Except.ok.inj h').symm
  swap
  · exact hkept (Except.ok.inj h).symm (Except.ok.inj h').symm
  unfold bracket at h h'
  dsimp only at h h'
  by_cases hopening : c = '(' ∨ c = '[' ∨ c = '\x7b'
  · rw [if_pos hopening] at h h'
    by_cases hlimit : true = true ∧ bracketLimit ≤ bs.length
    · cases (if_pos hlimit).symm.trans h
    by_cases hlimit' : true = true ∧ bracketLimit ≤ (bs ++ outer).length
    · cases (if_pos hlimit').symm.trans h'
    cases (if_neg hlimit).symm.trans h
    cases (if_neg hlimit').symm.trans h'
    rfl
  rw [if_neg hopening] at h h'
  by_cases hclosing : c = ')' ∨ c = ']' ∨ c = '\x7d'
  · rw [if_pos hclosing] at h h'
    cases bs with
    | nil => cases h
    | cons b bs =>
      by_cases hcloses : true = true ∧ (!closes b c) = true
      · cases (if_pos hcloses).symm.trans h
      cases (if_neg hcloses).symm.trans h
      cases (if_neg hcloses).symm.trans h'
      rfl
  · rw [if_neg hclosing] at h h'
    exact hkept (Except.ok.inj h).symm (Except.ok.inj h').symm

/-- Tokens that are balanced inside brackets leave the same open inside more of them. -/
theorem nested_append {outer bs'' : List Char} (h : nested bs ps = .ok bs')
    (h' : nested (bs ++ outer) ps = .ok bs'') : bs'' = bs' ++ outer := by
  induction ps generalizing bs with
  | nil =>
    obtain rfl := Except.ok.inj h
    exact (Except.ok.inj h').symm
  | cons p ps ih =>
    rw [nested_cons] at h h'
    by_cases hop : p.kind = .operator
    · rw [if_pos hop] at h h'
      cases hb : (({} : LexState).holding bs).bracket true p.text with
      | error f =>
        rw [hb] at h
        cases h
      | ok s =>
        cases hb' : (({} : LexState).holding (bs ++ outer)).bracket true p.text with
        | error f =>
          rw [hb'] at h'
          cases h'
        | ok s' =>
          rw [hb] at h
          rw [hb'] at h'
          refine ih h (?_ : nested (s.brackets ++ outer) ps = .ok bs'')
          rwa [← LexState.brackets_append hb hb']
    · rw [if_neg hop] at h h'
      exact ih h h'

/-! ### Single brackets -/

/-- A round bracket, its place aside. -/
def bracketToken (c : Char) : Token := ⟨.operator, [c], 0, 0⟩

/-- A round bracket is a token whatever stands behind it. -/
theorem lexeme_bracket (hc : c = '(' ∨ c = ')') (s : Text) :
    lexeme .strict' (c :: s) = .token .operator 1 := by
  have hsigns : c ≠ '\\' ∧ c ≠ '\n' ∧ c ≠ '\r' ∧ c ≠ '#' ∧ c ≠ '.' := by
    obtain rfl | rfl := hc <;> decide
  obtain ⟨hb, hn, hr, hs, hp⟩ := hsigns
  have hword : Text.isPlainWord c = false := by obtain rfl | rfl := hc <;> rfl
  have hopening : stringOpening? (c :: s) = none := by
    refine stringOpening?_eq_none fun p r hpr hletters q hq hquote => ?_
    cases p with
    | nil =>
      rw [List.nil_append] at hpr
      rw [← hpr] at hq
      obtain rfl := Option.some.inj hq
      obtain rfl | rfl := hc <;> simp at hquote
    | cons b p =>
      rw [← (List.cons.inj hpr).1] at hletters
      cases hword.symm.trans (hletters c List.mem_cons_self)
  have hoperator : operatorLength (c :: s) = 1 := by
    obtain rfl | rfl := hc <;>
      simp [operatorLength, operators, List.find?, Text.beginsWith, Text.after?]
  rw [lexeme_cons hb hn hr hs, numberLength_eq_zero (isDigit_of_not_isPlainWord hword) hp, hopening,
    hoperator]
  rfl

private theorem not_isPad_bracket (hc : c = '(' ∨ c = ')') : isPad c = false := by
  obtain rfl | rfl := hc <;> rfl

theorem LexState.bracket_open (h : bs.length < bracketLimit) :
    (st.holding bs).bracket true ['('] = .ok (st.holding ('(' :: bs)) := by
  have hlimit : ¬bracketLimit ≤ bs.length := not_le.mpr h
  simp [bracket, holding, hlimit]

theorem LexState.bracket_close (st : LexState) (bs : List Char) :
    (st.holding ('(' :: bs)).bracket true [')'] = .ok (st.holding bs) := by
  simp [bracket, holding, closes]

private theorem LexState.of_bracket_close {after : LexState}
    (h : (st.holding bs).bracket true [')'] = .ok after) :
    ∃ rest, bs = '(' :: rest ∧ after = st.holding rest := by
  cases bs with
  | nil => simp [bracket, holding] at h
  | cons b rest =>
    by_cases hcloses : closes b ')' = true
    · have hb : b = '(' := by simpa [closes] using hcloses
      subst hb
      exact ⟨rest, rfl, (Except.ok.inj (h.symm.trans (bracket_close st rest)))⟩
    · simp [bracket, holding, hcloses] at h

/-- A bracket that may stand where it stands is read. -/
theorem alike_scan_bracket (hc : c = '(' ∨ c = ')')
    (hb : (st.holding bs).bracket true [c] = .ok (st.holding bs')) (y : Text) :
    Alike (scan .strict' (st.holding bs) false (c :: y))
      (preceded [bracketToken c] (scan .strict' (st.holding bs') false y)) :=
  alike_scan_token (x := []) (not_isPad_bracket hc) (by simp) Nat.one_pos (by simp)
    (lexeme_bracket hc y) hb

/-- Brackets that open are read. -/
theorem alike_scan_opening (st : LexState) (h : bs.length + n ≤ LexState.bracketLimit) (y : Text) :
    Alike (scan .strict' (st.holding bs) false (List.replicate n '(' ++ y))
      (preceded (List.replicate n (bracketToken '('))
        (scan .strict' (st.holding (List.replicate n '(' ++ bs)) false y)) := by
  induction n generalizing bs with
  | zero => exact .refl _
  | succ n ih =>
    have hlimit : ('(' :: bs).length + n ≤ LexState.bracketLimit := by
      rw [List.length_cons]
      omega
    have hrest := ih hlimit
    have hsame : List.replicate n '(' ++ '(' :: bs = List.replicate (n + 1) '(' ++ bs := by
      rw [List.replicate_succ', List.append_assoc]
      rfl
    rw [hsame] at hrest
    exact alike_preceded_append (alike_scan_bracket (.inl rfl) (LexState.bracket_open (by omega)) _)
      hrest

/-- Brackets that close are read. -/
theorem alike_scan_closing (st : LexState) (bs : List Char) (n : Nat) (y : Text) :
    Alike (scan .strict' (st.holding (List.replicate n '(' ++ bs)) false
        (List.replicate n ')' ++ y))
      (preceded (List.replicate n (bracketToken ')')) (scan .strict' (st.holding bs) false y)) := by
  induction n with
  | zero => exact .refl _
  | succ n ih =>
    exact alike_preceded_append (alike_scan_bracket (.inr rfl) (LexState.bracket_close st _) _) ih

/-- Brackets that are closed by so many were as many. -/
theorem eq_replicate_of_closed (h : (scan .strict' (st.holding bs) false
    (List.replicate n ')' ++ ['\n'])).2 = none) : bs = List.replicate n '(' := by
  induction n generalizing bs with
  | zero =>
    have hlex : lexeme .strict' ['\n'] = .lineEnd 1 := rfl
    have hdepth : (st.holding bs).depth = 0 := by
      by_contra hne
      rw [List.replicate_zero, List.nil_append,
        scan_lineEnd (dropWhile_of_not_isPad rfl []) hlex] at h
      dsimp only at h
      rw [List.drop_nil, scan_nil, LexState.finish, LexState.depth_advance,
        LexState.depth_advance, if_pos (.inl hne)] at h
      cases h
    have hlength : (bs.length : Int) = 0 := hdepth
    exact List.length_eq_zero_iff.mp (by omega)
  | succ n ih =>
    cases hb : (st.holding bs).bracket true [')'] with
    | error f =>
      have hfault : scan .strict' (st.holding bs) false
          ([')'] ++ (List.replicate n ')' ++ ['\n'])) = ([], some f) :=
        scan_unbalanced_token (not_isPad_bracket (.inr rfl)) Nat.one_pos (by simp)
          (lexeme_bracket (.inr rfl) (List.replicate n ')' ++ ['\n'])) hb
      cases h.symm.trans (congrArg Prod.snd hfault)
    | ok after =>
      obtain ⟨rest, rfl, rfl⟩ := LexState.of_bracket_close hb
      have hrest := snd_eq_of_alike (alike_scan_bracket (.inr rfl) hb
        (List.replicate n ')' ++ ['\n']))
      rw [ih (hrest.symm.trans h)]
      rfl

/-! ### Code between brackets -/

/-- Code in round brackets of its own. -/
def enclosed (k : Nat) (e : Text) : Text :=
  List.replicate (k + 1) '(' ++ e ++ List.replicate (k + 1) ')'

section

variable (he : ∀ c ∈ e, isInLine c = true ∧ c ≠ '#') (hk : k + 1 ≤ LexState.bracketLimit)
include he

private theorem isInLine_of_mem_enclosed : ∀ c ∈ enclosed k e, isInLine c = true := by
  intro c hc
  simp only [enclosed, List.mem_append] at hc
  obtain (hc | hc) | hc := hc
  · rw [List.eq_of_mem_replicate hc]
    rfl
  · exact (he c hc).1
  · rw [List.eq_of_mem_replicate hc]
    rfl

private theorem programTokens_enclosed (k : Nat) : programTokens (enclosed k e) =
    scan .strict' {} false (List.replicate (k + 1) '(' ++ (e ++ closers k)) := by
  have hreturn : '\r' ∉ enclosed k e := fun h =>
    absurd (isInLine_of_mem_enclosed he _ h) (by decide)
  have hopen : Text.endsWith ['\n'] (enclosed k e) = false := by
    rw [Text.endsWith, enclosed, List.reverse_append, List.reverse_replicate, List.replicate_succ]
    rfl
  have hne : enclosed k e ≠ [] := by simp [enclosed, List.replicate_succ]
  have htext : enclosed k e ++ ['\n'] = '(' :: (List.replicate k '(' ++ (e ++ closers k)) := by
    simp [enclosed, closers, List.replicate_succ]
  have hmargin : lineMargin .strict' ('(' :: (List.replicate k '(' ++ (e ++ closers k))) =
      some {} := lineMargin_spaces rfl (by decide) 0
  rw [programTokens, unifyNewlines_of_not_mem hreturn, closeLine, if_neg (by simp [hne, hopen]),
    htext]
  have hsettle : (({} : LexState).advance []).settle true {} [] = .ok ([], {}) := rfl
  exact scan_codeLine rfl hmargin rfl (by decide) hsettle

include hk in
/-- Code behind the brackets that open is read where they are open. -/
theorem alike_programTokens_opening : Alike (programTokens (enclosed k e))
    (preceded (List.replicate (k + 1) (bracketToken '('))
      (scan .strict' (({} : LexState).holding (List.replicate (k + 1) '(')) false
        (e ++ closers k))) := by
  have hlimit : ([] : List Char).length + (k + 1) ≤ LexState.bracketLimit := by
    rw [List.length_nil]
    omega
  have h := alike_scan_opening {} hlimit (e ++ closers k)
  rw [List.append_nil] at h
  rw [programTokens_enclosed he k]
  exact h

variable (hread : (programTokens (enclosed k e)).2 = none)

include hk hread in
theorem exists_runs_of_enclosed : ∃ ps, Runs e ps :=
  exists_runs he ((snd_eq_of_alike (alike_programTokens_opening he hk)).symm.trans hread)

include hk hread in
/-- The brackets of code that is read in brackets are balanced. -/
theorem nested_of_enclosed (hr : Runs e ps) :
    nested (List.replicate (k + 1) '(') ps = .ok (List.replicate (k + 1) '(') := by
  have hinside := (snd_eq_of_alike (alike_programTokens_opening he hk)).symm.trans hread
  obtain ⟨bs, hbs⟩ := hr.exists_nested (isDelimited_closers k) hinside
  have hbehind := snd_eq_of_alike (hr.alike_scan {} (isDelimited_closers k) hbs)
  rw [hbs, eq_replicate_of_closed (hbehind.symm.trans hinside)]

include hk in
/-- The tokens of code in brackets are those brackets and its own tokens. -/
theorem alike_programTokens_enclosed (hr : Runs e ps)
    (hb : nested (List.replicate (k + 1) '(') ps = .ok (List.replicate (k + 1) '(')) :
    Alike (programTokens (enclosed k e))
      (List.replicate (k + 1) (bracketToken '(') ++ (ps ++
        (List.replicate (k + 1) (bracketToken ')') ++ [⟨.newline, ['\n'], 0, 0⟩])), none) := by
  have hclosing := alike_scan_closing {} [] (k + 1) ['\n']
  rw [List.append_nil] at hclosing
  have hend : Alike (scan .strict' (({} : LexState).holding []) false ['\n'])
      (preceded [⟨.newline, ['\n'], 0, 0⟩] ([], none)) := by
    rw [scan_newline rfl, scan_nil]
    rfl
  have htokens := alike_preceded_append (alike_programTokens_opening he hk)
    (alike_preceded_append (hr.alike_scan {} (isDelimited_closers k) hb)
      (alike_preceded_append hclosing hend))
  rwa [preceded, List.append_nil] at htokens

end

end Code

end ServerPages
