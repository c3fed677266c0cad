import ServerPages.Proofs.Code.Moved
import ServerPages.Proofs.Code.Alignment

/-!
# What code says when its lines are moved

Reading code and reading its lines when they are moved goes on side by side (`Beside`): on a line
that holds code the same token comes next, except for a string that goes on over lines, which comes
next only if those lines stand where they stood (`prefix_iff_of_lexeme`). So the lines say what the
code says exactly if no string is changed and no statement gets out of line (`Reads.kept`,
`kept_tokens`).
-/

namespace ServerPages

namespace Code

variable {move : Text → Text} {s s' t u u' x x' y z : Text} {ls back : List Text} {c : Char}
  {st st' : LexState} {fresh : Bool} {ts marks marks' : List Token} {f : Option LexFault}
  {r : List Token × Option LexFault} {inLine : Prop} {Q : Text → Prop} {A : Alignment}

/-! ### What tokens say -/

/-- The kinds and the texts of the tokens that say something. -/
def said (ts : List Token) : List (TokenKind × Text) :=
  (ts.filter (·.isSignificant)).map fun t => (t.kind, t.text)

/-- Whether the lines on which strings go on stay as they are when lines are moved. -/
def StringsStay (move : Text → Text) (ts : List Token) : Prop :=
  ∀ t ∈ ts, t.kind = .string → ∀ line ∈ (Text.splitOn '\n' t.text).tail, move line = line

instance (move : Text → Text) (ts : List Token) : Decidable (StringsStay move ts) :=
  inferInstanceAs (Decidable (∀ t ∈ ts, t.kind = .string →
    ∀ line ∈ (Text.splitOn '\n' t.text).tail, move line = line))

/-- Whether what is read says the same as given tokens, to its end, which may be inside a
statement. -/
def SaysSame (ts : List Token) (r : List Token × Option LexFault) : Prop :=
  said r.1 = said ts ∧ (r.2 = none ∨ r.2 = some .openStatement)

/-- What is said is kept exactly if no string is changed and no statement is out of line; and under
a condition none is. -/
structure Kept (move : Text → Text) (inLine : Prop) (ts : List Token)
    (r : List Token × Option LexFault) : Prop where
  saysSame_iff : SaysSame ts r ↔ StringsStay move ts ∧ r.2 ≠ some .badDedent
  ne_badDedent : inLine → StringsStay move ts → r.2 ≠ some .badDedent

private theorem said_append (ts us : List Token) : said (ts ++ us) = said ts ++ said us := by
  simp [said]

private theorem said_cons {t : Token} (h : t.isSignificant = true) (ts : List Token) :
    said (t :: ts) = (t.kind, t.text) :: said ts := by
  rw [said, List.filter_cons_of_pos h]
  rfl

private theorem said_singleton {t t' : Token} (hkind : t'.kind = t.kind) (htext : t'.text = t.text) :
    said [t'] = said [t] := by
  have hsame : t'.isSignificant = t.isSignificant := by rw [Token.isSignificant, hkind]; rfl
  cases hsignificant : t.isSignificant with
  | true => rw [said_cons (hsame.trans hsignificant), said_cons hsignificant, hkind, htext]
  | false => simp [said, hsame, hsignificant]

private theorem said_of_not_significant (h : ∀ t ∈ ts, t.isSignificant = false) : said ts = [] := by
  simp only [said, List.map_eq_nil_iff, List.filter_eq_nil_iff]
  intro t ht
  simp [h t ht]

private theorem stringsStay_append (ts us : List Token) :
    StringsStay move (ts ++ us) ↔ StringsStay move ts ∧ StringsStay move us := by
  simp only [StringsStay, List.forall_mem_append]

private theorem stringsStay_singleton {tok : Token} : StringsStay move [tok] ↔
    (tok.kind = .string → ∀ line ∈ (Text.splitOn '\n' tok.text).tail, move line = line) := by
  simp [StringsStay]

private theorem stringsStay_of_not_significant (h : ∀ t ∈ ts, t.isSignificant = false) :
    StringsStay move ts := by
  intro t ht hkind
  have hsignificant := h t ht
  rw [Token.isSignificant, hkind] at hsignificant
  cases hsignificant

/-- Tokens before what is said that say the same themselves. -/
theorem Kept.append (h : Kept move inLine ts r) (hsaid : said marks' = said marks)
    (hstay : StringsStay move marks) : Kept move inLine (marks ++ ts) (marks' ++ r.1, r.2) := by
  have hiff := h.saysSame_iff
  rw [SaysSame] at hiff
  refine ⟨?_, fun hin hall => h.ne_badDedent hin ((stringsStay_append _ _).mp hall).2⟩
  rw [SaysSame, said_append, said_append, hsaid, List.append_cancel_left_eq, stringsStay_append,
    and_iff_right hstay]
  exact hiff

theorem Kept.cons {t t' : Token} (h : Kept move inLine ts r) (hkind : t'.kind = t.kind)
    (htext : t'.text = t.text)
    (hstay : t.kind = .string → ∀ line ∈ (Text.splitOn '\n' t.text).tail, move line = line) :
    Kept move inLine (t :: ts) (t' :: r.1, r.2) := by
  show Kept move inLine ([t] ++ ts) ([t'] ++ r.1, r.2)
  exact h.append (said_singleton hkind htext) (stringsStay_singleton.mpr hstay)

/-- Tokens before what is said that say nothing. -/
theorem Kept.append_aside (h : Kept move inLine ts r)
    (hmarks : ∀ t ∈ marks, t.isSignificant = false)
    (hmarks' : ∀ t ∈ marks', t.isSignificant = false) :
    Kept move inLine (marks ++ ts) (marks' ++ r.1, r.2) :=
  h.append (by rw [said_of_not_significant hmarks, said_of_not_significant hmarks'])
    (stringsStay_of_not_significant hmarks)

private theorem Kept.cons_aside {t t' : Token} (h : Kept move inLine ts r) (ht : t.isSignificant = false)
    (ht' : t'.isSignificant = false) : Kept move inLine (t :: ts) (t' :: r.1, r.2) := by
  show Kept move inLine ([t] ++ ts) ([t'] ++ r.1, r.2)
  exact h.append_aside (List.forall_mem_singleton.mpr ht) (List.forall_mem_singleton.mpr ht')

private theorem Kept.after_aside (h : Kept move inLine ts r)
    (hmarks : ∀ t ∈ marks, t.isSignificant = false) : Kept move inLine (marks ++ ts) r := by
  show Kept move inLine (marks ++ ts) ([] ++ r.1, r.2)
  exact h.append_aside hmarks (by simp)

/-- Nothing is said on either side. -/
theorem kept_of_not_significant (hts : ∀ t ∈ ts, t.isSignificant = false)
    (hr : ∀ t ∈ r.1, t.isSignificant = false) (hfault : r.2 = none ∨ r.2 = some .openStatement) :
    Kept move inLine ts r := by
  have hsame : said r.1 = said ts := by
    rw [said_of_not_significant hts, said_of_not_significant hr]
  have hne : r.2 ≠ some .badDedent := by obtain h | h := hfault <;> simp [h]
  exact ⟨iff_of_true ⟨hsame, hfault⟩ ⟨stringsStay_of_not_significant hts, hne⟩, fun _ _ => hne⟩

/-- A statement that is out of line. -/
theorem kept_badDedent (h : ¬inLine) (ts : List Token) :
    Kept move inLine ts ([], some .badDedent) :=
  ⟨by simp [SaysSame], fun hin => absurd hin h⟩

private theorem LexState.finish_tokens (st : LexState) (continued : Bool) :
    (∀ t ∈ (st.finish continued).1, t.isSignificant = false) ∧
      ((st.finish continued).2 = none ∨ (st.finish continued).2 = some .openStatement) := by
  unfold LexState.finish
  split
  · exact ⟨by simp, .inr rfl⟩
  · refine ⟨fun t ht => ?_, .inl rfl⟩
    rw [List.eq_of_mem_replicate ht]
    rfl

private theorem LexState.settle_aside {after : LexState}
    (h : st.settle false (margin s) (s.takeWhile isPad) = .ok (marks, after)) :
    ∀ t ∈ marks, t.isSignificant = false := by
  intro t ht
  obtain hk | hk := (LexState.settle_levels h).1 t ht <;> rw [Token.isSignificant, hk]

private theorem LexState.lineEnd_not_significant (st : LexState) (depth : Int) (s : Text) :
    (st.token (if 0 < depth then .blankLine else .newline) s).isSignificant = false := by
  split <;> rfl

/-! ### Text without code -/

/-- What is read does not begin with white space. -/
theorem isBlank_of_lexeme {kind : TokenKind} {n : Nat}
    (h : lexeme .lenient (c :: t) = .token kind n) : Text.isBlank c = false := by
  obtain ⟨-, hsign⟩ | ⟨-, hcode⟩ := lexeme_token_cases h
  · obtain rfl : c = '#' := by simpa using hsign
    rfl
  · by_contra hblank
    rw [codeLexeme_of_isBlank (by simpa using hblank)] at hcode
    cases hcode

theorem mem_of_dropWhile_eq_cons (h : s.dropWhile isPad = c :: t) : ∀ d ∈ c :: t, d ∈ s := by
  intro d hd
  rw [← h] at hd
  exact (List.dropWhile_suffix isPad).mem hd

/-- White space that is read without a stray character says nothing. -/
theorem Reads.not_significant_of_blank (h : Reads st fresh s ts f)
    (hs : ∀ c ∈ s, Text.isBlank c = true) (hstray : ∀ t ∈ ts, t.kind ≠ .stray) :
    ∀ t ∈ ts, t.isSignificant = false := by
  induction h with
  | @ended st => exact (st.finish_tokens false).1
  | bracketed _ _ _ ih => exact ih hs hstray
  | @spare st s => exact ((st.advance (s.takeWhile isPad)).finish_tokens false).1
  | @blank st s line u rest ts f _ hdrop _ hends _ _ ih =>
    rw [List.forall_mem_append] at hstray ⊢
    have hsub : ∀ c ∈ rest, c ∈ line ++ u := by
      intro c hc
      cases hends with
      | eof => cases hc
      | newline => simp [hc]
    refine ⟨fun t ht => (LexState.blankTokens_aside _ _ t ht).isSignificant,
      ih (fun c hc => ?_) hstray.2⟩
    exact hs c ((List.dropWhile_suffix isPad).mem (hdrop ▸ hsub c hc))
  | settled _ hdrop _ hsettle _ ih =>
    rw [List.forall_mem_append] at hstray ⊢
    refine ⟨fun t ht => ?_, ih (fun d hd => hs d (mem_of_dropWhile_eq_cons hdrop d hd)) hstray.2⟩
    exact LexState.settle_aside hsettle t ht
  | unsettled => exact List.forall_mem_nil _
  | @stop st s _ =>
    rw [List.forall_mem_cons]
    exact ⟨rfl, ((st.advance (s.takeWhile isPad)).finish_tokens false).1⟩
  | fault => exact List.forall_mem_nil _
  | @lineEnd st s c t n _ _ hdrop _ _ ih =>
    rw [List.forall_mem_cons] at hstray ⊢
    refine ⟨LexState.lineEnd_not_significant _ _ _, ih (fun d hd => ?_) hstray.2⟩
    exact hs d (mem_of_dropWhile_eq_cons hdrop d
      (List.mem_cons_of_mem _ (List.mem_of_mem_drop hd)))
  | broken => exact List.forall_mem_nil _
  | continued hdrop _ _ _ ih =>
    exact ih (fun d hd => hs d (mem_of_dropWhile_eq_cons hdrop d
      (List.mem_cons_of_mem _ (List.mem_of_mem_drop hd)))) hstray
  | token hdrop hlex _ _ _ =>
    have hvisible := isBlank_of_lexeme hlex
    rw [hs _ (mem_of_dropWhile_eq_cons hdrop _ List.mem_cons_self)] at hvisible
    cases hvisible
  | stray =>
    rw [List.forall_mem_cons] at hstray
    exact absurd rfl hstray.1

/-- Inside a line, no character that spells nothing comes next. -/
theorem Reads.lexeme_ne_stray (h : Reads st false (c :: t) ts f)
    (hstray : ∀ t ∈ ts, t.kind ≠ .stray) (hc : isPad c = false) : lexeme .lenient (c :: t) ≠ .stray := by
  intro hlex
  have hdrop : (c :: t).dropWhile isPad = c :: t := List.dropWhile_cons_of_neg (by simp [hc])
  generalize hs : c :: t = s at h hdrop hlex
  generalize hfresh : false = fresh at h
  cases h with
  | ended | bracketed | spare | blank | settled | unsettled => cases hfresh
  | stop hnil => rw [hdrop, ← hs] at hnil; cases hnil
  | fault hd hlex' | lineEnd hd hlex' | broken hd hlex' | continued hd hlex' | token hd hlex' =>
    rw [← hd, hdrop, hlex] at hlex'
    cases hlex'
  | stray => exact hstray _ List.mem_cons_self rfl

/-- A line that is no line without code begins with a visible character. -/
theorem Reads.isBlank_of_settled (h : Reads st false (c :: t) ts f)
    (hstray : ∀ t ∈ ts, t.kind ≠ .stray) (hs : s.dropWhile isPad = c :: t)
    (hidle : isIdle c = false) : Text.isBlank c = false := by
  by_contra hblank
  rw [Bool.not_eq_false] at hblank
  have hpad : isPad c = false := isPad_of_dropWhile hs
  refine h.lexeme_ne_stray hstray hpad ?_
  obtain ⟨w, u, -, heq, -⟩ | ⟨w, u, hw, heq, -⟩ | ⟨u, heq, -⟩ | ⟨-, hlex⟩ := lexeme_cases (c :: t)
  · rw [(List.cons.inj heq).1] at hblank
    cases hblank
  · obtain rfl | rfl := hw <;> rw [(List.cons.inj heq).1] at hidle <;> cases hidle
  · rw [(List.cons.inj heq).1] at hblank
    cases hblank
  · exact hlex.trans (codeLexeme_of_isBlank hblank)

/-- A line of white space that comes first says nothing and is passed. -/
theorem Reads.drop_line {line : Text} (h : Reads st true (line ++ '\n' :: s) ts none)
    (hdepth : st.depth = 0) (hline : '\n' ∉ line) (hblank : Text.isAllBlank line = true)
    (hstray : ∀ t ∈ ts, t.kind ≠ .stray) :
    ∃ after marks us, ts = marks ++ us ∧ (∀ t ∈ marks, t.isSignificant = false) ∧
      after.depth = 0 ∧ after.indents = st.indents ∧ Reads after true s us none := by
  have hdrop : (line ++ '\n' :: s).dropWhile isPad = line.dropWhile isPad ++ '\n' :: s :=
    dropWhile_append_line (by simp)
  generalize hs : line ++ '\n' :: s = whole at h hdrop
  generalize hnone : none = f at h
  generalize hfresh : true = fresh at h
  cases h with
  | ended => simp at hs
  | bracketed _ hdepth' => exact absurd hdepth hdepth'
  | spare _ _ hpads => rw [hdrop] at hpads; simp at hpads
  | @blank _ _ line' u rest us _ _ hs' hline' hends _ h =>
    have hnot : '\n' ∉ line.dropWhile isPad := fun hmem =>
      hline ((List.dropWhile_suffix isPad).mem hmem)
    obtain ⟨rfl, hu⟩ := eq_of_append_lineEnds hnot hline' (by simp) hends (hdrop.symm.trans hs')
    subst hu
    cases hends
    exact ⟨_, _, us, rfl, fun t ht => (LexState.blankTokens_aside _ _ t ht).isSignificant,
      by rw [LexState.depth_advance, LexState.depth_advance, hdepth], by simp, h⟩
  | @settled _ _ c t _ _ _ _ _ hs' hidle _ h =>
    rw [List.forall_mem_append] at hstray
    have hvisible := h.isBlank_of_settled hstray.2 hs' hidle
    cases hrest : line.dropWhile isPad with
    | nil =>
      rw [hrest, hs'] at hdrop
      obtain rfl : c = '\n' := (List.cons.inj hdrop).1
      cases hvisible
    | cons d v =>
      rw [hrest, hs'] at hdrop
      obtain rfl : c = d := (List.cons.inj hdrop).1
      have hmem : c ∈ line := mem_of_dropWhile_eq_cons hrest c List.mem_cons_self
      rw [List.all_eq_true.mp hblank c hmem] at hvisible
      cases hvisible
  | unsettled => cases hnone
  | stop | fault | lineEnd | broken | continued | token | stray => cases hfresh

/-! ### Further steps -/

theorem scan_return {w : Text} (hw : IsReturn w) (hs : s.dropWhile isPad = w ++ '\n' :: u) :
    scan .lenient st false s =
      let here := st.advance (s.takeWhile isPad)
      let rest := scan .lenient (here.advance (w ++ ['\n'])) true u
      (here.token (if 0 < here.depth then .blankLine else .newline) (w ++ ['\n']) :: rest.1,
        rest.2) := by
  obtain rfl | rfl := hw
  · exact scan_lineEnd (n := 1) hs rfl
  · exact scan_lineEnd (n := 2) hs rfl

theorem scan_backslash {w : Text} (hw : IsReturn w)
    (hs : s.dropWhile isPad = '\\' :: w ++ '\n' :: u) :
    scan .lenient st false s =
      let next := (st.advance (s.takeWhile isPad)).advance ('\\' :: w ++ ['\n'])
      if u = [] then next.finish true else scan .lenient next false u := by
  obtain rfl | rfl := hw
  · exact scan_continuation (n := 2) hs rfl
  · exact scan_continuation (n := 3) hs rfl

/-- A statement is refused only if it is out of line. -/
theorem LexState.settle_error {m : Margin} {lead : Text} {e : LexFault}
    (h : st.settle false m lead = .error e) : e = .badDedent := by
  simp only [LexState.settle, Bool.false_eq_true, false_and, if_false] at h
  split at h
  · cases h
  · split at h
    · cases h
      rfl
    · cases h

/-! ### Code and its lines when they are moved -/

/-- What is left to read of code and of its lines when they are moved: the rest of a line, with
other white space before it or empty if it is white space, and the lines behind it. At the beginning
of a line it is that line. White space may stand behind the lines that are moved. -/
inductive Beside (move : Text → Text) (Q : Text → Prop) (back : List Text) :
    Bool → Text → Text → Prop where
  | intro {fresh : Bool} {x x' : Text} {ls : List Text} (hx : '\n' ∉ x) (hls : ∀ l ∈ ls, Q l)
      (halike : x'.dropWhile isPad = x.dropWhile isPad ∨ Text.isAllBlank x = true ∧ x' = [])
      (hfresh : fresh = true → x' = move x ∧ Q x) :
      Beside move Q back fresh (x ++ behind (ls ++ back)) (x' ++ behind (ls.map move ++ [[]]))

variable {a : Text} {n : Nat}

/-- What is left without the white space that comes first. -/
theorem Beside.exists_dropWhile (h : Beside move Q back fresh s s') :
    ∃ a a' ls, s.dropWhile isPad = a ++ behind (ls ++ back) ∧
      s'.dropWhile isPad = a' ++ behind (ls.map move ++ [[]]) ∧ '\n' ∉ a ∧ (∀ l ∈ ls, Q l) ∧
      (a' = a ∨ Text.isAllBlank a = true ∧ a' = []) := by
  obtain @⟨x, x', ls, hx, hls, halike, -⟩ := h
  have hsub : ∀ c ∈ x.dropWhile isPad, c ∈ x := fun c hc => (List.dropWhile_suffix isPad).mem hc
  refine ⟨x.dropWhile isPad, x'.dropWhile isPad, ls, dropWhile_append_line (head?_behind _),
    dropWhile_append_line (head?_behind _), fun hmem => hx (hsub _ hmem), hls, ?_⟩
  refine halike.imp_right fun ⟨hblank, hnil⟩ => ⟨?_, by rw [hnil]; rfl⟩
  exact List.all_eq_true.mpr fun c hc => List.all_eq_true.mp hblank c (hsub c hc)

/-- What is left behind the end of a line: more lines, or white space on the one side and nothing on
the other. -/
def BesideOrEnded (move : Text → Text) (Q : Text → Prop) (back : List Text) (fresh : Bool)
    (u u' : Text) : Prop :=
  Beside move Q back fresh u u' ∨ (∀ c ∈ u, Text.isBlank c = true) ∧ u' = []

private theorem exists_besideOrEnded (hmove : IsMove move) (hQ : ∀ l, Q l → '\n' ∉ l)
    (hback : ∀ l ∈ back, Text.isAllBlank l = true) (hls : ∀ l ∈ ls, Q l)
    (h : LineEnds (behind (ls ++ back)) u) (fresh : Bool) :
    ∃ u', behind (ls.map move ++ [[]]) = '\n' :: u' ∧ BesideOrEnded move Q back fresh u u' := by
  cases ls with
  | nil =>
    refine ⟨[], rfl, .inr ⟨fun c hc => ?_, rfl⟩⟩
    have hmem : c ∈ behind back := by
      generalize hwhole : behind ([] ++ back) = whole at h
      rw [List.nil_append] at hwhole
      rw [hwhole]
      cases h with
      | eof => exact hc
      | newline => exact List.mem_cons_of_mem _ hc
    exact forall_mem_behind (P := fun c => Text.isBlank c = true) rfl
      (fun l hl => List.all_eq_true.mp (hback l hl)) c hmem
  | cons l ls =>
    rw [List.forall_mem_cons] at hls
    refine ⟨move l ++ behind (ls.map move ++ [[]]), rfl, .inl ?_⟩
    have hu : u = l ++ behind (ls ++ back) := by
      generalize hwhole : behind (l :: ls ++ back) = whole at h
      rw [List.cons_append, behind_cons] at hwhole
      cases h with
      | eof => cases hwhole
      | newline => exact (List.cons.inj hwhole).2.symm
    rw [hu]
    exact .intro (hQ l hls.1) hls.2 (hmove.alike l) fun _ => ⟨rfl, hls.1⟩

/-- Once the lines that are moved have ended, nothing more is said. -/
theorem Reads.kept_of_ended (h : Reads st fresh u ts f) (hstray : ∀ t ∈ ts, t.kind ≠ .stray)
    (hblank : ∀ c ∈ u, Text.isBlank c = true) (st' : LexState) :
    Kept move inLine ts (scan .lenient st' fresh []) := by
  have hts := h.not_significant_of_blank hblank hstray
  cases fresh with
  | true =>
    rw [scan_nil]
    exact kept_of_not_significant hts (st'.finish_tokens false).1 (st'.finish_tokens false).2
  | false =>
    rw [scan_end rfl]
    refine kept_of_not_significant hts ?_ (LexState.finish_tokens _ false).2
    rw [List.forall_mem_cons]
    exact ⟨rfl, (LexState.finish_tokens _ false).1⟩

theorem BesideOrEnded.kept (hrest : BesideOrEnded move Q back fresh u u')
    (h : Reads st fresh u ts f) (hstray : ∀ t ∈ ts, t.kind ≠ .stray)
    (ih : Beside move Q back fresh u u' → Kept move inLine ts (scan .lenient st' fresh u')) :
    Kept move inLine ts (scan .lenient st' fresh u') := by
  obtain hbeside | ⟨hblank, rfl⟩ := hrest
  · exact ih hbeside
  · exact h.kept_of_ended hstray hblank st'

/-! ### Strings -/

/-- **A string that goes on over lines** begins the lines that are moved only if they stand where
they stood; then it is read there too. -/
theorem prefix_iff_of_lexeme (hmove : IsMove move) (hQ : ∀ l, Q l → '\n' ∉ l)
    (hback : ∀ l ∈ back, Text.isAllBlank l = true) (ha : a ≠ []) (hline : '\n' ∉ a) (hls : ∀ l ∈ ls, Q l)
    (hlex : lexeme .lenient (a ++ behind (ls ++ back)) = .token .string n) (hn : a.length < n) :
    let string := (a ++ behind (ls ++ back)).take n
    let moved := a ++ behind (ls.map move ++ [[]])
    (string <+: moved ↔ ∀ line ∈ (Text.splitOn '\n' string).tail, move line = line) ∧
      (string <+: moved → lexeme .lenient moved = .token .string n ∧ moved.take n = string ∧
        Beside move Q back false ((a ++ behind (ls ++ back)).drop n) (moved.drop n)) := by
  intro string moved
  obtain ⟨hle, ⟨q, hq, hend⟩, htake⟩ := lexeme_take_append (head?_behind _) ha hlex hn
  -- the string ends behind `a`, with its mark, so on one of the lines that are moved
  obtain ⟨k, rfl⟩ := Nat.exists_eq_add_of_le hn.le
  have hk : 0 < k := by omega
  have hlek : k ≤ (behind (ls ++ back)).length := by
    rw [List.length_append] at hle
    omega
  rw [List.take_length_add_append] at hend
  have hend' : [q] <:+ (behind (ls ++ back)).take k := by
    refine List.suffix_of_suffix_length_le hend (List.suffix_append _ _) ?_
    rw [List.length_take, List.length_singleton]
    omega
  have hvisible : Text.isBlank q = false := by obtain rfl | rfl := hq <;> rfl
  obtain ⟨mid, p, r, rest, rfl, hp, hpart, hdrop⟩ :=
    exists_take_behind hback hvisible hk hlek hend'
  have hcode : Text.isAllBlank p = false := List.all_eq_false.mpr ⟨q, hp, by simp [hvisible]⟩
  have hstring : string = a ++ behind (mid ++ [p]) := by
    rw [← hpart]
    exact List.take_length_add_append k
  have hmoved : moved = a ++ (behind (mid.map move) ++ '\n' ::
      (move p ++ (r ++ behind (rest.map move ++ [[]])))) := by
    simp [moved, hmove.append p r hcode]
  rw [List.forall_mem_append, List.forall_mem_cons] at hls
  -- its further lines are those between and the part of the last one up to the mark
  have hlines : (Text.splitOn '\n' string).tail = mid ++ [p] := by
    have hnone : ∀ l ∈ a :: (mid ++ [p]), '\n' ∉ l := by
      rw [List.forall_mem_cons, List.forall_mem_append, List.forall_mem_singleton]
      exact ⟨hline, fun l hl => hQ l (hls.1 l hl),
        fun hmem => hQ _ hls.2.1 (List.mem_append_left r hmem)⟩
    rw [hstring, ← joinWith_cons, Text.splitOn_joinWith (by simp) hnone]
    rfl
  have hiff : string <+: moved ↔ ∀ line ∈ mid ++ [p], move line = line := by
    rw [hstring, hmoved, List.prefix_append_right_inj]
    exact hmove.behind_prefix_iff (fun l hl => hQ l (hls.1 l hl)) hcode _
  refine ⟨hlines ▸ hiff, fun hprefix => ?_⟩
  -- a string whose lines stay is read in the moved text as it was, and the rest lies beside it
  have hstay := hiff.mp hprefix
  have hmid : mid.map move = mid :=
    List.map_congr_left (fun l hl => hstay l (List.mem_append_left _ hl)) |>.trans mid.map_id
  have hsame : moved = string ++ (r ++ behind (rest.map move ++ [[]])) := by
    rw [hmoved, hstring, hmid, hstay p (by simp)]
    simp
  have hlength : string.length = a.length + k := by
    rw [List.length_take]
    omega
  refine ⟨hsame ▸ htake _, ?_, ?_⟩
  · rw [hsame, List.take_left' hlength]
  · rw [hsame, List.drop_left' hlength, List.drop_length_add_append, hdrop]
    exact .intro (fun hmem => hQ _ hls.2.1 (List.mem_append_right p hmem)) hls.2.2 (.inl rfl) (by simp)

/-- If a string is the first that is said, it is what comes next. -/
theorem prefix_of_said {string : Text} {rest : List (TokenKind × Text)}
    (hs : s.dropWhile isPad = c :: t) (hblank : Text.isBlank c = false) (hsign : c ≠ '#')
    (hslash : c ≠ '\\') (h : said (scan .lenient st false s).1 = (.string, string) :: rest) :
    string <+: c :: t := by
  have hcode : lexeme .lenient (c :: t) = codeLexeme (c :: t) := by
    obtain ⟨w, u, -, heq, -⟩ | ⟨w, u, hw, heq, -⟩ | ⟨u, heq, -⟩ | ⟨-, hlex⟩ := lexeme_cases (c :: t)
    · exact absurd (List.cons.inj heq).1 hslash
    · obtain rfl | rfl := hw <;> rw [(List.cons.inj heq).1] at hblank <;> cases hblank
    · exact absurd (List.cons.inj heq).1 hsign
    · exact hlex
  have htoken : ∀ kind n, codeLexeme (c :: t) = .token kind n →
      kind ∈ [.name, .number, .string, .operator, .stray] → string <+: c :: t := by
    intro kind n hlex hkind
    obtain ⟨after, hbracket⟩ := (st.advance (s.takeWhile isPad)).exists_bracket kind
      (c :: t.take (n - 1))
    rw [scan_token hs (hcode.trans hlex) hbracket] at h
    dsimp only at h
    rw [said_cons (Token.isSignificant_iff.mpr hkind)] at h
    obtain ⟨hfirst, -⟩ := List.cons.inj h
    rw [← (Prod.mk.inj hfirst).2]
    exact (List.prefix_cons_inj c).mpr (List.take_prefix _ t)
  obtain ⟨kind, n, hlex, hkind⟩ | ⟨n, hlex⟩ | ⟨f, hlex⟩ | hlex := codeLexeme_cases (c :: t)
  · refine htoken kind n hlex ?_
    exact List.mem_append_left [.stray] hkind
  · exact htoken .stray n hlex (by simp)
  · rw [scan_fault hs (hcode.trans hlex)] at h
    cases h
  · obtain _ | ⟨d, s⟩ := s
    · cases hs
    rw [scan_stray hs (hcode.trans hlex)] at h
    dsimp only at h
    rw [said_cons rfl] at h
    cases (List.cons.inj h).1

/-! ### Runs -/

/-- What comes next on a line that holds code is the same on the line when it is moved. -/
theorem Beside.exists_cons (h : Beside move Q back fresh s s') (hs : s.dropWhile isPad = c :: t)
    (hvisible : Text.isBlank c = false) :
    ∃ a ls, t = a ++ behind (ls ++ back) ∧
      s'.dropWhile isPad = c :: (a ++ behind (ls.map move ++ [[]])) ∧ '\n' ∉ c :: a ∧
      ∀ l ∈ ls, Q l := by
  obtain ⟨a, a', ls, ha, ha', hnewline, hls, hsame⟩ := h.exists_dropWhile
  cases a with
  | nil =>
    have hhead : c ∈ (behind (ls ++ back)).head? := by
      rw [← List.nil_append (behind _), ← ha, hs]
      rfl
    obtain rfl : c = '\n' := head?_behind _ c hhead
    cases hvisible
  | cons d a =>
    obtain ⟨rfl, rfl⟩ := List.cons.inj (hs.symm.trans ha)
    obtain rfl | ⟨hblank, -⟩ := hsame
    · exact ⟨a, ls, rfl, ha', hnewline, hls⟩
    · rw [List.all_eq_true.mp hblank c List.mem_cons_self] at hvisible
      cases hvisible

theorem Beside.ne_nil (h : Beside move Q back fresh s s') : s' ≠ [] := by
  obtain ⟨-, -, -, -⟩ := h
  simp

theorem Beside.inside (h : Beside move Q back fresh s s') : Beside move Q back false s s' := by
  obtain ⟨hx, hls, halike, -⟩ := h
  exact .intro hx hls halike (by simp)

/-- At the beginning of a line that holds code the white space is that of the line, and of the same
line when it is moved. -/
theorem Beside.exists_margin (h : Beside move Q back true s s') (hs : s.dropWhile isPad = c :: t)
    (hvisible : Text.isBlank c = false) :
    ∃ x, Q x ∧ Text.isAllBlank x = false ∧ margin s = margin x ∧ margin s' = margin (move x) := by
  obtain @⟨x, x', ls, -, -, -, hfresh⟩ := h
  obtain ⟨rfl, hx⟩ := hfresh rfl
  refine ⟨x, hx, ?_, ?_, ?_⟩
  · rw [dropWhile_append_line (head?_behind _)] at hs
    cases hrest : x.dropWhile isPad with
    | nil =>
      rw [hrest] at hs
      rw [List.nil_append] at hs
      obtain rfl : c = '\n' := head?_behind (ls ++ back) c (by rw [hs]; rfl)
      cases hvisible
    | cons d v =>
      rw [hrest] at hs
      obtain rfl : d = c := (List.cons.inj hs).1
      have hmem : d ∈ x := mem_of_dropWhile_eq_cons hrest d List.mem_cons_self
      exact List.all_eq_false.mpr ⟨d, hmem, by simp [hvisible]⟩
  · rw [margin, takeWhile_append_line (head?_behind _) rfl]
    rfl
  · rw [margin, takeWhile_append_line (head?_behind _) rfl]
    rfl

/-- At the end of code the line that is moved still has its end. -/
theorem Beside.dropWhile_of_end (h : Beside move Q back fresh s s') (hs : s.dropWhile isPad = []) :
    s'.dropWhile isPad = ['\n'] := by
  obtain ⟨a, a', ls, ha, ha', -, -, hsame⟩ := h.exists_dropWhile
  obtain ⟨rfl, hrest⟩ := List.append_eq_nil_iff.mp (ha.symm.trans hs)
  obtain rfl : a' = [] := hsame.elim id And.right
  cases ls with
  | nil => exact ha'
  | cons l ls => cases hrest

private theorem Beside.kept_of_end (h : Beside move Q back fresh s s') (hs : s.dropWhile isPad = [])
    (hdepth : st'.depth = 0) (hts : ∀ t ∈ ts, t.isSignificant = false) :
    Kept move inLine ts (scan .lenient st' true s') := by
  have hs' : s'.dropWhile isPad = [] ++ ['\n'] := h.dropWhile_of_end hs
  rw [scan_blank hdepth hs' List.not_mem_nil (.newline []) ⟨'\n', rfl, rfl⟩]
  dsimp only
  rw [scan_nil]
  refine kept_of_not_significant hts ?_ (LexState.finish_tokens _ false).2
  rw [List.forall_mem_append]
  exact ⟨fun t ht => (LexState.blankTokens_aside _ _ t ht).isSignificant,
    (LexState.finish_tokens _ false).1⟩

theorem LexState.depth_of_finish {continued : Bool} (h : (st.finish continued).2 = none) :
    st.depth = 0 := by
  rw [LexState.finish] at h
  split at h
  · cases h
  · next hnot => exact not_not.mp fun hdepth => hnot (.inl hdepth)

variable {kind : TokenKind} {after : LexState}

/-- Whether what code says from a state on is kept by all that may stand beside it, wherever that is
read. -/
def KeptFrom (move : Text → Text) (Q : Text → Prop) (back : List Text) (inLine : Prop)
    (A : Alignment) (st : LexState) (fresh : Bool) (u : Text) (ts : List Token) : Prop :=
  ∀ ⦃u' : Text⦄ ⦃st' : LexState⦄, Beside move Q back fresh u u' → st'.depth = st.depth →
    (inLine → Aligned A st st') → Kept move inLine ts (scan .lenient st' fresh u')

private theorem keptFrom_of_finish {continued : Bool} (hs : s.dropWhile isPad = [])
    (hnone : (st.finish continued).2 = none) :
    KeptFrom move Q back inLine A st true s (st.finish continued).1 := by
  intro s' st' hbeside hdepth _
  exact hbeside.kept_of_end hs (hdepth.trans (LexState.depth_of_finish hnone))
    (st.finish_tokens continued).1

private theorem keptFrom_of_stop (hs : s.dropWhile isPad = []) :
    KeptFrom move Q back inLine A st false s ((st.advance (s.takeWhile isPad)).token .newline [] ::
      ((st.advance (s.takeWhile isPad)).finish false).1) := by
  intro s' st' hbeside _ _
  rw [scan_return (w := []) (.inl rfl) (hbeside.dropWhile_of_end hs)]
  dsimp only
  rw [scan_nil]
  refine kept_of_not_significant ?_ ?_ (LexState.finish_tokens _ false).2
  · rw [List.forall_mem_cons]
    exact ⟨rfl, (LexState.finish_tokens _ false).1⟩
  · rw [List.forall_mem_cons]
    exact ⟨LexState.lineEnd_not_significant _ _ _, (LexState.finish_tokens _ false).1⟩

theorem KeptFrom.bracketed (ih : KeptFrom move Q back inLine A st false s ts)
    (hopen : st.depth ≠ 0) : KeptFrom move Q back inLine A st true s ts := by
  intro s' st' hbeside hdepth hin
  rw [scan_bracketed hbeside.ne_nil (hdepth ▸ hopen)]
  exact ih hbeside.inside hdepth hin

/-- A line that holds code is settled where its levels are aligned; elsewhere it may be out of
line. -/
theorem KeptFrom.settled (ih : KeptFrom move Q back inLine A after false (c :: t) ts)
    (hplaces : inLine → ∀ l, Q l → A.Places move l) (hstart : st.depth = 0)
    (hs : s.dropWhile isPad = c :: t) (hidle : isIdle c = false) (hvisible : Text.isBlank c = false)
    (hsettle : (st.advance (s.takeWhile isPad)).settle false (margin s) (s.takeWhile isPad) =
      .ok (marks, after)) : KeptFrom move Q back inLine A st true s (marks ++ ts) := by
  intro s' st' hbeside hdepth hin
  obtain ⟨x, hx, hcodeLine, hm, hm'⟩ := hbeside.exists_margin hs hvisible
  obtain ⟨a, ls, rfl, hs', hnewline, hls⟩ := hbeside.exists_cons hs hvisible
  have hsettled : inLine → ∃ marks' after', (st'.advance (s'.takeWhile isPad)).settle false
      (margin s') (s'.takeWhile isPad) = .ok (marks', after') ∧ Aligned A after after' := by
    intro hl
    obtain ⟨hcut, hwidth⟩ := hplaces hl x hx hcodeLine
    refine ((hin hl).congr ?_ ?_).exists_settle (hm ▸ hcut) (hm ▸ hm' ▸ hwidth) hsettle _
    · exact LexState.indents_advance _ _
    · exact LexState.indents_advance _ _
  have hcode : ¬(c = '#' ∨ c = '\r' ∨ c = '\n') := by simpa [isIdle, and_assoc] using hidle
  have hmargin := (drop_margin s').trans hs'
  cases hsettle' : (st'.advance (s'.takeWhile isPad)).settle false (margin s')
    (s'.takeWhile isPad) with
  | error e =>
    rw [scan_unsettled (hdepth.trans hstart) (lineMargin_lenient s') hmargin hcode
      (by rw [take_margin]; exact hsettle'), LexState.settle_error hsettle']
    refine kept_badDedent (fun hl => ?_) _
    obtain ⟨_, _, hok, -⟩ := hsettled hl
    cases hok.symm.trans hsettle'
  | ok settled =>
    rw [scan_codeLine (hdepth.trans hstart) (lineMargin_lenient s') hmargin hcode
      (by rw [take_margin]; exact hsettle')]
    refine (ih (.intro hnewline hls (.inl rfl) (by simp)) ?_ fun hl => ?_).append_aside
      (LexState.settle_aside hsettle) (LexState.settle_aside hsettle')
    · obtain ⟨-, -, -, hafter, -⟩ := LexState.settle_levels hsettle
      obtain ⟨-, -, -, hafter', -⟩ := LexState.settle_levels hsettle'
      simpa [hafter, hafter'] using hdepth
    · obtain ⟨_, _, hok, haligned⟩ := hsettled hl
      cases hok.symm.trans hsettle'
      exact haligned

section

variable (hmove : IsMove move) (hQ : ∀ l, Q l → '\n' ∉ l)
  (hback : ∀ l ∈ back, Text.isAllBlank l = true)

include hmove hQ hback

/-- A line without code is one also when it is moved. -/
theorem KeptFrom.blank {line rest : Text}
    (ih : KeptFrom move Q back inLine A
      ((st.advance (s.takeWhile isPad)).advance (line ++ ['\n'])) true rest ts)
    (h : Reads ((st.advance (s.takeWhile isPad)).advance (line ++ ['\n'])) true rest ts f)
    (hstray : ∀ t ∈ ts, t.kind ≠ .stray) (hstart : st.depth = 0)
    (hs : s.dropWhile isPad = line ++ u) (hline : '\n' ∉ line) (hends : LineEnds u rest)
    (hidle : ∃ c ∈ (line ++ u).head?, isIdle c) :
    KeptFrom move Q back inLine A st true s
      ((st.advance (s.takeWhile isPad)).blankTokens line ++ ts) := by
  intro s' st' hbeside hdepth hin
  obtain ⟨a, a', ls, ha, ha', hnewline, hls, hsame⟩ := hbeside.exists_dropWhile
  obtain ⟨rfl, hu⟩ := eq_of_append_lineEnds hnewline hline (head?_behind _) hends
    (ha.symm.trans hs)
  obtain ⟨u', hu', hrest⟩ := exists_besideOrEnded hmove hQ hback hls (hu ▸ hends) true
  have hidle' : ∃ c ∈ (a' ++ '\n' :: u').head?, isIdle c := by
    obtain rfl | ⟨-, rfl⟩ := hsame
    · cases a' with
      | nil => exact ⟨'\n', rfl, rfl⟩
      | cons d a => exact hidle
    · exact ⟨'\n', rfl, rfl⟩
  have hline' : '\n' ∉ a' := by
    obtain rfl | ⟨-, rfl⟩ := hsame
    · exact hline
    · simp
  rw [hu'] at ha'
  rw [scan_blank (hdepth.trans hstart) ha' hline' (.newline u') hidle']
  refine (hrest.kept h hstray fun hb => ih hb ?_ fun hl => ?_).append_aside
    (fun t ht => (LexState.blankTokens_aside _ _ t ht).isSignificant)
    fun t ht => (LexState.blankTokens_aside _ _ t ht).isSignificant
  · simpa using hdepth
  · exact (hin hl).congr (by simp) (by simp)

theorem KeptFrom.lineEnd
    (ih : KeptFrom move Q back inLine A
      ((st.advance (s.takeWhile isPad)).advance (c :: t.take (n - 1))) true (t.drop (n - 1)) ts)
    (h : Reads ((st.advance (s.takeWhile isPad)).advance (c :: t.take (n - 1))) true
      (t.drop (n - 1)) ts f)
    (hstray : ∀ t ∈ ts, t.kind ≠ .stray) (hs : s.dropWhile isPad = c :: t)
    (hlex : lexeme .lenient (c :: t) = .lineEnd n) :
    KeptFrom move Q back inLine A st false s ((st.advance (s.takeWhile isPad)).token
      (if 0 < st.depth then .blankLine else .newline) (c :: t.take (n - 1)) :: ts) := by
  intro s' st' hbeside hdepth hin
  obtain ⟨a, a', ls, ha, ha', hnewline, hls, hsame⟩ := hbeside.exists_dropWhile
  obtain ⟨w, hw, -, hct⟩ := eq_of_lexeme_lineEnd hlex
  obtain ⟨rfl, hrest⟩ := eq_of_append_newline hnewline hw.newline_not_mem (head?_behind _)
    (ha.symm.trans (hs.trans hct))
  obtain ⟨u', hu', hnext⟩ := exists_besideOrEnded hmove hQ hback hls
    (by rw [hrest]; exact LineEnds.newline _) true
  have hw' : IsReturn a' := by
    obtain rfl | ⟨-, rfl⟩ := hsame
    · exact hw
    · exact .inl rfl
  rw [hu'] at ha'
  rw [scan_return hw' ha']
  refine (hnext.kept h hstray fun hb => ih hb ?_ fun hl => ?_).cons_aside
    (LexState.lineEnd_not_significant _ _ _) (LexState.lineEnd_not_significant _ _ _)
  · simpa using hdepth
  · exact (hin hl).congr (by simp) (by simp)

theorem KeptFrom.continued
    (ih : KeptFrom move Q back inLine A
      ((st.advance (s.takeWhile isPad)).advance (c :: t.take (n - 1))) false (t.drop (n - 1)) ts)
    (h : Reads ((st.advance (s.takeWhile isPad)).advance (c :: t.take (n - 1))) false
      (t.drop (n - 1)) ts f)
    (hstray : ∀ t ∈ ts, t.kind ≠ .stray) (hs : s.dropWhile isPad = c :: t)
    (hlex : lexeme .lenient (c :: t) = .continuation n) :
    KeptFrom move Q back inLine A st false s ts := by
  intro s' st' hbeside hdepth hin
  obtain ⟨w, hw, -, hct⟩ := eq_of_lexeme_continuation hlex
  obtain ⟨rfl, ht⟩ := List.cons.inj hct
  obtain ⟨a, ls, hta, hs', hnewline, hls⟩ := hbeside.exists_cons hs rfl
  rw [List.mem_cons, not_or] at hnewline
  obtain ⟨rfl, hrest⟩ := eq_of_append_newline hnewline.2 hw.newline_not_mem (head?_behind _)
    (hta.symm.trans ht)
  obtain ⟨u', hu', hnext⟩ := exists_besideOrEnded hmove hQ hback hls
    (by rw [hrest]; exact LineEnds.newline _) false
  rw [hu'] at hs'
  rw [scan_backslash hw hs']
  dsimp only
  obtain hb | ⟨hblank, rfl⟩ := hnext
  · rw [if_neg hb.ne_nil]
    exact ih hb (by simpa using hdepth) fun hl => (hin hl).congr (by simp) (by simp)
  · -- the backslash now stands last: it continues nothing
    rw [if_pos rfl]
    exact kept_of_not_significant (h.not_significant_of_blank hblank hstray)
      (LexState.finish_tokens _ true).1 (LexState.finish_tokens _ true).2

end

section

variable (ih : KeptFrom move Q back inLine A (after.advance (c :: t.take (n - 1))) false
    (t.drop (n - 1)) ts)
  (hs : s.dropWhile isPad = c :: t) (hlex : lexeme .lenient (c :: t) = .token kind n)
  (hkind : kind ≠ .stray)
  (hbracket : (if kind = .operator then
      (st.advance (s.takeWhile isPad)).bracket false (c :: t.take (n - 1))
    else .ok (st.advance (s.takeWhile isPad))) = .ok after)

include ih hkind hbracket in
/-- A token that is read again on the line that is moved. -/
theorem KeptFrom.reread {v : Text} (hdepth : st'.depth = st.depth) (hin : inLine → Aligned A st st')
    (hs' : s'.dropWhile isPad = c :: v) (hlex' : lexeme .lenient (c :: v) = .token kind n)
    (htake : v.take (n - 1) = t.take (n - 1))
    (hrest : Beside move Q back false (t.drop (n - 1)) (v.drop (n - 1)))
    (hstay : kind = .string →
      ∀ line ∈ (Text.splitOn '\n' (c :: t.take (n - 1))).tail, move line = line) :
    Kept move inLine ((st.advance (s.takeWhile isPad)).token kind (c :: t.take (n - 1)) :: ts)
      (scan .lenient st' false s') := by
  obtain ⟨after', hbracket'⟩ := (st'.advance (s'.takeWhile isPad)).exists_bracket kind
    (c :: v.take (n - 1))
  rw [scan_token hs' hlex' hbracket', htake, decide_eq_false hkind]
  rw [htake] at hbracket'
  obtain ⟨-, -, hindents, hafter⟩ := LexState.token_depth hbracket
  obtain ⟨-, -, hindents', hafter'⟩ := LexState.token_depth hbracket'
  refine (ih hrest ?_ fun h => (hin h).congr ?_ ?_).cons rfl rfl hstay
  · rw [LexState.depth_advance, LexState.depth_advance, hafter, hafter', LexState.depth_advance,
      LexState.depth_advance, hdepth]
    rfl
  · rw [LexState.indents_advance, hindents, LexState.indents_advance]
  · rw [LexState.indents_advance, hindents', LexState.indents_advance]

include ih hs hlex hkind hbracket in
/-- What a token says is kept unless it is a string that is changed. -/
theorem KeptFrom.token (hmove : IsMove move) (hQ : ∀ l, Q l → '\n' ∉ l)
    (hback : ∀ l ∈ back, Text.isAllBlank l = true)
    (hnext : ∀ q u, isPad q = false → t.drop (n - 1) = q :: u →
      lexeme .lenient (q :: u) ≠ .stray) :
    KeptFrom move Q back inLine A st false s
      ((st.advance (s.takeWhile isPad)).token kind (c :: t.take (n - 1)) :: ts) := by
  intro s' st' hbeside hdepth hin
  obtain ⟨a, ls, rfl, hs', hnewline, hls⟩ := hbeside.exists_cons hs (isBlank_of_lexeme hlex)
  have ha : c :: a ≠ [] := List.cons_ne_nil c a
  by_cases hn : n ≤ (c :: a).length
  · -- the token ends on its line
    have hna : n - 1 ≤ a.length := by
      rw [List.length_cons] at hn
      omega
    have hlex' := lexeme_append_line (a := c :: a) (head?_behind _) ha hlex hkind hn
      (fun q u hq hdrop => by
        cases n with
        | zero =>
          rw [List.drop_zero] at hdrop
          rw [← hdrop, List.cons_append, hlex]
          simp
        | succ m => exact hnext q u (by obtain rfl | rfl := hq <;> rfl) hdrop)
      (head?_behind (ls.map move ++ [[]]))
    refine ih.reread hkind hbracket hdepth hin hs' hlex' ?_ ?_ fun _ => ?_
    · rw [List.take_append_of_le_length hna, List.take_append_of_le_length hna]
    · rw [List.drop_append_of_le_length hna, List.drop_append_of_le_length hna]
      refine .intro (fun hmem => hnewline ?_) hls (.inl rfl) (by simp)
      exact List.mem_cons_of_mem c (List.mem_of_mem_drop hmem)
    · rw [List.take_append_of_le_length hna, Text.splitOn_of_not_mem]
      · simp
      · exact fun hmem => hnewline ((List.cons_subset_cons c (List.take_subset _ a)) hmem)
  · -- only a string goes on over lines
    have hstring : kind = .string := by
      by_contra hne
      exact hn (le_length_of_lexeme (a := c :: a) (head?_behind _) ha hlex hkind hne)
    subst hstring
    rw [not_le] at hn
    obtain ⟨m, rfl⟩ := Nat.exists_eq_succ_of_ne_zero (Nat.ne_zero_of_lt hn)
    obtain ⟨hiff, hread⟩ := prefix_iff_of_lexeme hmove hQ hback ha hnewline hls hlex hn
    by_cases hprefix : (c :: a ++ behind (ls ++ back)).take (m + 1) <+:
      c :: a ++ behind (ls.map move ++ [[]])
    · obtain ⟨hlex', htake, hrest⟩ := hread hprefix
      exact ih.reread hkind hbracket hdepth hin hs' hlex' (List.cons.inj htake).2 hrest
        fun _ => hiff.mp hprefix
    · obtain ⟨hk, -⟩ | ⟨hsign, hcode⟩ := lexeme_token_cases hlex
      · cases hk
      have hslash : c ≠ '\\' := by
        rintro rfl
        rw [codeLexeme_of_mem List.mem_cons_self] at hcode
        cases hcode
      -- a line of the string does not stay, so another string is said in its place
      have hchanged : ¬StringsStay move ((st.advance (s.takeWhile isPad)).token .string _ :: ts) :=
        fun hstay => hprefix (hiff.mpr (hstay _ List.mem_cons_self rfl))
      refine ⟨iff_of_false (fun hsame => hprefix ?_) fun hstay => hchanged hstay.1,
        fun _ hstay => absurd hstay hchanged⟩
      exact prefix_of_said hs' (isBlank_of_lexeme hlex) (by simpa using hsign) hslash
        (hsame.1.trans (said_cons rfl ts))

end

/-- **What the lines say when they are moved**, for each run over code without faults and stray
characters. -/
theorem Reads.kept (hmove : IsMove move) (hQ : ∀ l, Q l → '\n' ∉ l)
    (hback : ∀ l ∈ back, Text.isAllBlank l = true) (hplaces : inLine → ∀ l, Q l → A.Places move l)
    (h : Reads st fresh s ts f) (hnone : f = none) (hstray : ∀ t ∈ ts, t.kind ≠ .stray) :
    KeptFrom move Q back inLine A st fresh s ts := by
  induction h with
  | ended => exact keptFrom_of_finish rfl hnone
  | bracketed hs hopen _ ih => exact (ih hnone hstray).bracketed hopen
  | @spare st s hs hstart hpads =>
    intro s' st' hbeside hdepth _
    exact hbeside.kept_of_end hpads (hdepth.trans hstart) (LexState.finish_tokens _ false).1
  | blank hstart hs hline hends hidle h ih =>
    rw [List.forall_mem_append] at hstray
    exact (ih hnone hstray.2).blank hmove hQ hback h hstray.2 hstart hs hline hends hidle
  | settled hstart hs hidle hsettle h ih =>
    rw [List.forall_mem_append] at hstray
    exact (ih hnone hstray.2).settled hplaces hstart hs hidle
      (h.isBlank_of_settled hstray.2 hs hidle) hsettle
  | unsettled => cases hnone
  | stop hs => exact keptFrom_of_stop hs
  | fault => cases hnone
  | lineEnd hs hlex h ih =>
    rw [List.forall_mem_cons] at hstray
    exact (ih hnone hstray.2).lineEnd hmove hQ hback h hstray.2 hs hlex
  | broken => cases hnone
  | continued hs hlex _ h ih =>
    exact (ih hnone hstray).continued hmove hQ hback h hstray hs hlex
  | @token st s c t kind n after ts f hs hlex hbracket h ih =>
    rw [List.forall_mem_cons] at hstray
    have hkind : kind ≠ .stray := hstray.1
    rw [decide_eq_false hkind] at h ih
    refine (ih hnone hstray.2).token hs hlex hkind hbracket hmove hQ hback ?_
    intro q u hpad hdrop
    rw [hdrop] at h
    exact h.lexeme_ne_stray hstray.2 hpad
  | stray => exact absurd rfl (hstray _ List.mem_cons_self)

/-- The lines of white space that come first are passed one by one. -/
theorem Reads.drop_lines {front lines : List Text} {line : Text}
    (h : Reads st true (Text.joinWith ['\n'] (front ++ line :: lines)) ts none)
    (hdepth : st.depth = 0) (hnewline : ∀ l ∈ front, '\n' ∉ l)
    (hblank : ∀ l ∈ front, Text.isAllBlank l = true) (hstray : ∀ t ∈ ts, t.kind ≠ .stray) :
    ∃ after marks us, ts = marks ++ us ∧ (∀ t ∈ marks, t.isSignificant = false) ∧
      after.depth = 0 ∧ after.indents = st.indents ∧
      Reads after true (line ++ behind lines) us none := by
  induction front generalizing st ts with
  | nil =>
    rw [List.nil_append, joinWith_cons] at h
    exact ⟨st, [], ts, rfl, List.forall_mem_nil _, hdepth, rfl, h⟩
  | cons first front ih =>
    rw [List.forall_mem_cons] at hnewline hblank
    have hrest : behind (front ++ line :: lines) =
        '\n' :: Text.joinWith ['\n'] (front ++ line :: lines) := by
      cases front with
      | nil => rw [List.nil_append, joinWith_cons]; rfl
      | cons second front => rw [List.cons_append, joinWith_cons]; rfl
    rw [List.cons_append, joinWith_cons, hrest] at h
    obtain ⟨next, marks, us, rfl, hmarks, hnext, hindents, h⟩ :=
      h.drop_line hdepth hnewline.1 hblank.1 hstray
    rw [List.forall_mem_append] at hstray
    obtain ⟨after, marks', us, rfl, hmarks', hafter, hindents', h⟩ :=
      ih h hnext hnewline.2 hblank.2 hstray.2
    exact ⟨after, marks ++ marks', us, (List.append_assoc ..).symm,
      List.forall_mem_append.mpr ⟨hmarks, hmarks'⟩, hafter, hindents'.trans hindents, h⟩

/-- **Lines that are moved say what the code says** exactly if each line on which a string goes on
stays as it is and no statement is out of line, wherever they are read between statements; and none
is out of line if the indentations are moved in order, onto the levels that are open there. Lines of
white space at both ends of the code may be left out. -/
theorem kept_tokens {front kept : List Text} {code : Text} (hmove : IsMove move)
    (hcode : Text.splitOn '\n' code = front ++ kept ++ back)
    (hfront : ∀ l ∈ front, Text.isAllBlank l = true) (hback : ∀ l ∈ back, Text.isAllBlank l = true)
    (hplaces : inLine → ∀ l ∈ kept, A.Places move l) (hin : inLine → st.widths = A.base)
    (hnone : (tokens code).2 = none) (hstray : ∀ t ∈ (tokens code).1, t.kind ≠ .stray)
    (hdepth : st.depth = 0) :
    Kept move inLine (tokens code).1
      (scan .lenient st true (kept.flatMap (move · ++ ['\n']))) := by
  have hlines : ∀ l ∈ front ++ kept ++ back, '\n' ∉ l := fun l hl =>
    Text.not_mem_of_mem_splitOn (hcode ▸ hl)
  rw [List.forall_mem_append, List.forall_mem_append] at hlines
  have hjoin : code = Text.joinWith ['\n'] (front ++ kept ++ back) := by
    rw [← hcode, Text.joinWith_splitOn]
  have hreads : Reads {} true code (tokens code).1 (tokens code).2 := reads_scan _ _ _
  rw [hnone] at hreads
  cases kept with
  | nil =>
    have hblank : Text.isAllBlank code = true := by
      rw [hjoin, List.append_nil]
      exact isAllBlank_joinWith (List.forall_mem_append.mpr ⟨hfront, hback⟩)
    exact hreads.kept_of_ended hstray (List.all_eq_true.mp hblank) st
  | cons line kept =>
    generalize (tokens code).1 = ts at hreads hstray ⊢
    rw [hjoin, List.append_assoc, List.cons_append] at hreads
    obtain ⟨start, marks, us, rfl, hmarks, hstart, hindents, hreads⟩ :=
      hreads.drop_lines rfl hlines.1.1 hfront hstray
    rw [List.forall_mem_append] at hstray
    have haligned : inLine → Aligned A start st := fun hl =>
      (show Aligned A {} st from ⟨.nil, hin hl⟩).congr hindents rfl
    have hmoved : (line :: kept).flatMap (move · ++ ['\n']) =
        move line ++ behind (kept.map move ++ [[]]) := by
      rw [← flatMap_newline_cons, ← List.map_cons, List.flatMap_map]
    have hkept := hreads.kept (Q := (· ∈ line :: kept)) hmove hlines.1.2 hback hplaces rfl hstray.2
    rw [hmoved]
    refine (hkept ?_ (hdepth.trans hstart.symm) haligned).after_aside hmarks
    exact .intro (hlines.1.2 line List.mem_cons_self) (fun l => List.mem_cons_of_mem line)
      (hmove.alike line) fun _ => ⟨rfl, List.mem_cons_self⟩

end Code

end ServerPages
