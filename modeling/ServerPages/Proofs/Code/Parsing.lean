import ServerPages.Code.Program

/-!
# Parsing step by step

How the parsers of the grammar go on from what their parts make of the tokens. Loops are followed
step by step (`Loops`). Where an operand is followed by a comma, a closing bracket or the end of the
line, no rule of the grammar of expressions adds anything to it, and none makes good what is
refused: what the rule for factors makes of the tokens is what the rule for expressions makes of
them (`parse_expression_of_factor`).
-/

namespace ServerPages

namespace Code

namespace Parser

variable {α β : Type} {p : Parser α} {f : α → Parser β} {s t : List Token} {a b : α}
  {e : Refusal} {o : Except Refusal (α × List Token)}

theorem bind_ok (h : p s = .ok (a, t)) : (p >>= f) s = f a t := by
  simp [bind, StateT.bind, h, Except.bind]

theorem bind_error (h : p s = .error e) : (p >>= f) s = .error e := by
  simp [bind, StateT.bind, h, Except.bind]

/-- A loop goes on from a value and tokens to an outcome. Every step that goes on takes tokens; the
last takes none, or refuses them. -/
inductive Loops (step : α → Parser (Option α)) :
    α → List Token → Except Refusal (α × List Token) → Prop
  | stop {a : α} {s : List Token} (h : step a s = .ok (none, s)) : Loops step a s (.ok (a, s))
  | refuse {a : α} {s : List Token} {e : Refusal} (h : step a s = .error e) :
      Loops step a s (.error e)
  | more {a b : α} {s t : List Token} {o : Except Refusal (α × List Token)}
      (h : step a s = .ok (some b, t)) (hlt : t.length < s.length) (hrest : Loops step b t o) :
      Loops step a s o

variable {step : α → Parser (Option α)}

theorem Loops.iterate (h : Loops step a s o) {n : Nat} (hn : s.length < n) :
    Parser.iterate step n a s = o := by
  induction h generalizing n with
  | stop h =>
    obtain _ | n := n
    · omega
    · exact bind_ok h
  | refuse h =>
    obtain _ | n := n
    · omega
    · exact bind_error h
  | more h hlt _ ih =>
    obtain _ | n := n
    · omega
    · exact (bind_ok h).trans (ih (by omega))

theorem Loops.loop (h : Loops step a s o) : Parser.loop a step s = o :=
  (bind_ok rfl).trans (h.iterate (Nat.lt_succ_self _))

theorem Loops.length_le (h : Loops step a s o) : ∀ b t, o = .ok (b, t) → t.length ≤ s.length := by
  induction h with
  | stop h =>
    rintro b t ⟨⟩
    exact Nat.le_refl _
  | refuse h => simp
  | more h hlt _ ih => exact fun b t ho => Nat.le_of_lt (Nat.lt_of_le_of_lt (ih b t ho) hlt)

/-- What a rule makes of tokens that are right, or refused as unexpected. -/
def provided (right : Bool) (a : α) (t : List Token) : Except Refusal (α × List Token) :=
  if right then .ok (a, t) else .error .unexpected

/-- What a rule makes of tokens after a part of them has been read, or refused. -/
theorem bind_provided {right : Bool} {b : β} {u : List Token} (h : p s = provided right a t)
    (hf : f a t = .ok (b, u)) : (p >>= f) s = provided right b u := by
  cases right with
  | false => exact bind_error h
  | true => exact (bind_ok h).trans hf

private theorem map_provided (right : Bool) (a : α) (t : List Token) (g : α → β) :
    (provided right a t).map (fun r => (g r.1, r.2)) = provided right (g a) t := by
  cases right <;> rfl

end Parser

/-! ### Tokens at which operands begin and end -/

/-- A token that ends an operand: a comma, a closing bracket, or the end of a line. -/
def Token.EndsOperand (t : Token) : Prop :=
  t.kind = .newline ∨ t.kind = .operator ∧ (t.text = [','] ∨ t.text = [')'])

theorem Token.eq_of_isOperator {t : Token} {op : String} (h : t.isOperator op = true) :
    t.kind = .operator ∧ t.text = op.toList := by
  simpa [Token.isOperator] using h

theorem Token.endsOperand_of_comma {t : Token} (h : t.isOperator "," = true) : t.EndsOperand :=
  .inr ⟨(eq_of_isOperator h).1, .inl (eq_of_isOperator h).2⟩

theorem Token.endsOperand_of_closing {t : Token} (h : t.isOperator ")" = true) : t.EndsOperand :=
  .inr ⟨(eq_of_isOperator h).1, .inr (eq_of_isOperator h).2⟩

/-- A token that is no keyword. -/
def Token.IsPlain (t : Token) : Prop := t.kind = .name → t.text ∉ Parser.keywords

/-- A token that begins an operand: no keyword, and no operator but a sign or a bracket. -/
structure Token.BeginsOperand (t : Token) : Prop where
  isPlain : t.IsPlain
  sign : t.kind = .operator → t.text = ['-'] ∨ t.text = ['(']

theorem Token.isPlain_of_kind {t : Token} (h : t.kind ≠ .name) : t.IsPlain :=
  fun hk => absurd hk h

theorem Token.beginsOperand_of_kind {t : Token} (hname : t.kind ≠ .name)
    (hoperator : t.kind ≠ .operator) : t.BeginsOperand where
  isPlain := isPlain_of_kind hname
  sign hk := absurd hk hoperator

theorem Token.EndsOperand.isPlain {t : Token} (h : t.EndsOperand) : t.IsPlain := by
  intro hk
  obtain h | ⟨h, -⟩ := h <;> rw [hk] at h <;> cases h

theorem Token.EndsOperand.kind_ne_string {t : Token} (h : t.EndsOperand) : t.kind ≠ .string := by
  intro hk
  obtain h | ⟨h, -⟩ := h <;> rw [hk] at h <;> cases h

/-! ### Outcomes of rules -/

namespace Parser

/-- An outcome of a rule for operands to which the grammar of expressions adds nothing: a refusal,
or a tree before a token that ends the operand. -/
inductive Settled {α : Type} : Except Refusal (α × List Token) → Prop
  | refused (e : Refusal) : Settled (.error e)
  | ended {a : α} {u : Token} {rest : List Token} (hu : u.EndsOperand) :
      Settled (.ok (a, u :: rest))

variable {α β : Type} {p : Parser α} {s : List Token} {o : Except Refusal (α × List Token)}

/-- What follows a rule with a settled outcome at most changes the value. -/
theorem Settled.bind_map (ho : Settled o) (h : p s = o) {f : α → Parser β} (g : α → β)
    (hf : ∀ a u rest, u.EndsOperand → f a (u :: rest) = .ok (g a, u :: rest)) :
    (p >>= f) s = o.map fun r => (g r.1, r.2) := by
  cases ho with
  | refused e => exact bind_error h
  | ended hu => exact (bind_ok h).trans (hf _ _ _ hu)

/-- What follows a rule with a settled outcome changes nothing. -/
theorem Settled.bind (ho : Settled o) (h : p s = o) {f : α → Parser α}
    (hf : ∀ a u rest, u.EndsOperand → f a (u :: rest) = .ok (a, u :: rest)) : (p >>= f) s = o := by
  rw [ho.bind_map h id hf]
  cases o <;> rfl

theorem settled_provided (right : Bool) (a : α) {u : Token} (hu : u.EndsOperand)
    (rest : List Token) : Settled (provided right a (u :: rest)) := by
  cases right with
  | false => exact .refused _
  | true => exact .ended hu

end Parser

namespace Expression

open Code.Parser

variable {rules : Rules} {t u : Token} {ts rest : List Token} {v : Tree}
  {o : Except Refusal (Tree × List Token)}

theorem atWord_of_isPlain (ht : t.IsPlain) (s : String) (hs : s.toList ∈ keywords) :
    atWord s (t :: ts) = .ok (false, t :: ts) := by
  have hfalse : (decide (t.kind = .name) && decide (t.text = s.toList)) = false := by
    rw [Bool.and_eq_false_iff, decide_eq_false_iff_not, decide_eq_false_iff_not]
    by_cases hk : t.kind = .name
    · exact .inr fun h => ht hk (h ▸ hs)
    · exact .inl hk
  exact congrArg (fun b => Except.ok (b, t :: ts)) hfalse

theorem atOperator_of_beginsOperand (ht : t.BeginsOperand) (op : String)
    (hop : op.toList ≠ ['-'] ∧ op.toList ≠ ['(']) :
    atOperator op (t :: ts) = .ok (false, t :: ts) := by
  have hfalse : t.isOperator op = false := by
    rw [Bool.eq_false_iff]
    intro h
    simp only [Token.isOperator, Bool.and_eq_true, decide_eq_true_eq] at h
    obtain hsign | hbracket := ht.sign h.1
    · exact hop.1 (h.2.symm.trans hsign)
    · exact hop.2 (h.2.symm.trans hbracket)
  exact congrArg (fun b => Except.ok (b, t :: ts)) hfalse

private theorem exists_atOperator (op : String) (ts : List Token) :
    ∃ b, atOperator op ts = .ok (b, ts) := by
  obtain _ | ⟨t, ts⟩ := ts
  · exact ⟨false, rfl⟩
  · exact ⟨t.isOperator op, rfl⟩

private theorem takeOperator_of_not {ops : List String}
    (ht : ¬(t.kind = .operator ∧ ops.any (t.text = ·.toList))) :
    takeOperator ops (t :: ts) = .ok (none, t :: ts) := by
  refine (bind_ok rfl).trans ?_
  simp only [List.head?_cons, if_neg ht]
  rfl

theorem takeIf_of_false {test : Parser Bool} (h : test (t :: ts) = .ok (false, t :: ts)) :
    takeIf test (t :: ts) = .ok (false, t :: ts) := (bind_ok h).trans rfl

/-! ### Nothing is added behind an operand -/

section

variable (ho : Settled o)
include ho

theorem operand_of_atom (h : rules .atom (t :: ts) = o) : operand rules (t :: ts) = o := by
  refine (bind_ok rfl).trans (ho.bind h fun v u rest hu => (Loops.stop ?_).loop)
  obtain ⟨kind, text, line, column⟩ := u
  obtain rfl | ⟨rfl, rfl | rfl⟩ := hu <;> rfl

omit ho in
theorem primary_of_operand (ht : t.IsPlain) (h : operand rules (t :: ts) = o) :
    primary rules (t :: ts) = o :=
  (bind_ok rfl).trans ((bind_ok (takeIf_of_false (atWord_of_isPlain ht _ (by decide)))).trans h)

theorem factor_of_primary (ht : ¬(t.kind = .operator ∧ ["+", "-", "~"].any (t.text = ·.toList)))
    (h : rules .primary (t :: ts) = o) : factor rules (t :: ts) = o := by
  have hsign : takeOperator ["+", "-", "~"] (t :: ts) = .ok (none, t :: ts) :=
    takeOperator_of_not ht
  refine (bind_ok rfl).trans ((bind_ok hsign).trans (ho.bind h fun v u rest hu => ?_))
  obtain ⟨kind, text, line, column⟩ := u
  obtain rfl | ⟨rfl, rfl | rfl⟩ := hu <;> rfl

private theorem operation_of_tighter {level : Nat} (hlevel : level < levels.length)
    (h : rules (.operation (level + 1)) (t :: ts) = o) : operation rules level (t :: ts) = o := by
  have hops : levels[level]? = some levels[level] := List.getElem?_eq_getElem hlevel
  have hnone : ∀ ops ∈ levels, ∀ op ∈ ops, op.toList ≠ [','] ∧ op.toList ≠ [')'] := by decide
  have hstop : ∀ (u : Token) rest, u.EndsOperand →
      takeOperator levels[level] (u :: rest) = .ok (none, u :: rest) := by
    refine fun u rest hu => takeOperator_of_not ?_
    rintro ⟨hk, hany⟩
    obtain ⟨op, hop, heq⟩ := List.any_eq_true.1 hany
    obtain ⟨hcomma, hclosing⟩ := hnone _ (List.getElem_mem hlevel) op hop
    obtain h | ⟨-, h | h⟩ := hu
    · rw [hk] at h
      cases h
    · exact hcomma ((of_decide_eq_true heq).symm.trans h)
    · exact hclosing ((of_decide_eq_true heq).symm.trans h)
  refine (bind_ok rfl).trans ?_
  rw [hops]
  exact ho.bind h fun v u rest hu => (Loops.stop ((bind_ok (hstop u rest hu)).trans rfl)).loop

private theorem comparison_of_operation (h : rules (.operation 0) (t :: ts) = o) :
    comparison rules (t :: ts) = o := by
  refine (bind_ok rfl).trans (ho.bind h fun v u rest hu => ?_)
  have hstop : takeComparison (u :: rest) = .ok (none, u :: rest) := by
    obtain ⟨kind, text, line, column⟩ := u
    obtain rfl | ⟨rfl, rfl | rfl⟩ := hu <;> cases rest <;> rfl
  exact (bind_ok (Loops.stop ((bind_ok hstop).trans rfl)).loop).trans rfl

omit ho in
private theorem inversion_of_comparison (ht : t.IsPlain) (h : rules .comparison (t :: ts) = o) :
    inversion rules (t :: ts) = o :=
  (bind_ok rfl).trans ((bind_ok (takeIf_of_false (atWord_of_isPlain ht _ (by decide)))).trans h)

private theorem connected_of_operand {w : String} (hw : w.toList ∈ keywords) {operand : Parser Tree}
    (h : operand (t :: ts) = o) : connected w operand (t :: ts) = o := by
  refine (bind_ok rfl).trans (ho.bind h fun v u rest hu => ?_)
  have hstop : takeIf (atWord w) (u :: rest) = .ok (false, u :: rest) :=
    takeIf_of_false (atWord_of_isPlain hu.isPlain w hw)
  exact (bind_ok (Loops.stop ((bind_ok hstop).trans rfl)).loop).trans rfl

private theorem expression_of_disjunction (ht : t.IsPlain) (h : rules .disjunction (t :: ts) = o) :
    expression rules (t :: ts) = o := by
  refine (bind_ok rfl).trans ((bind_ok (atWord_of_isPlain ht _ (by decide))).trans
    (ho.bind h fun v u rest hu => ?_))
  have hif : takeIf (atWord "if") (u :: rest) = .ok (false, u :: rest) :=
    takeIf_of_false (atWord_of_isPlain hu.isPlain _ (by decide))
  exact (bind_ok hif).trans rfl

/-- What the rule for factors makes of an operand is what the rule for expressions makes of it. -/
theorem parse_expression_of_factor (ht : t.IsPlain) {n : Nat} (h : parse n .factor (t :: ts) = o) :
    parse (n + 12) .expression (t :: ts) = o := by
  have hoperation : ∀ k ≤ 6, parse (n + 1 + k) (.operation (6 - k)) (t :: ts) = o := by
    intro k hk
    induction k with
    | zero => exact (bind_ok rfl).trans h
    | succ k ih =>
      have hlevel : 6 - (k + 1) < levels.length := by
        have hlen : levels.length = 6 := rfl
        omega
      refine operation_of_tighter ho hlevel ?_
      have hnext : 6 - (k + 1) + 1 = 6 - k := by omega
      rw [hnext]
      exact ih (by omega)
  have hcomparison : parse (n + 8) .comparison (t :: ts) = o :=
    comparison_of_operation ho (hoperation 6 (Nat.le_refl 6))
  have hinversion : parse (n + 9) .inversion (t :: ts) = o :=
    inversion_of_comparison ht hcomparison
  have hconjunction : parse (n + 10) .conjunction (t :: ts) = o :=
    connected_of_operand ho (by decide) hinversion
  have hdisjunction : parse (n + 11) .disjunction (t :: ts) = o :=
    connected_of_operand ho (by decide) hconjunction
  exact expression_of_disjunction ho ht hdisjunction

theorem factor_of_atom {n : Nat} (ht : t.IsPlain) (hkind : t.kind ≠ .operator)
    (h : parse n .atom (t :: ts) = o) : parse (n + 2) .factor (t :: ts) = o :=
  factor_of_primary ho (fun h => hkind h.1) (primary_of_operand ht (operand_of_atom ho h))

end

/-! ### Arguments -/

section

variable (hu : u.EndsOperand)
include hu

/-- No name with a value is read where a name ends the operand. -/
theorem exists_cons_of_operand (hname : isName t = true → ts = []) (op : String)
    (rest : List Token) (hcomma : op.toList ≠ [',']) (hclosing : op.toList ≠ [')']) :
    ∃ x xs, ts ++ u :: rest = x :: xs ∧ ¬(isName t = true ∧ x.isOperator op = true) := by
  obtain _ | ⟨x, ts⟩ := ts
  · refine ⟨u, rest, rfl, fun h => ?_⟩
    simp only [Token.isOperator, Bool.and_eq_true, decide_eq_true_eq] at h
    obtain hk | ⟨-, ht | ht⟩ := hu
    · rw [hk] at h
      cases h.2.1
    · exact hcomma (h.2.2.symm.trans ht)
    · exact hclosing (h.2.2.symm.trans ht)
  · exact ⟨x, ts ++ u :: rest, rfl, fun h => absurd (hname h.1) (List.cons_ne_nil x ts)⟩

theorem named_of_expression (hname : isName t = true → ts = [])
    (h : rules .expression (t :: (ts ++ u :: rest)) = o) :
    named rules (t :: (ts ++ u :: rest)) = o := by
  obtain ⟨x, xs, hx, hnot⟩ := exists_cons_of_operand hu hname ":=" rest (by decide) (by decide)
  rw [hx] at h ⊢
  refine (bind_ok rfl).trans ?_
  simp only [if_neg hnot, h]

theorem atClause_of_endsOperand : atClause (u :: rest) = .ok (false, u :: rest) := by
  obtain ⟨kind, text, line, column⟩ := u
  obtain rfl | ⟨rfl, rfl | rfl⟩ := hu <;> cases rest <;> rfl

private theorem argument_of_named (ht : t.BeginsOperand) (hname : isName t = true → ts = [])
    (ho : Settled o) (h : rules .named (t :: (ts ++ u :: rest)) = o) (vs : List Tree) :
    argument rules { positional := vs } (t :: (ts ++ u :: rest)) =
      o.map fun r => ({ positional := vs ++ [r.1] }, r.2) := by
  obtain ⟨x, xs, hx, hnot⟩ := exists_cons_of_operand hu hname "=" rest (by decide) (by decide)
  have hlook : ∀ op : String, op.toList ≠ ['-'] ∧ op.toList ≠ ['('] →
      atOperator op (t :: (ts ++ u :: rest)) = .ok (false, t :: (ts ++ u :: rest)) :=
    atOperator_of_beginsOperand ht
  have htable := takeIf_of_false (hlook "**" (by decide))
  have hstar := hlook "*" (by decide)
  refine (bind_ok rfl).trans ((bind_ok htable).trans ((bind_ok hstar).trans ?_))
  rw [hx] at h ⊢
  refine (bind_ok rfl).trans ?_
  simp only [if_neg hnot]
  exact ho.bind_map h (fun v => ({ positional := vs ++ [v] } : Arguments)) fun v u rest _ => rfl

end

/-- Tokens that are read as an argument of a call, or refused. -/
structure IsArgument (rules : Rules) (ts : List Token) (right : Bool) (v : Tree) : Prop where
  begins : ∀ rest, atOperator ")" (ts ++ rest) = .ok (false, ts ++ rest)
  read : ∀ vs u rest, u.EndsOperand → argument rules { positional := vs } (ts ++ u :: rest) =
    provided right { positional := vs ++ [v] } (u :: rest)

/-- Tokens that are read as arguments of a call, commas between them, or refused. -/
inductive AreArguments (rules : Rules) : List Token → Bool → List Tree → Prop
  | one {ts : List Token} {right : Bool} {v : Tree} (h : IsArgument rules ts right v) :
      AreArguments rules ts right [v]
  | more {ts us : List Token} {c : Token} {right others : Bool} {v : Tree} {vs : List Tree}
      (h : IsArgument rules ts right v) (hc : c.isOperator "," = true)
      (hrest : AreArguments rules us others vs) :
      AreArguments rules (ts ++ c :: us) (right && others) (v :: vs)

theorem isArgument_of_factor {right : Bool} {n : Nat} (ht : t.BeginsOperand)
    (hname : isName t = true → ts = [])
    (h : ∀ u rest, u.EndsOperand →
      parse n .factor (t :: (ts ++ u :: rest)) = provided right v (u :: rest)) :
    IsArgument (parse (n + 13)) (t :: ts) right v where
  begins rest := atOperator_of_beginsOperand ht _ (by decide)
  read vs u rest hu := by
    have ho := settled_provided right v hu rest
    have hexpression := parse_expression_of_factor ho ht.isPlain (h u rest hu)
    exact (argument_of_named hu ht hname ho (named_of_expression hu hname hexpression) vs).trans
      (map_provided right v (u :: rest) fun v => ({ positional := vs ++ [v] } : Arguments))

theorem isArgument_of_atom {right : Bool} {n : Nat} (ht : t.BeginsOperand)
    (hkind : t.kind ≠ .operator)
    (h : ∀ u rest, u.EndsOperand →
      parse n .atom (t :: u :: rest) = provided right v (u :: rest)) :
    IsArgument (parse (n + 15)) [t] right v :=
  isArgument_of_factor ht (fun _ => rfl) fun u rest hu =>
    factor_of_atom (settled_provided right v hu rest) ht.isPlain hkind (h u rest hu)

/-! ### Lists of arguments -/

/-- The loop over the arguments of a call goes on by one argument and the comma behind it. -/
def argumentStep (rules : Rules) : Arguments × Bool → Parser (Option (Arguments × Bool))
  | (a, more) => do
    if !more ∨ (← atOperator ")") then return none
    else
      let a ← argument rules a
      if (← atClause) ∧ !a.named ∧ a.positional.length = 1 then return some (a, false)
      else
        let more ← takeIf (atOperator ",")
        if !more ∧ !(← atOperator ")") then refuse
        else return some (a, more)

private theorem argumentStep_refused (h : IsArgument rules ts false v) (hu : u.EndsOperand)
    (done : List Tree) : argumentStep rules ({ positional := done }, true) (ts ++ u :: rest) =
      .error .unexpected :=
  (bind_ok (h.begins _)).trans (bind_error (h.read done _ rest hu))

/-- An argument and the comma behind it. -/
theorem argumentStep_comma {a a' : Arguments} {c : Token}
    (hbegins : atOperator ")" ts = .ok (false, ts))
    (h : argument rules a ts = .ok (a', c :: rest)) (hc : c.isOperator "," = true) :
    argumentStep rules (a, true) ts = .ok (some (a', true), rest) := by
  have hends := Token.endsOperand_of_comma hc
  obtain ⟨b, hb⟩ := exists_atOperator ")" rest
  obtain ⟨kind, text, line, column⟩ := c
  obtain ⟨rfl, rfl⟩ := Token.eq_of_isOperator hc
  refine (bind_ok hbegins).trans ((bind_ok h).trans
    ((bind_ok (atClause_of_endsOperand hends)).trans ?_))
  refine (bind_ok (t := rest) (a := true) rfl).trans ((bind_ok hb).trans ?_)
  simp
  rfl

theorem argumentStep_more {c : Token} (h : IsArgument rules ts true v)
    (hc : c.isOperator "," = true) (done : List Tree) :
    argumentStep rules ({ positional := done }, true) (ts ++ c :: rest) =
      .ok (some ({ positional := done ++ [v] }, true), rest) :=
  argumentStep_comma (h.begins _) (h.read done c rest (Token.endsOperand_of_comma hc)) hc

theorem argumentStep_last {c : Token} (h : IsArgument rules ts true v)
    (hc : c.isOperator ")" = true) (done : List Tree) :
    argumentStep rules ({ positional := done }, true) (ts ++ c :: rest) =
      .ok (some ({ positional := done ++ [v] }, false), c :: rest) := by
  have hends := Token.endsOperand_of_closing hc
  obtain ⟨kind, text, line, column⟩ := c
  obtain ⟨rfl, rfl⟩ := Token.eq_of_isOperator hc
  exact (bind_ok (h.begins _)).trans ((bind_ok (h.read done _ rest hends)).trans
    ((bind_ok (atClause_of_endsOperand hends)).trans rfl))

theorem argumentStep_done (a : Arguments) :
    argumentStep rules (a, false) ts = .ok (none, ts) := by
  obtain ⟨b, hb⟩ := exists_atOperator ")" ts
  exact (bind_ok hb).trans (by simp; rfl)

theorem IsArgument.length_pos {right : Bool} (h : IsArgument rules ts right v) :
    0 < ts.length := by
  obtain _ | ⟨t, ts⟩ := ts
  · cases h.begins [⟨.operator, [')'], 0, 0⟩]
  · exact Nat.succ_pos _

/-- The loop over the arguments reads them all, or stops at the first that is refused. -/
theorem loops_of_areArguments {right : Bool} {vs : List Tree} {c : Token}
    (h : AreArguments rules ts right vs) (hc : c.isOperator ")" = true) (done : List Tree) :
    Loops (argumentStep rules) ({ positional := done }, true) (ts ++ c :: rest)
      (provided right ({ positional := done ++ vs }, false) (c :: rest)) := by
  induction h generalizing done with
  | @one ts right v h =>
    cases right with
    | false => exact .refuse (argumentStep_refused h (Token.endsOperand_of_closing hc) done)
    | true =>
      have hpos := h.length_pos
      refine .more (argumentStep_last h hc done) ?_ (.stop (argumentStep_done _))
      simp only [List.length_append, List.length_cons]
      omega
  | @more ts us d right others v vs h hd _ ih =>
    rw [List.append_assoc, List.cons_append]
    cases right with
    | false => exact .refuse (argumentStep_refused h (Token.endsOperand_of_comma hd) done)
    | true =>
      refine .more (argumentStep_more h hd done) ?_ (by simpa using ih (done ++ [v]))
      simp only [List.length_append, List.length_cons]
      omega

theorem arguments_of_areArguments {right : Bool} {vs : List Tree} {c : Token}
    (h : AreArguments rules ts right vs) (hc : c.isOperator ")" = true) :
    arguments rules true (ts ++ c :: rest) = provided right vs rest := by
  have hends := Token.endsOperand_of_closing hc
  refine bind_provided (loops_of_areArguments h hc []).loop
    ((bind_ok (atClause_of_endsOperand hends)).trans ?_)
  obtain ⟨kind, text, line, column⟩ := c
  obtain ⟨rfl, rfl⟩ := Token.eq_of_isOperator hc
  simp
  rfl

/-! ### Names -/

/-- The tree of a name on a line. -/
def nameTree (line : Nat) (id : Text) : Tree := .node (.name id) line []

theorem kind_of_isName (ht : isName t = true) : t.kind = .name := by
  simp only [isName, Bool.and_eq_true, decide_eq_true_eq] at ht
  exact ht.1

theorem beginsOperand_of_isName (ht : isName t = true) : t.BeginsOperand where
  isPlain _ := by
    simp only [isName, Bool.and_eq_true, Bool.not_eq_true', List.contains_eq_mem,
      decide_eq_false_iff_not] at ht
    exact ht.2
  sign hk := by
    rw [kind_of_isName ht] at hk
    cases hk

theorem atom_of_isName (ht : isName t = true) :
    atom rules (t :: ts) = .ok (nameTree t.line t.identifier, ts) := by
  refine (bind_ok rfl).trans ?_
  simp only [List.head?_cons, kind_of_isName ht, ht]
  rfl

/-! ### Calls of members -/

/-- The tree of the call of a member of what a name stands for. -/
def memberCall (line : Nat) (object member : Text) (args : List Tree) : Tree :=
  .node .call line (.node (.attribute member) line [nameTree line object] :: args)

theorem takeIf_of_isOperator {op : String} (ht : t.isOperator op = true) :
    takeIf (atOperator op) (t :: ts) = .ok (true, ts) :=
  (bind_ok (congrArg (fun b => Except.ok (b, t :: ts)) ht)).trans rfl

theorem name_of_isName (ht : isName t = true) : name (t :: ts) = .ok (t.identifier, ts) := by
  refine (bind_ok rfl).trans ?_
  simp only [List.head?_cons, ht, if_true]
  rfl

/-- The call of a member of what a name stands for. -/
theorem operand_call {g d f c p : Token} {as : List Token} {right : Bool} {vs : List Tree}
    (hd : d.isOperator "." = true) (hf : isName f = true)
    (hp : p.isOperator "(" = true)
    (harguments : arguments rules true (as ++ c :: u :: rest) = provided right vs (u :: rest))
    (hu : u.EndsOperand)
    (hatom : ∀ ts, rules .atom (g :: ts) = .ok (nameTree g.line g.identifier, ts)) :
    operand rules (g :: d :: f :: p :: (as ++ c :: u :: rest)) =
      provided right (memberCall g.line g.identifier f.identifier vs) (u :: rest) := by
  have hpoint : takeIf (atOperator ".") (p :: (as ++ c :: u :: rest)) =
      .ok (false, p :: (as ++ c :: u :: rest)) := by
    obtain ⟨kind, text, line, column⟩ := p
    obtain ⟨rfl, rfl⟩ := Token.eq_of_isOperator hp
    rfl
  refine (bind_ok rfl).trans ((bind_ok (hatom _)).trans (Loops.loop ?_))
  refine .more ((bind_ok (takeIf_of_isOperator hd)).trans ((bind_ok (name_of_isName hf)).trans rfl))
    ?_ ?_
  · simp
  cases right with
  | false =>
    exact .refuse ((bind_ok hpoint).trans ((bind_ok (takeIf_of_isOperator hp)).trans
      (bind_error harguments)))
  | true =>
    refine .more ((bind_ok hpoint).trans ((bind_ok (takeIf_of_isOperator hp)).trans
      ((bind_ok harguments).trans rfl))) ?_ ?_
    · simp
      omega
    refine .stop ?_
    obtain ⟨kind, text, line, column⟩ := u
    obtain rfl | ⟨rfl, rfl | rfl⟩ := hu <;> rfl

/-! ### Statements of one expression -/

theorem expressions_of_expression {right : Bool} (ht : t.BeginsOperand) (hu : u.kind = .newline)
    (h : rules .expression (t :: ts) = provided right v (u :: rest)) :
    expressions rules (t :: ts) = provided right v (u :: rest) := by
  have hstar : takeIf (atOperator "*") (t :: ts) = .ok (false, t :: ts) :=
    takeIf_of_false (atOperator_of_beginsOperand ht _ (by decide))
  have hitem : starredOr rules .expression (t :: ts) = provided right v (u :: rest) :=
    (bind_ok rfl).trans ((bind_ok hstar).trans h)
  obtain ⟨kind, text, line, column⟩ := u
  cases hu
  have hitems : commaSeparated (starredOr rules .expression) begins (t :: ts) =
      provided right ([v], false) (⟨.newline, text, line, column⟩ :: rest) :=
    bind_provided hitem (Loops.stop rfl).loop
  exact (bind_ok rfl).trans (bind_provided hitems rfl)

end Expression

namespace Statement

open Code.Parser Expression

variable {rules : Rules} {t u : Token} {ts rest : List Token} {v : Tree} {right : Bool}

private theorem assignment_of_expression (ht : t.BeginsOperand) (hu : u.kind = .newline)
    (h : rules.expr .expressions (t :: ts) = provided right v (u :: rest)) :
    assignment rules (t :: ts) = provided right (.node .expression t.line [v]) (u :: rest) := by
  have hvalue : value rules (t :: ts) = provided right v (u :: rest) :=
    (bind_ok (atWord_of_isPlain ht.isPlain _ (by decide))).trans h
  obtain ⟨kind, text, line, column⟩ := u
  cases hu
  have hcolon : atOperator ":" (⟨.newline, text, line, column⟩ :: rest) =
      .ok (false, ⟨.newline, text, line, column⟩ :: rest) := rfl
  have haugmented : takeOperator augmentations (⟨.newline, text, line, column⟩ :: rest) =
      .ok (none, ⟨.newline, text, line, column⟩ :: rest) := rfl
  exact (bind_ok rfl).trans (bind_provided hvalue ((bind_ok hcolon).trans
    ((bind_ok haugmented).trans ((bind_ok (Loops.stop rfl).loop).trans rfl))))

theorem simple_of_assignment (ht : t.IsPlain) :
    simple rules (t :: ts) = assignment rules (t :: ts) := by
  have hword : ∀ s : String, s.toList ∈ keywords →
      takeIf (atWord s) (t :: ts) = .ok (false, t :: ts) := fun s hs =>
    takeIf_of_false (atWord_of_isPlain ht s hs)
  unfold simple
  refine (bind_ok rfl).trans ?_
  iterate 11 refine (bind_ok (hword _ (by decide))).trans ?_
  rfl

private theorem simpleLine_of_simple (hu : u.kind = .newline)
    (h : simple rules (t :: ts) = provided right v (u :: rest)) :
    simpleLine rules (t :: ts) = provided right [v] rest := by
  obtain ⟨kind, text, line, column⟩ := u
  cases hu
  exact bind_provided h ((bind_ok (Loops.stop rfl).loop).trans ((bind_ok rfl).trans rfl))

theorem statement_of_simpleLine (ht : t.BeginsOperand) (hmatch : t.text ≠ "match".toList) :
    statement rules (t :: ts) = simpleLine rules (t :: ts) := by
  have hword : ∀ s : String, s.toList ∈ keywords →
      takeIf (atWord s) (t :: ts) = .ok (false, t :: ts) := fun s hs =>
    takeIf_of_false (atWord_of_isPlain ht.isPlain s hs)
  have hdecorated : atOperator "@" (t :: ts) = .ok (false, t :: ts) :=
    atOperator_of_beginsOperand ht _ (by decide)
  have hsoft : atWord "match" (t :: ts) = .ok (false, t :: ts) := by
    have hfalse : (decide (t.kind = .name) && decide (t.text = "match".toList)) = false := by
      rw [decide_eq_false hmatch, Bool.and_false]
    exact congrArg (fun b => Except.ok (b, t :: ts)) hfalse
  refine (bind_ok rfl).trans ?_
  iterate 8 refine (bind_ok (hword _ (by decide))).trans ?_
  exact (bind_ok hdecorated).trans ((bind_ok hsoft).trans rfl)

/-- A statement that is one expression. -/
theorem parse_expression {expr : Goal → Parser Tree} {pattern : PatternGoal → Parser Tree} {m : Nat}
    (ht : t.BeginsOperand) (hmatch : t.text ≠ "match".toList) (hu : u.kind = .newline)
    (h : expr .expressions (t :: ts) = provided right v (u :: rest)) :
    parse expr pattern (m + 1) .statement (t :: ts) =
      provided right [.node .expression t.line [v]] rest :=
  (statement_of_simpleLine ht hmatch).trans
    (simpleLine_of_simple hu ((simple_of_assignment ht.isPlain).trans
      (assignment_of_expression ht hu h)))

/-- A statement that calls a member of what a name stands for. -/
theorem parse_call {pattern : PatternGoal → Parser Tree} {n m : Nat} {g d f c p : Token}
    {as : List Token} {vs : List Tree} (hg : isName g = true) (hmatch : g.text ≠ "match".toList)
    (hd : d.isOperator "." = true) (hf : isName f = true) (hp : p.isOperator "(" = true)
    (harguments : arguments (Expression.parse (n + 1)) true (as ++ c :: u :: rest) =
      provided right vs (u :: rest))
    (hu : u.kind = .newline) :
    parse (Expression.parse (n + 16)) pattern (m + 1) .statement
        (g :: d :: f :: p :: (as ++ c :: u :: rest)) =
      provided right [.node .expression g.line [memberCall g.line g.identifier f.identifier vs]]
        rest := by
  have hbegins := beginsOperand_of_isName hg
  have hends : u.EndsOperand := .inl hu
  have hsettled :=
    settled_provided right (memberCall g.line g.identifier f.identifier vs) hends rest
  have hkind : g.kind ≠ .operator := by
    rw [kind_of_isName hg]
    decide
  have hatom : ∀ ts, Expression.parse (n + 1) .atom (g :: ts) =
      .ok (nameTree g.line g.identifier, ts) := fun ts => atom_of_isName hg
  have hprimary : Expression.parse (n + 2) .primary (g :: d :: f :: p :: (as ++ c :: u :: rest)) =
      provided right (memberCall g.line g.identifier f.identifier vs) (u :: rest) :=
    primary_of_operand hbegins.isPlain (operand_call hd hf hp harguments hends hatom)
  have hfactor : Expression.parse (n + 3) .factor (g :: d :: f :: p :: (as ++ c :: u :: rest)) =
      provided right (memberCall g.line g.identifier f.identifier vs) (u :: rest) :=
    factor_of_primary hsettled (fun h => hkind h.1) hprimary
  have hexpression := parse_expression_of_factor hsettled hbegins.isPlain hfactor
  have hexpressions : Expression.parse (n + 16) .expressions
      (g :: d :: f :: p :: (as ++ c :: u :: rest)) =
        provided right (memberCall g.line g.identifier f.identifier vs) (u :: rest) :=
    expressions_of_expression hbegins hu hexpression
  exact parse_expression hbegins hmatch hu hexpressions

/-! ### Blocks -/

/-- The loop over the statements of a block goes on by one statement. -/
def statementStep (rules : Rules) (done : List Tree) : Parser (Option (List Tree)) := do
  if (← atEnd) ∨ (← atKind .dedent) then return none
  else return some (done ++ (← rules.statement .statement))

variable {done vs ws : List Tree} {us : List Token} {others : Bool}

/-- The loop goes on by one statement, or stops if that is refused. -/
theorem loops_statement (ht : t.kind ≠ .dedent)
    (h : rules.statement .statement (t :: ts) = provided right vs us)
    (hlt : right = true → us.length < ts.length + 1)
    (hrest : Loops (statementStep rules) (done ++ vs) us (provided others ws rest)) :
    Loops (statementStep rules) done (t :: ts) (provided (right && others) ws rest) := by
  have hkind : atKind .dedent (t :: ts) = .ok (false, t :: ts) :=
    congrArg (fun b => Except.ok (b, t :: ts)) (decide_eq_false ht)
  have hend : atEnd (t :: ts) = .ok (false, t :: ts) := rfl
  cases right with
  | false => exact .refuse ((bind_ok hend).trans ((bind_ok hkind).trans (bind_error h)))
  | true =>
    exact .more ((bind_ok hend).trans ((bind_ok hkind).trans ((bind_ok h).trans rfl))) (hlt rfl)
      hrest

/-- The loop goes on by the tokens of one statement. -/
theorem loops_append {as : List Token} (hhead : ∃ t bs, as = t :: bs ∧ t.kind ≠ .dedent)
    (h : rules.statement .statement (as ++ us) = .ok (vs, us))
    (hrest : Loops (statementStep rules) (done ++ vs) us (provided others ws rest)) :
    Loops (statementStep rules) done (as ++ us) (provided others ws rest) := by
  obtain ⟨t, bs, rfl, ht⟩ := hhead
  have hlt : us.length < (bs ++ us).length + 1 := by
    rw [List.length_append]
    omega
  have hone : rules.statement .statement (t :: (bs ++ us)) = provided true vs us := h
  exact loops_statement ht hone (fun _ => hlt) hrest

theorem loops_dedent (ht : t.kind = .dedent) :
    Loops (statementStep rules) done (t :: ts) (provided true done (t :: ts)) := by
  obtain ⟨kind, text, line, column⟩ := t
  cases ht
  exact .stop rfl

/-- A block on lines of its own. -/
theorem block_of_loops {n d : Token} (hn : n.kind = .newline) (ht : t.kind = .indent)
    (hd : d.kind = .dedent)
    (h : Loops (statementStep rules) [] ts (provided right vs (d :: rest))) :
    block rules (n :: t :: ts) = provided right vs rest := by
  obtain ⟨kind, text, line, column⟩ := n
  obtain ⟨kind', text', line', column'⟩ := t
  obtain ⟨kind'', text'', line'', column''⟩ := d
  cases hn
  cases ht
  cases hd
  have hnewline : takeIf (atKind .newline) (⟨.newline, text, line, column⟩ ::
      ⟨.indent, text', line', column'⟩ :: ts) =
        .ok (true, ⟨.indent, text', line', column'⟩ :: ts) := rfl
  have hindent : atKind .indent (⟨.indent, text', line', column'⟩ :: ts) =
      .ok (true, ⟨.indent, text', line', column'⟩ :: ts) := rfl
  exact (bind_ok hnewline).trans ((bind_ok hindent).trans ((bind_ok rfl).trans
    (bind_provided h.loop ((bind_ok rfl).trans rfl))))

end Statement

end Code

end ServerPages
