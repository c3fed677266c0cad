import ServerPages.Proofs.Code.Edge.Forms

/-!
# Values that no operation makes

A rule of the grammar makes an operation of what tighter rules give, or hands on what a tighter rule
makes of the same tokens (`Passes`). So a value that is no operation is an operand
(`exists_operand`). If it is a text, it was made of strings, or something in brackets stands at its
end (`strings_or_closed_of_text`).
-/

namespace ServerPages

namespace Code

/-- What the rules above that for operands make of what tighter rules give. -/
def Shape.isOperation : Shape → Bool
  | .named | .lambda | .conditional | .connective _ | .comparison _ | .binary _ | .unary _
  | .awaited | .tuple | .starred => true
  | _ => false

/-- A value that a rule above that for operands has made. -/
def Tree.IsOperation (t : Tree) : Prop := t.shape.isOperation = true

private theorem Tree.isOperation_node {s : Shape} {l : Nat} {ps : List Tree} (h : s.isOperation = true) :
    (node s l ps).IsOperation := h

namespace Parser

variable {α β : Type} {step : α → Parser (Option α)} {a v : α} {s r : List Token} {n : Nat}

theorem line_eq (s : List Token) : line s = .ok ((s.head?.map Token.line).getD 0, s) := by
  cases s <;> rfl

/-! ### Loops that have come to an end -/

/-- A loop stops where it stands, or goes on by a step. -/
theorem iterate_cases (h : iterate step n a s = .ok (v, r)) :
    v = a ∧ (n = 0 ∧ r = s ∨ step a s = .ok (none, r)) ∨
      ∃ b t m, n = m + 1 ∧ step a s = .ok (some b, t) ∧ iterate step m b t = .ok (v, r) := by
  cases n with
  | zero =>
    obtain ⟨rfl, rfl⟩ := Prod.mk.inj (Except.ok.inj h)
    exact .inl ⟨rfl, .inl ⟨rfl, rfl⟩⟩
  | succ n =>
    obtain ⟨o, t, ho, hrest⟩ := exists_of_bind h
    cases o with
    | none =>
      obtain ⟨rfl, rfl⟩ := Prod.mk.inj (Except.ok.inj hrest)
      exact .inl ⟨rfl, .inr ho⟩
    | some b => exact .inr ⟨b, t, n, rfl, ho, hrest⟩

private theorem iterate_of_some {b : α} {t : List Token} (h : step a s = .ok (some b, t)) :
    iterate step (n + 1) a s = iterate step n b t := bind_ok h

theorem loop_of_some {b : α} {t : List Token} (h : step a s = .ok (some b, t)) :
    loop a step s = iterate step s.length b t := iterate_of_some h

theorem gives_isSome (a : α) :
    Gives (fun o => o.isSome = true) (Pure.pure (some a) : Parser (Option α)) := .pure rfl

/-- A parser that takes no token where it gives nothing. -/
def Stays (p : Parser (Option α)) : Prop :=
  ∀ ⦃s r : List Token⦄, p s = .ok (none, r) → r = s

theorem stays_none : Stays (pure none : Parser (Option α)) := by
  intro s r h
  exact (Prod.mk.inj (Except.ok.inj h)).2.symm

theorem Stays.takeIf {e : Bool} {g : Token → Bool} {test : Parser Bool}
    {k : Bool → Parser (Option α)} (h : Sees e test g)
    (htrue : Gives (fun o => o.isSome = true) (k true)) (hfalse : Stays (k false)) :
    Stays (takeIf test >>= k) := by
  intro s r hnone
  obtain ⟨t, ts, rfl, -, htake⟩ | ⟨-, htake⟩ := h.takeIf_cases s
  · exact absurd (htrue ((bind_ok htake).symm.trans hnone)) nofun
  · exact hfalse ((bind_ok htake).symm.trans hnone)

theorem Stays.bind {p : Parser (Option α)} {k : Option α → Parser (Option β)} (hp : Stays p)
    (hnone : Stays (k none)) (hsome : ∀ a, Gives (fun o => o.isSome = true) (k (some a))) :
    Stays (p >>= k) := by
  intro s r h
  obtain ⟨o, t, ho, hrest⟩ := exists_of_bind h
  cases o with
  | none => rw [hnone hrest, hp ho]
  | some a => exact absurd (hsome a hrest) nofun

private theorem stays_takeOperator (ops : List String) : Stays (Expression.takeOperator ops) := by
  intro s r h
  obtain ⟨t, ts, rfl, htake⟩ | htake := (Expression.takes_takeOperator ops).cases s
  · cases htake.symm.trans h
  · exact (Prod.mk.inj (Except.ok.inj (htake.symm.trans h))).2.symm

/-- A loop leaves its value and the tokens as they are, or a step has made the value. -/
theorem eq_or_of_iterate {I Q : α → Prop} (hstay : ∀ a, Stays (step a))
    (hstep : ∀ a, I a → Gives (fun o => ∀ b ∈ o, I b ∧ Q b) (step a)) (ha : I a)
    (h : iterate step n a s = .ok (v, r)) : v = a ∧ r = s ∨ Q v := by
  induction n generalizing a s with
  | zero =>
    obtain ⟨rfl, rfl⟩ := Prod.mk.inj (Except.ok.inj h)
    exact .inl ⟨rfl, rfl⟩
  | succ n ih =>
    obtain ⟨rfl, ⟨hn, -⟩ | hstop⟩ | ⟨b, t, m, hm, hb, hrest⟩ := iterate_cases h
    · cases hn
    · exact .inl ⟨rfl, hstay _ hstop⟩
    · obtain rfl : n = m := Nat.succ.inj hm
      obtain ⟨hI, hQ⟩ := hstep a ha hb b rfl
      obtain ⟨rfl, -⟩ | hv := ih hI hrest
      · exact .inr hQ
      · exact .inr hv

theorem eq_or_of_loop {I Q : α → Prop} (hstay : ∀ a, Stays (step a))
    (hstep : ∀ a, I a → Gives (fun o => ∀ b ∈ o, I b ∧ Q b) (step a)) (ha : I a)
    (h : loop a step s = .ok (v, r)) : v = a ∧ r = s ∨ Q v :=
  eq_or_of_iterate hstay hstep ha h

theorem Gives.some {P : α → Prop} (h : P a) :
    Gives (fun o => ∀ b ∈ o, P b) (Pure.pure (some a) : Parser (Option α)) :=
  .pure (by simpa using h)

theorem Gives.none {P : α → Prop} :
    Gives (fun o => ∀ b ∈ o, P b) (Pure.pure none : Parser (Option α)) :=
  .pure nofun

end Parser

namespace Expression

open Code.Parser

/-! ### Rules that hand on what a tighter rule makes -/

/-- What is made of tokens is an operation, or what another parser makes of them. -/
def Passes (p q : Parser Tree) : Prop :=
  ∀ ⦃s : List Token⦄ ⦃v : Tree⦄ ⦃r : List Token⦄, p s = .ok (v, r) →
    v.IsOperation ∨ q s = .ok (v, r)

/-- What stands behind a value makes an operation of it, or leaves it and the tokens as they are. -/
def Leaves (a : Tree) (p : Parser Tree) : Prop :=
  ∀ ⦃s : List Token⦄ ⦃v : Tree⦄ ⦃r : List Token⦄, p s = .ok (v, r) → v.IsOperation ∨ v = a ∧ r = s

variable {p q : Parser Tree} {f : Tree → Parser Tree} {a : Tree} {e : Bool} {g : Token → Bool}
  {test : Parser Bool} {k : Bool → Parser Tree}

theorem Passes.refl (p : Parser Tree) : Passes p p := fun _ _ _ h => .inr h

private theorem Passes.of_gives (h : Gives Tree.IsOperation p) : Passes p q := fun _ _ _ hv => .inl (h hv)

theorem Passes.line {f : Nat → Parser Tree} (h : ∀ l, Passes (f l) q) :
    Passes (Parser.line >>= f) q := by
  intro s v r hv
  exact h _ ((bind_ok (line_eq s)).symm.trans hv)

theorem Passes.look (h : Sees e test g) (hk : ∀ b, Passes (k b) q) : Passes (test >>= k) q := by
  intro s v r hv
  obtain ⟨b, hb⟩ := h.exists_eq s
  exact hk b ((bind_ok hb).symm.trans hv)

theorem Passes.takeIf (h : Sees e test g) (htrue : Gives Tree.IsOperation (k true))
    (hfalse : Passes (k false) q) : Passes (takeIf test >>= k) q := by
  intro s v r hv
  obtain ⟨t, ts, rfl, -, htake⟩ | ⟨-, htake⟩ := h.takeIf_cases s
  · exact .inl (htrue ((bind_ok htake).symm.trans hv))
  · exact hfalse ((bind_ok htake).symm.trans hv)

theorem Passes.option {α : Type} {p : Parser (Option α)} {k : Option α → Parser Tree}
    (hp : Stays p) (hnone : Passes (k none) q) (hsome : ∀ a, Gives Tree.IsOperation (k (some a))) :
    Passes (p >>= k) q := by
  intro s v r hv
  obtain ⟨o, t, ho, hrest⟩ := exists_of_bind hv
  cases o with
  | none =>
    obtain rfl := hp ho
    exact hnone hrest
  | some a => exact .inl (hsome a hrest)

theorem Passes.bind (h : ∀ a, Leaves a (f a)) : Passes (p >>= f) p := by
  intro s v r hv
  obtain ⟨a, t, ha, hv⟩ := exists_of_bind hv
  obtain hoperation | ⟨rfl, rfl⟩ := h a hv
  · exact .inl hoperation
  · exact .inr ha

theorem Leaves.pure (a : Tree) : Leaves a (Pure.pure a) := by
  intro s v r hv
  obtain ⟨rfl, rfl⟩ := Prod.mk.inj (Except.ok.inj hv)
  exact .inr ⟨rfl, rfl⟩

theorem Leaves.takeIf (h : Sees e test g) (htrue : Gives Tree.IsOperation (k true))
    (hfalse : Leaves a (k false)) : Leaves a (takeIf test >>= k) := by
  intro s v r hv
  obtain ⟨t, ts, rfl, -, htake⟩ | ⟨-, htake⟩ := h.takeIf_cases s
  · exact .inl (htrue ((bind_ok htake).symm.trans hv))
  · exact hfalse ((bind_ok htake).symm.trans hv)

/-- A loop whose steps make operations. -/
theorem Leaves.loop {step : Tree → Parser (Option Tree)} (hstay : ∀ a, Stays (step a))
    (hstep : ∀ a, Gives (fun o => ∀ b ∈ o, b.IsOperation) (step a)) (a : Tree) :
    Leaves a (Parser.loop a step) := by
  intro s v r hv
  have hstep' : ∀ a, True → Gives (fun o => ∀ b ∈ o, True ∧ b.IsOperation) (step a) :=
    fun a _ => (hstep a).imp fun o ho b hb => ⟨trivial, ho b hb⟩
  exact (eq_or_of_loop hstay hstep' trivial hv).symm

/-- A loop from whose value an operation is made if it has gone on. -/
theorem Leaves.loop_bind {α : Type} {step : α → Parser (Option α)} {x : α} {make : α → Tree}
    {I Q : α → Prop} (hstay : ∀ x, Stays (step x))
    (hstep : ∀ x, I x → Gives (fun o => ∀ y ∈ o, I y ∧ Q y) (step x)) (hx : I x)
    (hmake : ∀ y, Q y → (make y).IsOperation) (ha : make x = a) :
    Leaves a (Parser.loop x step >>= fun y => Pure.pure (make y)) := by
  intro s v r hv
  obtain ⟨y, t, hy, hv⟩ := exists_of_bind hv
  obtain ⟨rfl, rfl⟩ := Prod.mk.inj (Except.ok.inj hv)
  obtain ⟨rfl, rfl⟩ | hQ := eq_or_of_loop hstay hstep hx hy
  · exact .inr ⟨ha, rfl⟩
  · exact .inl (hmake y hQ)

variable {rules : Rules}

private theorem passes_named : Passes (named rules) (rules .expression) := by
  intro s v r hv
  obtain ⟨t, u, us, rfl, -, hpair⟩ | hexpression := pairs_named.cases s
  · have hrest : Gives Tree.IsOperation (namedRest rules t) :=
      .after fun _ => .pure (Tree.isOperation_node rfl)
    exact .inl (hrest (hpair.symm.trans hv))
  · exact .inr (hexpression.symm.trans hv)

private theorem passes_expression : Passes (expression rules) (rules .disjunction) := by
  refine .line fun l => .look (sees_word "lambda") fun b => ?_
  cases b with
  | true =>
    exact .of_gives (.after fun l => .after fun _ => .after fun _ => .after fun _ => .after fun _ =>
      .pure (Tree.isOperation_node rfl))
  | false =>
    exact .bind fun body => .takeIf (sees_word "if")
      (.after fun _ => .after fun _ => .after fun _ => .pure (Tree.isOperation_node rfl)) (.pure body)

private theorem passes_connected (w : String) (operand : Parser Tree) :
    Passes (connected w operand) operand := by
  refine .line fun l => .bind fun first => ?_
  refine .loop_bind (I := fun operands => 1 ≤ operands.length)
    (Q := fun operands => 2 ≤ operands.length)
    (fun operands => ?_) (fun operands hoperands => .after fun b => ?_) (Nat.le_refl 1)
    (fun operands hoperands => ?_) rfl
  · exact .takeIf (sees_word w) (.after fun _ => gives_isSome _) stays_none
  · cases b with
    | true =>
      refine .after fun operand => .some ?_
      rw [List.length_append, List.length_singleton]
      omega
    | false => exact .none
  · obtain _ | ⟨x, _ | ⟨y, operands⟩⟩ := operands
    · exact absurd hoperands (by simp)
    · exact absurd hoperands (by simp)
    · exact Tree.isOperation_node rfl

private theorem passes_inversion : Passes (inversion rules) (rules .comparison) :=
  .line fun _ => .takeIf (sees_word "not") (.after fun _ => .pure (Tree.isOperation_node rfl))
    (.refl _)

private theorem stays_takeComparison : Stays takeComparison := by
  refine .bind (stays_takeOperator _) ?_ fun op => gives_isSome op
  refine .takeIf (sees_word "in") (gives_isSome _)
    (.takeIf (sees_word "is") (.after fun b => ?_) ?_)
  · cases b <;> exact gives_isSome _
  · intro s r h
    obtain ⟨t, u, us, rfl, -, hpair⟩ | hnone := pairs_notIn.cases s
    · cases hpair.symm.trans h
    · exact stays_none (hnone.symm.trans h)

private theorem passes_comparison : Passes (comparison rules) (rules (.operation 0)) := by
  refine .line fun l => .bind fun first => ?_
  refine .loop_bind (I := fun _ => True) (Q := fun x => x.1 ≠ [])
    (fun x => .bind stays_takeComparison stays_none fun op => .after fun _ => gives_isSome _)
    (fun x _ => .after fun o => ?_) trivial (fun x hx => ?_) rfl
  · cases o with
    | none => exact .none
    | some op => exact .after fun _ => .some ⟨trivial, by simp⟩
  · simp only [if_neg hx]
    exact Tree.isOperation_node rfl

private theorem passes_operation {level : Nat} {ops : List String} (h : levels[level]? = some ops) :
    Passes (operation rules level) (rules (.operation (level + 1))) := by
  refine .line fun l => ?_
  rw [h]
  refine .bind fun left => .loop
    (fun a => .bind (stays_takeOperator ops) stays_none fun op => .after fun _ => gives_isSome _)
    (fun a => .after fun o => ?_) left
  cases o with
  | none => exact .none
  | some op => exact .after fun _ => .some (Tree.isOperation_node rfl)

private theorem passes_factor : Passes (factor rules) (rules .primary) := by
  refine .line fun l => .option (stays_takeOperator _) ?_ fun op =>
    .after fun _ => .pure (Tree.isOperation_node rfl)
  exact .bind fun base => .takeIf (sees_operator (e := false) nofun)
    (.after fun _ => .pure (Tree.isOperation_node rfl)) (.pure base)

private theorem passes_primary : Passes (primary rules) (operand rules) :=
  .line fun _ => .takeIf (sees_word "await") (.after fun _ => .pure (Tree.isOperation_node rfl))
    (.refl _)

private theorem passes_starredOr (g : Goal) : Passes (starredOr rules g) (rules g) :=
  .line fun _ => .takeIf (sees_operator (e := false) nofun)
    (.after fun _ => .pure (Tree.isOperation_node rfl)) (.refl _)

/-- Behind the first of some items stand others, or a comma, or nothing of them. -/
theorem commaSeparatedFrom_cases {α : Type} {first : α} {item : Parser α} {another : Parser Bool}
    {x : List α × Bool} {s r : List Token}
    (h : commaSeparatedFrom first item another s = .ok (x, r)) :
    x = ([first], false) ∧ r = s ∨ 2 ≤ x.1.length ∨ x.2 = true := by
  refine eq_or_of_loop (I := fun x => 1 ≤ x.1.length)
    (Q := fun x => 2 ≤ x.1.length ∨ x.2 = true) (fun x => ?_) (fun x hx => ?_) (Nat.le_refl 1) h
  · obtain ⟨items, trailing⟩ := x
    cases trailing with
    | true => exact stays_none
    | false =>
      refine .takeIf (sees_operator (e := false) nofun) (.after fun b => ?_) stays_none
      cases b with
      | true => exact .after fun _ => gives_isSome _
      | false => exact gives_isSome _
  · obtain ⟨items, trailing⟩ := x
    have hpos : 1 ≤ items.length := hx
    cases trailing with
    | true => exact .none
    | false =>
      refine .after fun b => ?_
      cases b with
      | false => exact .none
      | true =>
        refine .after fun b => ?_
        cases b with
        | false => exact .some ⟨hpos, .inr rfl⟩
        | true =>
          refine .after fun _ => .some ?_
          rw [List.length_append, List.length_singleton]
          omega

private theorem passes_expressions : Passes (expressions rules) (starredOr rules .expression) := by
  refine .line fun l => ?_
  intro s v r hv
  obtain ⟨⟨items, trailing⟩, t, hitems, hv⟩ := exists_of_bind hv
  obtain ⟨first, u, hfirst, hitems⟩ := exists_of_bind hitems
  obtain ⟨rfl, rfl⟩ := Prod.mk.inj (Except.ok.inj hv)
  obtain ⟨heq, rfl⟩ | hmore := commaSeparatedFrom_cases hitems
  · obtain ⟨rfl, rfl⟩ := Prod.mk.inj heq
    exact .inr hfirst
  · refine .inl ?_
    obtain _ | ⟨x, _ | ⟨y, items⟩⟩ := items
    · exact Tree.isOperation_node rfl
    · obtain rfl : trailing = true := by simpa using hmore
      exact Tree.isOperation_node rfl
    · exact Tree.isOperation_node rfl

/-! ### Operands -/

/-- Whether what is asked for may be an operation. -/
def isCompound : Goal → Bool
  | .atom | .targets | .yielding => false
  | _ => true

/-- **A value that is no operation is an operand**: it is what the rule for operands makes of the
same tokens. -/
theorem exists_operand {b : Nat} {g : Goal} {s r : List Token} {v : Tree} (hg : isCompound g = true)
    (h : parse b g s = .ok (v, r)) (hv : ¬ v.IsOperation) :
    ∃ m, operand (parse m) s = .ok (v, r) := by
  induction b generalizing g with
  | zero => exact absurd h (refuse_ne_ok s v r)
  | succ b ih =>
    cases g with
    | named => exact ih rfl ((passes_named h).resolve_left hv)
    | expression => exact ih rfl ((passes_expression h).resolve_left hv)
    | disjunction => exact ih (g := .conjunction) rfl ((passes_connected _ _ h).resolve_left hv)
    | conjunction => exact ih (g := .inversion) rfl ((passes_connected _ _ h).resolve_left hv)
    | inversion => exact ih rfl ((passes_inversion h).resolve_left hv)
    | comparison => exact ih rfl ((passes_comparison h).resolve_left hv)
    | operation level =>
      cases hlevel : levels[level]? with
      | none =>
        have hfactor : operation (parse b) level s = parse b .factor s := by
          refine (bind_ok (line_eq s)).trans ?_
          rw [hlevel]
        exact ih (g := .factor) rfl (hfactor.symm.trans h)
      | some ops => exact ih rfl ((passes_operation hlevel h).resolve_left hv)
    | factor => exact ih rfl ((passes_factor h).resolve_left hv)
    | primary => exact ⟨b, (passes_primary h).resolve_left hv⟩
    | expressions =>
      have hitem := (passes_expressions h).resolve_left hv
      exact ih rfl ((passes_starredOr _ hitem).resolve_left hv)
    | atom => cases hg
    | targets => cases hg
    | yielding => cases hg

/-- What the loop of the rule for operands puts around a value. -/
def operandStep (rules : Rules) (start : Nat) (value : Tree) : Parser (Option Tree) := do
  if ← takeIf (atOperator ".") then
    return some (.node (.attribute (← name)) start [value])
  else if ← takeIf (atOperator "(") then
    return some (.node .call start (value :: (← arguments rules true)))
  else if ← takeIf (atOperator "[") then
    return some (.node .subscript start [value, ← slices rules])
  else return none

theorem stays_operandStep (start : Nat) (value : Tree) : Stays (operandStep rules start value) :=
  .takeIf (sees_operator (e := false) nofun) (.after fun _ => gives_isSome _) <|
    .takeIf (sees_operator (e := false) nofun) (.after fun _ => gives_isSome _) <|
    .takeIf (sees_operator (e := false) nofun) (.after fun _ => gives_isSome _) stays_none

/-- A value with an attribute, a call or an item behind it. -/
def IsPart (value t : Tree) : Prop :=
  ∃ s l ps, t = .node s l (value :: ps) ∧ (s = .call ∨ s = .subscript ∨ ∃ id, s = .attribute id)

theorem gives_operandStep (start : Nat) (value : Tree) :
    Gives (fun o => ∀ t ∈ o, IsPart value t) (operandStep rules start value) := by
  refine .after fun b => ?_
  cases b with
  | true => exact .after fun id => .some ⟨_, _, _, rfl, .inr (.inr ⟨id, rfl⟩)⟩
  | false =>
  refine .after fun b => ?_
  cases b with
  | true => exact .after fun _ => .some ⟨_, _, _, rfl, .inl rfl⟩
  | false =>
  refine .after fun b => ?_
  cases b with
  | true => exact .after fun _ => .some ⟨_, _, _, rfl, .inr (.inl rfl)⟩
  | false => exact .none

/-! ### Texts -/

/-- A constant operand is an atom. -/
theorem atom_of_operand {s r : List Token} {c : Constant} {l : Nat} {ps : List Tree}
    (h : operand rules s = .ok (.node (.constant c) l ps, r)) :
    rules .atom s = .ok (.node (.constant c) l ps, r) := by
  obtain ⟨l, t, hl, h⟩ := exists_of_bind h
  obtain ⟨-, rfl⟩ := Prod.mk.inj (Except.ok.inj ((line_eq s).symm.trans hl))
  obtain ⟨first, u, hfirst, hloop⟩ := exists_of_bind h
  have hstep : ∀ value : Tree, True → Gives (fun o => ∀ t ∈ o, True ∧ ∃ value, IsPart value t)
      (operandStep rules l value) := fun value _ =>
    (gives_operandStep l value).imp fun o ho t ht => ⟨trivial, value, ho t ht⟩
  obtain ⟨rfl, rfl⟩ | ⟨value, s, l, ps, heq, hs⟩ :=
    eq_or_of_loop (stays_operandStep l) hstep trivial hloop
  · exact hfirst
  · cases heq
    obtain hs | hs | ⟨id, hs⟩ := hs <;> cases hs

/-- A parser that takes an operator last. -/
def Closes {α : Type} (p : Parser α) : Prop :=
  ∀ ⦃s : List Token⦄ ⦃v : α⦄ ⦃r : List Token⦄, p s = .ok (v, r) →
    ∃ c : Token, c.kind = .operator ∧ c :: r <:+ s

section

variable {α β : Type} {p : Parser α} {f : α → Parser β}

theorem Closes.after (hp : ∀ s v r, p s = .ok (v, r) → r <:+ s) (hf : ∀ a, Closes (f a)) :
    Closes (p >>= f) := by
  intro s v r hv
  obtain ⟨a, t, ha, hv⟩ := exists_of_bind hv
  obtain ⟨c, hc, hsuffix⟩ := hf a hv
  exact ⟨c, hc, hsuffix.trans (hp _ _ _ ha)⟩

theorem exists_of_operator {op : String} {x : Unit} {s r : List Token}
    (h : operator op s = .ok (x, r)) : ∃ c, c.isOperator op = true ∧ s = c :: r := by
  have hsees : Sees false (atOperator op) (·.isOperator op) := sees_operator nofun
  obtain ⟨c, ts, rfl, hc, htake⟩ | ⟨-, htake⟩ := hsees.takeIf_cases s
  · have htaken : operator op (c :: ts) = .ok ((), ts) := (bind_ok htake).trans rfl
    obtain ⟨-, rfl⟩ := Prod.mk.inj (Except.ok.inj (htaken.symm.trans h))
    exact ⟨c, hc, rfl⟩
  · have hrefused : operator op s = refuse s := (bind_ok htake).trans rfl
    exact absurd (hrefused.symm.trans h) (refuse_ne_ok s x r)

theorem Closes.operator (op : String) (v : β) :
    Closes (operator op >>= fun _ => Pure.pure v) := by
  intro s v r hv
  obtain ⟨_, t, hop, hv⟩ := exists_of_bind hv
  obtain ⟨-, rfl⟩ := Prod.mk.inj (Except.ok.inj hv)
  obtain ⟨c, hc, rfl⟩ := exists_of_operator hop
  exact ⟨c, (Token.eq_of_isOperator hc).1, List.suffix_rfl⟩

theorem Closes.of_error (h : ∀ s v r, p s ≠ .ok (v, r)) : Closes p :=
  fun _ _ _ hv => absurd hv (h _ _ _)

theorem Closes.conditional {c : Prop} [Decidable c] {x y : Parser α} (hx : Closes x)
    (hy : Closes y) : Closes (if c then x else y) := by
  by_cases h : c
  · rwa [if_pos h]
  · rwa [if_neg h]

theorem Closes.look {e : Bool} {g : Token → Bool} {test : Parser Bool} {k : Bool → Parser β}
    (h : Sees e test g) (hk : ∀ b, Closes (k b)) : Closes (test >>= k) :=
  .after (fun _ _ _ hv => h.keeps.suffix hv) hk

/-- What closes the brackets is taken, or what else stands behind them. -/
theorem Closes.takeIf {op : String} {v : β} {k : Parser β} (hk : Closes k) :
    Closes (takeIf (atOperator op) >>= fun b => if b = true then Pure.pure v else k) := by
  intro s w r hv
  have hsees : Sees false (atOperator op) (·.isOperator op) := sees_operator nofun
  obtain ⟨c, ts, rfl, hc, htake⟩ | ⟨-, htake⟩ := hsees.takeIf_cases s
  · obtain ⟨-, rfl⟩ := Prod.mk.inj (Except.ok.inj ((bind_ok htake).symm.trans hv))
    exact ⟨c, (Token.eq_of_isOperator hc).1, List.suffix_rfl⟩
  · exact hk ((bind_ok htake).symm.trans hv)

end

private theorem closes_parenthesised (hr : KeepAll rules rules) (line : Nat) :
    Closes (parenthesised rules line) := by
  refine .takeIf (.look (sees_word "yield") fun b => ?_)
  cases b with
  | true => exact .after (fun _ _ _ hv => (hr .yielding).suffix hv) fun _ => .operator ")" _
  | false =>
  refine .after (fun _ _ _ hv => (keeps_starredOr hr rfl).suffix hv) fun first =>
    .look (sees_operator (e := false) nofun) fun b => ?_
  cases b with
  | true =>
    have hitems := keeps_commaSeparated (keeps_starredOr hr (g := .named) rfl) sees_begins.keeps
    refine .after (fun s _ r hv => ?_) fun _ => .takeIf
      (.after (fun _ _ _ hv => hitems.suffix hv) fun _ => .operator ")" _)
    obtain ⟨-, rfl⟩ := Prod.mk.inj (Except.ok.inj hv)
    exact List.tail_suffix s
  | false =>
    simp only [Bool.false_eq_true, if_false]
    refine .conditional (.of_error refuse_ne_ok)
      (.after (fun _ _ _ hv => keeps_atClause.suffix hv) fun b => ?_)
    cases b with
    | true => exact .after (fun _ _ _ hv => (keeps_clauses hr).suffix hv) fun _ => .operator ")" _
    | false => exact .operator ")" first

/-- The tokens that a loop takes as strings are strings. -/
theorem exists_of_takeString {n : Nat} {ts us s r : List Token}
    (h : iterate takeString n ts s = .ok (us, r)) :
    ∃ c, s = c ++ r ∧ ∀ t ∈ c, t.kind = .string := by
  induction n generalizing ts s with
  | zero =>
    obtain ⟨-, rfl⟩ := Prod.mk.inj (Except.ok.inj h)
    exact ⟨[], rfl, nofun⟩
  | succ n ih =>
    obtain ⟨rfl, ⟨hn, -⟩ | hstop⟩ | ⟨b, t, m, hm, hb, hrest⟩ := iterate_cases h
    · cases hn
    · obtain ⟨t, ts, rfl, htake⟩ | htake := (takes_takeString us).cases s
      · cases htake.symm.trans hstop
      · obtain ⟨-, rfl⟩ := Prod.mk.inj (Except.ok.inj (htake.symm.trans hstop))
        exact ⟨[], rfl, nofun⟩
    · obtain rfl : n = m := Nat.succ.inj hm
      obtain ⟨c, rfl, hc⟩ := ih hrest
      cases s with
      | nil => cases ((takes_takeString ts).nil).symm.trans hb
      | cons u s =>
        rw [(takes_takeString ts).cons] at hb
        split at hb
        · next hu =>
          obtain ⟨-, rfl⟩ := Prod.mk.inj (Except.ok.inj hb)
          exact ⟨u :: c, rfl, List.forall_mem_cons.mpr ⟨of_decide_eq_true hu, hc⟩⟩
        · cases hb

/-- Where strings make a text together, no more tokens are taken. -/
theorem eq_of_stringsOf {line l : Nat} {us s r : List Token} {x : Text} {ps : List Tree}
    (h : stringsOf rules line us s = .ok (.node (.constant (.text x)) l ps, r)) : r = s := by
  unfold stringsOf at h
  dsimp only at h
  split at h
  · split at h
    · cases h
    · cases h
  split at h
  · obtain ⟨parts, t, -, hv⟩ := exists_of_bind h
    cases hv
  · split at h
    · exact (Prod.mk.inj (Except.ok.inj h)).2.symm
    · cases h

private theorem not_text_of_number (t : Token) :
    Gives (fun v => ∀ x, v.shape ≠ .constant (.text x)) (number t) := by
  unfold number
  cases wholeNumber t.text with
  | none => exact .pure nofun
  | some n => exact .conditional (fun _ => gives_of_error nofun) fun _ => .pure nofun

/-- **A text is made of strings, or an operator stands at its end**, the bracket that closes it. -/
theorem strings_or_closed_of_text {b l : Nat} {g : Goal} {s r : List Token} {x : Text}
    {ps : List Tree} (hg : isCompound g = true)
    (h : parse b g s = .ok (.node (.constant (.text x)) l ps, r)) :
    ∃ c, s = c ++ r ∧ c ≠ [] ∧
      ((∀ t ∈ c, t.kind = .string) ∨ ∃ t ∈ c.getLast?, t.kind = .operator) := by
  obtain ⟨m, hoperand⟩ := exists_operand hg h nofun
  obtain _ | m := m
  · exact absurd (atom_of_operand hoperand) (refuse_ne_ok _ _ _)
  have hatom : atom (parse m) s = .ok (.node (.constant (.text x)) l ps, r) :=
    atom_of_operand hoperand
  obtain _ | ⟨t, ts⟩ := s
  · exact absurd hatom (refuse_ne_ok [] _ _)
  have hrest := atom_cons_iff.mp hatom
  obtain ⟨kind, text, line, column⟩ := t
  cases kind with
  | number => exact absurd rfl (not_text_of_number _ hrest x)
  | string =>
    obtain ⟨us, t, hloop, hstrings⟩ := exists_of_bind hrest
    obtain rfl := eq_of_stringsOf hstrings
    obtain ⟨c, rfl, hc⟩ := exists_of_takeString hloop
    exact ⟨_ :: c, rfl, by simp, .inl (List.forall_mem_cons.mpr ⟨rfl, hc⟩)⟩
  | name =>
    simp only [atomRest] at hrest
    repeat' split at hrest
    all_goals first | cases hrest | exact absurd hrest (refuse_ne_ok _ _ _)
  | operator =>
    simp only [atomRest] at hrest
    split at hrest
    · obtain ⟨c, hc, before, rfl⟩ :=
        closes_parenthesised (keepAll_parse (Nat.le_refl m)) line hrest
      exact ⟨⟨.operator, text, line, column⟩ :: (before ++ [c]), by simp, by simp,
        .inr ⟨c, by simp [List.getLast?_cons], hc⟩⟩
    split at hrest
    · exact absurd (gives_bracketed line hrest) (by simp [Tree.IsDisplay, Tree.shape])
    split at hrest
    · exact absurd (gives_braced line hrest) (by simp [Tree.IsDisplay, Tree.shape])
    split at hrest
    · cases hrest
    · exact absurd hrest (refuse_ne_ok _ _ _)
  | _ => exact absurd hrest (refuse_ne_ok _ _ _)

end Expression

end Code

end ServerPages
