import ServerPages.Proofs.Code.Edge.Arguments
import ServerPages.Proofs.Code.Edge.Operands

/-!
# What a call hands on

A call whose arguments are plain values has read them one after another (`listed_of_arguments`), and
a line that is one expression has read it up to its end (`Statement.expressions_of_line`). So a line
that calls a member of what a name stands for tells which tokens its arguments are
(`arguments_of_operand`).
-/

namespace ServerPages

namespace Code

/-- An argument with a name, or an unpacked table. -/
def Tree.IsKeyword (t : Tree) : Prop := ∃ id, t.shape = .keyword id

namespace Expression

open Code.Parser

variable {rules : Rules} {s t r rest : List Token} {p : Token} {a a' : Arguments}
  {done vs : List Tree} {v : Tree} {n : Nat}

/-! ### Arguments one by one -/

/-- Arguments that are neither unpacked nor have names, read one after another with commas between
them, up to the bracket that closes the call. -/
inductive Listed (rules : Rules) : List Token → List Tree → List Token → Prop
  | none {p : Token} {rest : List Token} (hp : p.isOperator ")" = true) :
      Listed rules (p :: rest) [] (p :: rest)
  | last {s rest : List Token} {v : Tree} {p : Token} (h : rules .named s = .ok (v, p :: rest))
      (hp : p.isOperator ")" = true) : Listed rules s [v] (p :: rest)
  | more {s t r : List Token} {v : Tree} {vs : List Tree} {c : Token}
      (h : rules .named s = .ok (v, c :: t)) (hc : c.isOperator "," = true)
      (hrest : Listed rules t vs r) : Listed rules s (v :: vs) r

theorem Listed.eq_of_nil (h : Listed rules s [] r) : s = r := by
  cases h
  rfl

theorem Listed.exists_of_cons (h : Listed rules s (v :: vs) r) :
    ∃ c t, rules .named s = .ok (v, c :: t) ∧
      (c.isOperator "," = true ∧ Listed rules t vs r ∨ vs = [] ∧ r = c :: t) := by
  cases h with
  | last h hp => exact ⟨_, _, h, .inr ⟨rfl, rfl⟩⟩
  | more h hc hrest => exact ⟨_, _, h, .inl ⟨hc, hrest⟩⟩

/-- An argument with a name, or an unpacked table, stands behind those read before. -/
def Arguments.AddsKeyword (a a' : Arguments) : Prop :=
  ∃ k : Tree, k.IsKeyword ∧ a'.positional = a.positional ∧ a'.keywords = a.keywords ++ [k]

/-- An unpacked list stands behind the arguments read before. -/
def Arguments.AddsUnpacked (a a' : Arguments) : Prop :=
  ∃ v : Tree, ¬ v.IsPacked ∧ a'.positional = a.positional ++ [v] ∧ a'.keywords = a.keywords

private theorem exists_of_plainArgument (h : plainArgument rules a s = .ok (a', t)) :
    ∃ v, a' = { a with positional := a.positional ++ [v] } ∧ rules .named s = .ok (v, t) := by
  rw [plainArgument] at h
  by_cases hn : a.named = true
  · rw [if_pos hn] at h
    exact absurd h (refuse_ne_ok _ _ _)
  · rw [if_neg hn] at h
    obtain ⟨v, u, hv, hpure⟩ := exists_of_bind h
    obtain ⟨rfl, rfl⟩ := Prod.mk.inj (Except.ok.inj hpure)
    exact ⟨v, rfl, hv⟩

/-- What an argument adds: one with a name, one that is unpacked, or a plain value. -/
theorem argument_cases (h : argument rules a s = .ok (a', t)) :
    a.AddsKeyword a' ∨ a.AddsUnpacked a' ∨
      ∃ v, a' = { a with positional := a.positional ++ [v] } ∧ rules .named s = .ok (v, t) := by
  obtain ⟨l, u, hl, h⟩ := exists_of_bind h
  obtain ⟨-, rfl⟩ := Prod.mk.inj (Except.ok.inj ((line_eq s).symm.trans hl))
  have htable : Sees false (atOperator "**") (·.isOperator "**") := sees_operator nofun
  have hstar : Sees false (atOperator "*") (·.isOperator "*") := sees_operator nofun
  have hpairs : Pairs namesArgument (oneArgument rules l a) (namedArgument rules l a)
      (beforeLast (plainArgument rules a)) := pairs_oneArgument l a
  obtain ⟨x, xs, rfl, -, htake⟩ | ⟨-, htake⟩ := htable.takeIf_cases s
  · have hgives : Gives a.AddsKeyword
        (rules .expression >>= fun value => pure { a with
          keywords := a.keywords ++ [.node (.keyword none) l [value]], named := true,
          unpacked := true }) := .after fun value => .pure ⟨_, ⟨_, rfl⟩, rfl, rfl⟩
    exact .inl (hgives ((bind_ok htake).symm.trans h))
  have h := (bind_ok htake).symm.trans h
  obtain ⟨b, hb⟩ := hstar.exists_eq s
  have h := (bind_ok hb).symm.trans h
  cases b with
  | true =>
    have hgives : Gives a.AddsUnpacked (if a.unpacked then refuse
        else skip >>= fun _ => rules .expression >>= fun value => pure { a with
          positional := a.positional ++ [.node .starred l [value]] }) :=
      .conditional (fun _ => gives_of_error refuse_ne_ok) fun _ =>
        .after fun _ => .after fun value => .pure ⟨_, fun hpacked => hpacked rfl, rfl, rfl⟩
    exact .inr (.inl (hgives h))
  | false =>
    -- a name and `=` tell an argument with a name from a plain one
    obtain ⟨x, y, us, rfl, -, hpair⟩ | hplain := hpairs.cases s
    · have hgives : Gives a.AddsKeyword (namedArgument rules l a x) :=
        .after fun value => .pure ⟨_, ⟨_, rfl⟩, rfl, rfl⟩
      exact .inl (hgives (hpair.symm.trans h))
    · exact .inr (.inr (exists_of_plainArgument (eq_ok_of_beforeLast (hplain.symm.trans h))))

/-- What one step of the loop over the arguments does that goes on: it reads an argument, behind
which stands a clause, a comma or the closing bracket. -/
theorem argumentStep_cases {more more' : Bool}
    (h : argumentStep rules (a, more) s = .ok (some (a', more'), t)) :
    ∃ u, argument rules a s = .ok (a', u) ∧ (a'.positional.length = 1 ∧ more' = false ∨
      more' = true ∧ (∃ c, c.isOperator "," = true ∧ u = c :: t) ∨
        more' = false ∧ u = t ∧ ∃ p rest, p.isOperator ")" = true ∧ t = p :: rest) := by
  have hcomma : Sees false (atOperator ",") (·.isOperator ",") := sees_operator nofun
  have hclosing : Sees false (atOperator ")") (·.isOperator ")") := sees_operator nofun
  obtain ⟨b, hb⟩ := hclosing.exists_eq s
  have h := (bind_ok hb).symm.trans h
  by_cases hstop : (!more) = true ∨ b = true
  · rw [if_pos hstop] at h
    cases h
  rw [if_neg hstop] at h
  obtain ⟨a'', u, ha, h⟩ := exists_of_bind h
  have h := (bind_ok (atClause_eq u)).symm.trans h
  by_cases hclause : beginsWithClause u = true ∧ (!a''.named) = true ∧ a''.positional.length = 1
  · rw [if_pos hclause] at h
    cases h
    exact ⟨_, ha, .inl ⟨hclause.2.2, rfl⟩⟩
  rw [if_neg hclause] at h
  obtain ⟨c, ts, rfl, hc, htake⟩ | ⟨-, htake⟩ := hcomma.takeIf_cases u
  · have h := (bind_ok htake).symm.trans h
    obtain ⟨d, hd⟩ := hclosing.exists_eq ts
    have h := (bind_ok hd).symm.trans h
    simp only [Bool.not_true, Bool.false_eq_true, false_and, if_false] at h
    cases h
    exact ⟨_, ha, .inr (.inl ⟨rfl, c, hc, rfl⟩)⟩
  · have h := (bind_ok htake).symm.trans h
    obtain _ | ⟨p, rest⟩ := u
    · cases h
    have h := (bind_ok (hclosing.cons p rest)).symm.trans h
    cases hp : p.isOperator ")" with
    | false =>
      simp only [hp, Bool.not_false, and_self, if_true] at h
      exact absurd h (refuse_ne_ok _ _ _)
    | true =>
      simp only [hp, Bool.not_false, Bool.not_true, Bool.false_eq_true, and_false, if_false] at h
      cases h
      exact ⟨_, ha, .inr (.inr ⟨rfl, rfl, p, rest, hp, rfl⟩)⟩

private theorem stays_argumentStep (x : Arguments × Bool) : Stays (argumentStep rules x) := by
  obtain ⟨a, more⟩ := x
  intro s r h
  have hclosing : Sees false (atOperator ")") (·.isOperator ")") := sees_operator nofun
  obtain ⟨b, hb⟩ := hclosing.exists_eq s
  have h := (bind_ok hb).symm.trans h
  by_cases hstop : (!more) = true ∨ b = true
  · rw [if_pos hstop] at h
    exact stays_none h
  · rw [if_neg hstop] at h
    refine absurd (Gives.after (fun a' => .after fun clause => .conditional
      (fun _ => gives_isSome _) fun _ => .after fun more => .after fun closed => .conditional
        (fun _ => gives_of_error refuse_ne_ok) fun _ => gives_isSome _) h) nofun

/-- Behind the last argument nothing is read any more. -/
theorem eq_of_iterate_done {y : Arguments × Bool}
    (h : iterate (argumentStep rules) n (a, false) s = .ok (y, t)) : y = (a, false) ∧ t = s := by
  cases n with
  | zero =>
    obtain ⟨rfl, rfl⟩ := Prod.mk.inj (Except.ok.inj h)
    exact ⟨rfl, rfl⟩
  | succ n =>
    obtain ⟨rfl, rfl⟩ := Prod.mk.inj (Except.ok.inj ((bind_ok (argumentStep_done a)).symm.trans h))
    exact ⟨rfl, rfl⟩

/-- Arguments that have been read stay what they are. -/
theorem prefix_of_iterate {x y : Arguments × Bool}
    (h : iterate (argumentStep rules) n x s = .ok (y, t)) :
    x.1.positional <+: y.1.positional ∧ x.1.keywords <+: y.1.keywords := by
  refine Gives.iterate (P := fun y : Arguments × Bool =>
    x.1.positional <+: y.1.positional ∧ x.1.keywords <+: y.1.keywords) (fun y hy => ?_) n
    ⟨List.prefix_rfl, List.prefix_rfl⟩ h
  rintro s o r hstep ⟨a', more'⟩ rfl
  obtain ⟨w, hargument, -⟩ := argumentStep_cases hstep
  obtain ⟨k, -, hp, hk⟩ | ⟨v, -, hp, hk⟩ | ⟨v, rfl, -⟩ := argument_cases hargument
  · exact ⟨hp ▸ hy.1, hk ▸ hy.2.trans (List.prefix_append _ _)⟩
  · exact ⟨hp ▸ hy.1.trans (List.prefix_append _ _), hk ▸ hy.2⟩
  · exact ⟨hy.1.trans (List.prefix_append _ _), hy.2⟩

/-- Arguments that are all given by place, none of them unpacked. -/
structure Arguments.IsPlain (a : Arguments) : Prop where
  keywords : a.keywords = []
  positional : ∀ v ∈ a.positional, v.IsPacked

/-- The loop over the arguments has read plain ones one after another. -/
theorem listed_of_iterate {more : Bool} (hp : p.isOperator ")" = true) (hplain : a.IsPlain)
    (hlength : a.positional.length ≠ 1)
    (h : iterate (argumentStep rules) n ({ positional := done }, true) s =
      .ok ((a, more), p :: rest)) :
    ∃ vs, a.positional = done ++ vs ∧ Listed rules s vs (p :: rest) := by
  induction n generalizing done s with
  | zero =>
    cases h
    exact ⟨[], by simp, .none hp⟩
  | succ n ih =>
    obtain ⟨heq, ⟨hn, -⟩ | hstop⟩ | ⟨⟨a', more'⟩, u, m, hm, hstep, hrest⟩ := iterate_cases h
    · cases hn
    · obtain rfl := stays_argumentStep _ hstop
      cases heq
      exact ⟨[], by simp, .none hp⟩
    · obtain rfl : n = m := Nat.succ.inj hm
      obtain ⟨w, hargument, hbehind⟩ := argumentStep_cases hstep
      obtain ⟨hpositional, hkeywords⟩ := prefix_of_iterate hrest
      obtain ⟨k, -, -, hk⟩ | ⟨v, hv, hp', -⟩ | ⟨v, rfl, hv⟩ := argument_cases hargument
      · rw [hplain.keywords, List.prefix_nil, hk] at hkeywords
        cases hkeywords
      · refine absurd (hplain.positional v (hpositional.mem ?_)) hv
        rw [hp']
        simp
      obtain ⟨hone, rfl⟩ | ⟨rfl, c, hc, rfl⟩ | ⟨rfl, rfl, q, qs, hq, rfl⟩ := hbehind
      · obtain ⟨heq, -⟩ := eq_of_iterate_done hrest
        cases heq
        exact absurd hone hlength
      · obtain ⟨vs, hvs, hlisted⟩ := ih hrest
        exact ⟨v :: vs, by simp [hvs], .more hv hc hlisted⟩
      · obtain ⟨heq, hend⟩ := eq_of_iterate_done hrest
        cases heq
        cases hend
        exact ⟨[v], rfl, .last hv hq⟩

/-- What the arguments of a call are: one comprehension, or those that the loop has read. -/
theorem arguments_cases (h : arguments rules true s = .ok (vs, r)) : ∃ a more u,
    loop (({} : Arguments), true) (argumentStep rules) s = .ok ((a, more), u) ∧
      (vs.length = 1 ∨ vs = a.positional ++ a.keywords ∧
        ∃ p, p.isOperator ")" = true ∧ u = p :: r) := by
  obtain ⟨⟨a, more⟩, u, hloop, h⟩ := exists_of_bind h
  refine ⟨a, more, u, hloop, ?_⟩
  have h := (bind_ok (atClause_eq u)).symm.trans h
  have hclose : (operator ")" >>= fun _ => Pure.pure (a.positional ++ a.keywords)) u = .ok (vs, r) →
      vs = a.positional ++ a.keywords ∧ ∃ p, p.isOperator ")" = true ∧ u = p :: r := by
    intro h
    obtain ⟨_, w, hop, hv⟩ := exists_of_bind h
    obtain ⟨rfl, rfl⟩ := Prod.mk.inj (Except.ok.inj hv)
    obtain ⟨p, hp, rfl⟩ := exists_of_operator hop
    exact ⟨rfl, p, hp, rfl⟩
  have hone (l : Nat) (x : Tree) : (clauses rules >>= fun cs => operator ")" >>= fun _ =>
      Pure.pure [Tree.node .comprehension l (x :: cs)]) u = .ok (vs, r) → vs.length = 1 := by
    intro h
    obtain ⟨cs, w, -, h⟩ := exists_of_bind h
    obtain ⟨_, x, -, hv⟩ := exists_of_bind h
    obtain ⟨rfl, -⟩ := Prod.mk.inj (Except.ok.inj hv)
    rfl
  generalize beginsWithClause u = clause at h
  obtain ⟨_ | ⟨⟨shape, l, ps⟩, _ | ⟨x, xs⟩⟩, keywords, named, unpacked⟩ := a
  · exact .inr (hclose h)
  · cases clause with
    | false => cases shape <;> exact .inr (hclose h)
    | true => cases shape <;> first | exact absurd h (refuse_ne_ok _ _ _) | exact .inl (hone l _ h)
  · cases shape <;> exact .inr (hclose h)

/-- What the loop over the arguments has put with the names has a name, or is an unpacked table. -/
theorem isKeyword_of_loop {x : Arguments × Bool}
    (h : loop (({} : Arguments), true) (argumentStep rules) s = .ok (x, t)) :
    ∀ k ∈ x.1.keywords, k.IsKeyword := by
  have hloop : Gives (fun x : Arguments × Bool => ∀ k ∈ x.1.keywords, k.IsKeyword)
      (loop (({} : Arguments), true) (argumentStep rules)) := by
    refine .loop (by simp) fun x hx => ?_
    rintro s o r hstep ⟨a', more'⟩ rfl
    obtain ⟨u, hargument, -⟩ := argumentStep_cases hstep
    obtain ⟨k, hk, -, hkeywords⟩ | ⟨v, -, -, hkeywords⟩ | ⟨v, rfl, -⟩ := argument_cases hargument
    · rw [hkeywords]
      simpa [or_imp, forall_and, hk] using hx
    · rwa [hkeywords]
    · exact hx
  exact hloop h

/-- **Arguments are read one after another** where they are more than one, none of them is unpacked
and the last has no name. -/
theorem listed_of_arguments (h : arguments rules true s = .ok (vs, r)) (hlength : vs.length ≠ 1)
    (hvs : ∀ v ∈ vs, v.IsPacked) (hlast : ∀ v ∈ vs.getLast?, ¬ v.IsKeyword) :
    ∃ p, p.isOperator ")" = true ∧ Listed rules s vs (p :: r) := by
  obtain ⟨a, more, u, hloop, hone | ⟨rfl, p, hp, rfl⟩⟩ := arguments_cases h
  · exact absurd hone hlength
  have hkeywords : a.keywords = [] := by
    by_contra hne
    have hend := List.getLast?_eq_some_getLast hne
    refine hlast (a.keywords.getLast hne) ?_ (isKeyword_of_loop hloop _ (List.getLast_mem hne))
    rw [List.getLast?_append_of_ne_nil _ hne, hend]
    rfl
  rw [hkeywords, List.append_nil] at hlength hvs ⊢
  obtain ⟨ws, hws, hlisted⟩ := listed_of_iterate hp ⟨hkeywords, hvs⟩ hlength hloop
  exact ⟨p, hp, hws ▸ hlisted⟩

theorem Listed.suffix {b : Nat} (h : Listed (parse b) s vs r) : r <:+ s := by
  have hsuffix {s r : List Token} {v : Tree} (h : parse b .named s = .ok (v, r)) : r <:+ s :=
    (keepAll_parse (Nat.le_refl b) .named).suffix h
  induction h with
  | none hp => exact List.suffix_rfl
  | last h hp => exact hsuffix h
  | more h hc _ ih => exact (ih.trans (List.suffix_cons _ _)).trans (hsuffix h)

/-! ### Calls of members -/

/-- A value that is an attribute of what a name stands for. -/
def isMember : Tree → Bool
  | .node (.attribute _) _ (.node (.name _) _ _ :: _) => true
  | _ => false

/-- A value that is neither a name nor an attribute of one. -/
def IsFurther (t : Tree) : Prop := (∀ id, t.shape ≠ .name id) ∧ isMember t = false

private theorem IsPart.isFurther {value t : Tree} (hvalue : ∀ id, value.shape ≠ .name id)
    (h : IsPart value t) : IsFurther t := by
  obtain ⟨s, l, ps, rfl, hs⟩ := h
  obtain ⟨shape, line, parts⟩ := value
  obtain rfl | rfl | ⟨id, rfl⟩ := hs
  · exact ⟨nofun, rfl⟩
  · exact ⟨nofun, rfl⟩
  · refine ⟨nofun, ?_⟩
    cases shape <;> first | rfl | exact absurd rfl (hvalue _)

/-- Behind a call, no call of a member is made any more. -/
theorem eq_or_isPart_of_iterate {l : Nat} {value : Tree} (hvalue : IsFurther value)
    (h : iterate (operandStep rules l) n value s = .ok (v, r)) :
    v = value ∧ r = s ∨ ∃ w, IsFurther w ∧ IsPart w v := by
  refine eq_or_of_iterate (I := IsFurther) (Q := fun v => ∃ w, IsFurther w ∧ IsPart w v)
    (stays_operandStep l) (fun value hvalue => ?_) hvalue h
  exact (gives_operandStep l value).imp fun o ho t ht =>
    ⟨(ho t ht).isFurther hvalue.1, value, hvalue, ho t ht⟩

/-- The call of a member of what a name stands for tells its arguments. -/
theorem arguments_of_operand {g d f : Token} {line : Nat} {object member : Text}
    (hd : d.isOperator "." = true) (hf : isName f = true) (hp : p.isOperator "(" = true)
    (hatom : ∀ ts, rules .atom (g :: ts) = .ok (nameTree g.line g.identifier, ts))
    (hv : Alike v (memberCall line object member vs))
    (h : operand rules (g :: d :: f :: p :: s) = .ok (v, r)) :
    ∃ args, Alike args vs ∧ arguments rules true s = .ok (args, r) := by
  have hpoint : takeIf (atOperator ".") (p :: s) = .ok (false, p :: s) := by
    obtain ⟨kind, text, line, column⟩ := p
    obtain ⟨rfl, rfl⟩ := Token.eq_of_isOperator hp
    rfl
  have hname : operand rules (g :: d :: f :: p :: s) =
      loop (nameTree g.line g.identifier) (operandStep rules g.line) (d :: f :: p :: s) :=
    (bind_ok rfl).trans (bind_ok (hatom _))
  have hmember : operandStep rules g.line (nameTree g.line g.identifier) (d :: f :: p :: s) =
      .ok (some (.node (.attribute f.identifier) g.line [nameTree g.line g.identifier]), p :: s) :=
    (bind_ok (takeIf_of_isOperator hd)).trans ((bind_ok (name_of_isName hf)).trans rfl)
  have hloop := (loop_of_some hmember).symm.trans (hname.symm.trans h)
  obtain ⟨shape, l, parts⟩ := v
  obtain ⟨rfl, hparts⟩ := alike_node_iff.mp hv
  obtain ⟨heq, -⟩ | ⟨w, t, m, -, hcall, hrest⟩ := iterate_cases hloop
  · cases heq
  have hcall := ((bind_ok hpoint).trans (bind_ok (takeIf_of_isOperator hp))).symm.trans hcall
  obtain ⟨args, u, harguments, hnode⟩ := exists_of_bind hcall
  cases hnode
  have hcalled : IsFurther (.node .call g.line
      (.node (.attribute f.identifier) g.line [nameTree g.line g.identifier] :: args)) :=
    ⟨nofun, rfl⟩
  obtain ⟨heq, rfl⟩ | ⟨w, hw, s, l, ps, heq, -⟩ := eq_or_isPart_of_iterate hcalled hrest
  · obtain ⟨-, rfl, rfl⟩ := Tree.node.inj heq
    exact ⟨args, (alike_cons_iff.mp hparts).2, harguments⟩
  · obtain ⟨-, -, rfl⟩ := Tree.node.inj heq
    obtain ⟨shape, line', parts⟩ := w
    obtain ⟨rfl, hname⟩ := alike_node_iff.mp (alike_cons_iff.mp hparts).1
    obtain ⟨⟨shape, line'', parts'⟩, rest, rfl, hhead, -⟩ := hname.symm.exists_cons
    obtain ⟨rfl, -⟩ := alike_node_iff.mp hhead
    cases hw.2

end Expression

namespace Statement

open Code.Parser Code.Expression

variable {rules : Rules} {s t r rest us : List Token} {u : Token} {v first : Tree} {l n : Nat}

/-! ### Statements of one expression -/

/-- An assignment, or the one expression that has been read. -/
def assigned (rules : Rules) (line : Nat) (first : Tree) : Parser Tree := do
  let values ← loop [first] fun values => do
    if ← takeIf (atOperator "=") then return some (values ++ [← value rules]) else return none
  match values with
  | [one] => return .node .expression line [one]
  | _ =>
    if values.dropLast.all (Expression.isTarget true) then return .node .assignment line values
    else throw .unexpected

private theorem eq_of_assigned (h : assigned rules n first s = .ok (.node .expression l [v], r)) :
    v = first ∧ r = s := by
  obtain ⟨values, t, hloop, hvalues⟩ := exists_of_bind h
  have hequals : Sees false (atOperator "=") (·.isOperator "=") := sees_operator nofun
  have hfirst : 1 ≤ [first].length := Nat.le_refl 1
  have hcases := eq_or_of_loop (I := fun values => 1 ≤ values.length)
    (Q := fun values => 2 ≤ values.length)
    (fun values => .takeIf hequals (.after fun _ => gives_isSome _) stays_none)
    (fun values hvalues => .after fun b => ?_) hfirst hloop
  · obtain ⟨rfl, rfl⟩ | hlength := hcases
    · cases hvalues
      exact ⟨rfl, rfl⟩
    · have hmany : Gives (fun v => v.shape ≠ .expression)
          (if values.dropLast.all (Expression.isTarget true) then
            pure (.node .assignment n values) else throw .unexpected : Parser Tree) :=
        .conditional (fun _ => .pure nofun) fun _ => gives_of_error nofun
      obtain _ | ⟨x, _ | ⟨y, values⟩⟩ := values
      · cases hlength
      · exact absurd hlength (by simp)
      · exact absurd rfl (hmany hvalues)
  · cases b with
    | false => exact .none
    | true =>
      refine .after fun x => .some ?_
      rw [List.length_append, List.length_singleton]
      omega

/-- A statement of one expression has read it, if it does not begin with a `yield`. -/
theorem expressions_of_assignment (hyield : atWord "yield" s = .ok (false, s))
    (h : assignment rules s = .ok (.node .expression l [v], r)) :
    rules.expr .expressions s = .ok (v, r) := by
  have hother : ∀ {p : Parser Tree} {t : List Token}, Gives (fun v => v.shape ≠ .expression) p →
      p t ≠ .ok (.node .expression l [v], r) := fun hgives hv => hgives hv rfl
  obtain ⟨l', t, hl, h⟩ := exists_of_bind h
  obtain ⟨rfl, rfl⟩ := Prod.mk.inj (Except.ok.inj ((line_eq s).symm.trans hl))
  obtain ⟨first, t, hfirst, h⟩ := exists_of_bind h
  have hvalue : rules.expr .expressions s = .ok (first, t) := (bind_ok hyield).symm.trans hfirst
  have hcolon : Sees false (atOperator ":") (·.isOperator ":") := sees_operator nofun
  obtain ⟨b, hb⟩ := hcolon.exists_eq t
  have hrest := (bind_ok hb).symm.trans h
  cases b with
  | true =>
    refine absurd hrest (hother (.conditional (fun _ => .conditional (fun _ => ?_) fun _ =>
      gives_of_error refuse_ne_ok) fun hfalse => absurd rfl hfalse))
    exact .after fun _ => .after fun _ => .after fun _ => .pure nofun
  | false =>
    obtain ⟨x, ts, rfl, htake⟩ | htake := (takes_takeOperator augmentations).cases t
    · refine absurd ((bind_ok htake).symm.trans hrest) (hother (.conditional
        (fun _ => .after fun _ => .pure nofun) fun _ => gives_of_error nofun))
    · obtain ⟨rfl, rfl⟩ := eq_of_assigned ((bind_ok htake).symm.trans hrest)
      exact hvalue

/-- The loop over the statements of a line goes on by what stands behind a semicolon. -/
def simpleStep (rules : Rules) : List Tree × Bool → Parser (Option (List Tree × Bool))
  | (statements, more) => do
    if more ∧ (← takeIf (atOperator ";")) then
      if ← atKind .newline then return some (statements, false)
      else return some (statements ++ [← simple rules], true)
    else return none

theorem length_le_of_iterate {x y : List Tree × Bool}
    (h : iterate (simpleStep rules) n x s = .ok (y, r)) : x.1.length ≤ y.1.length := by
  refine Gives.iterate (P := fun y : List Tree × Bool => x.1.length ≤ y.1.length) (fun y hy => ?_) n
    (Nat.le_refl _) h
  obtain ⟨statements, more⟩ := y
  refine .after fun semicolon => .conditional (fun _ => .after fun b => ?_) fun _ => .none
  cases b with
  | true => exact .some hy
  | false =>
    refine .after fun x => .some (Nat.le_trans hy ?_)
    rw [List.length_append]
    exact Nat.le_add_right _ _

private theorem exists_of_kind {k : TokenKind} {x : Unit} (h : kind k s = .ok (x, r)) :
    ∃ t, t.kind = k ∧ s = t :: r := by
  obtain _ | ⟨t, s⟩ := s
  · cases h
  by_cases ht : t.kind = k
  · have htake : takeIf (atKind k) (t :: s) = .ok (true, s) :=
      (bind_ok (congrArg (fun b => Except.ok (b, t :: s)) (decide_eq_true ht))).trans rfl
    have hkind : kind k (t :: s) = .ok ((), s) := (bind_ok htake).trans rfl
    obtain ⟨-, rfl⟩ := Prod.mk.inj (Except.ok.inj (hkind.symm.trans h))
    exact ⟨t, ht, rfl⟩
  · have htake : takeIf (atKind k) (t :: s) = .ok (false, t :: s) :=
      takeIf_of_false (congrArg (fun b => Except.ok (b, t :: s)) (decide_eq_false ht))
    have hkind : kind k (t :: s) = refuse (t :: s) := (bind_ok htake).trans rfl
    exact absurd (hkind.symm.trans h) (refuse_ne_ok _ _ _)

/-- What one step behind a statement does that goes on: it takes a semicolon, and another statement
if the line does not end there. -/
theorem simpleStep_cases {statements : List Tree} {y : List Tree × Bool}
    (h : simpleStep rules (statements, true) s = .ok (some y, t)) :
    ∃ c, c.isOperator ";" = true ∧
      ((∃ u us, u.kind = .newline ∧ y = (statements, false) ∧ t = u :: us ∧ s = c :: t) ∨
        statements.length < y.1.length) := by
  have hsemicolon : Sees false (atOperator ";") (·.isOperator ";") := sees_operator nofun
  obtain ⟨c, ts, rfl, hc, htake⟩ | ⟨-, htake⟩ := hsemicolon.takeIf_cases s
  swap
  · cases (bind_ok htake).symm.trans h
  refine ⟨c, hc, ?_⟩
  have h₁ := (bind_ok htake).symm.trans h
  rw [if_pos ⟨rfl, rfl⟩] at h₁
  have hanother : Gives (fun o => ∀ y ∈ o, statements.length < y.1.length)
      (simple rules >>= fun v => pure (some (statements ++ [v], true))) := by
    refine .after fun v => .some ?_
    rw [List.length_append]
    exact Nat.lt_succ_self _
  obtain _ | ⟨u, us⟩ := ts
  · have hkind : atKind .newline [] = .ok (false, []) := rfl
    exact .inr (hanother ((bind_ok hkind).symm.trans h₁) y rfl)
  by_cases hu : u.kind = .newline
  · have hkind : atKind .newline (u :: us) = .ok (true, u :: us) :=
      congrArg (fun b => Except.ok (b, u :: us)) (decide_eq_true hu)
    cases (bind_ok hkind).symm.trans h₁
    exact .inl ⟨u, us, hu, rfl, rfl, rfl⟩
  · have hkind : atKind .newline (u :: us) = .ok (false, u :: us) :=
      congrArg (fun b => Except.ok (b, u :: us)) (decide_eq_false hu)
    exact .inr (hanother ((bind_ok hkind).symm.trans h₁) y rfl)

private theorem stays_simpleStep (statements : List Tree) :
    Stays (simpleStep rules (statements, true)) := by
  refine .takeIf (sees_operator (e := false) nofun) ?_ ?_
  · refine .conditional (fun _ => .after fun b => ?_) fun hfalse => absurd ⟨rfl, rfl⟩ hfalse
    cases b with
    | true => exact gives_isSome _
    | false => exact .after fun _ => gives_isSome _
  · rw [if_neg (fun hboth => Bool.false_ne_true hboth.2)]
    exact stays_none

/-- Nothing is read behind a semicolon at the end of a line. -/
theorem eq_of_iterate_end {statements : List Tree} {y : List Tree × Bool} (hu : u.kind = .newline)
    (h : iterate (simpleStep rules) n (statements, false) (u :: us) = .ok (y, r)) :
    y = (statements, false) ∧ r = u :: us := by
  have hstop : simpleStep rules (statements, false) (u :: us) = .ok (none, u :: us) := by
    obtain ⟨kind, text, line, column⟩ := u
    cases hu
    rfl
  cases n with
  | zero =>
    obtain ⟨rfl, rfl⟩ := Prod.mk.inj (Except.ok.inj h)
    exact ⟨rfl, rfl⟩
  | succ n =>
    obtain ⟨rfl, rfl⟩ := Prod.mk.inj (Except.ok.inj ((bind_ok hstop).symm.trans h))
    exact ⟨rfl, rfl⟩

/-- A line of one simple statement has read it, up to its end and a semicolon there at most. -/
theorem simple_of_simpleLine (h : simpleLine rules s = .ok ([v], rest)) :
    ∃ u, u.kind = .newline ∧ (simple rules s = .ok (v, u :: rest) ∨
      ∃ c, c.isOperator ";" = true ∧ simple rules s = .ok (v, c :: u :: rest)) := by
  obtain ⟨first, t, hfirst, h₁⟩ := exists_of_bind h
  obtain ⟨⟨statements, more⟩, w, hloop, h₂⟩ := exists_of_bind h₁
  obtain ⟨_, x, hkind, h₃⟩ := exists_of_bind h₂
  obtain ⟨rfl, rfl⟩ := Prod.mk.inj (Except.ok.inj h₃)
  obtain ⟨u, hu, rfl⟩ := exists_of_kind hkind
  refine ⟨u, hu, ?_⟩
  have hloop : iterate (simpleStep rules) (t.length + 1) ([first], true) t =
    .ok (([v], more), u :: x) := hloop
  obtain ⟨heq, ⟨hn, -⟩ | hstop⟩ | ⟨y, t', m, -, hstep, hrest⟩ := iterate_cases hloop
  · cases hn
  · cases heq
    obtain rfl := stays_simpleStep _ hstop
    exact .inl hfirst
  · obtain ⟨c, hc, ⟨u', us, hu', rfl, rfl, rfl⟩ | hlt⟩ := simpleStep_cases hstep
    · obtain ⟨heq, hend⟩ := eq_of_iterate_end hu' hrest
      cases heq
      cases hend
      exact .inr ⟨c, hc, hfirst⟩
    · have hle := length_le_of_iterate hrest
      have hone : [first].length < [v].length := Nat.lt_of_lt_of_le hlt hle
      exact absurd hone (Nat.lt_irrefl 1)

/-- **A statement of one expression has read it** up to the end of its line, or to a semicolon
there. -/
theorem expressions_of_parse {expr : Goal → Parser Tree} {pattern : PatternGoal → Parser Tree}
    {t : Token} (ht : t.BeginsOperand) (hmatch : t.text ≠ "match".toList)
    (h : parse expr pattern (n + 1) .statement (t :: s) = .ok ([.node .expression l [v]], rest)) :
    ∃ u, u.kind = .newline ∧ (expr .expressions (t :: s) = .ok (v, u :: rest) ∨
      ∃ c, c.isOperator ";" = true ∧ expr .expressions (t :: s) = .ok (v, c :: u :: rest)) := by
  have hyield : atWord "yield" (t :: s) = .ok (false, t :: s) :=
    atWord_of_isPlain ht.isPlain _ (by decide)
  have hassignment : ∀ {r : List Token},
      simple ⟨expr, pattern, parse expr pattern n⟩ (t :: s) = .ok (.node .expression l [v], r) →
        expr .expressions (t :: s) = .ok (v, r) := fun hsimple =>
    expressions_of_assignment hyield ((simple_of_assignment ht.isPlain).symm.trans hsimple)
  obtain ⟨u, hu, hline | ⟨c, hc, hline⟩⟩ :=
    simple_of_simpleLine ((statement_of_simpleLine ht hmatch).symm.trans h)
  · exact ⟨u, hu, .inl (hassignment hline)⟩
  · exact ⟨u, hu, .inr ⟨c, hc, hassignment hline⟩⟩

/-- What is left from a token on that stands only at the end of the tokens. -/
theorem eq_of_append_cons_eq {before front : List Token} {x : Token}
    (h : before ++ x :: rest = front ++ [u]) (hx : x ∉ front) :
    rest = [] ∧ before = front ∧ x = u := by
  obtain rfl | ⟨rest, last, rfl⟩ := List.eq_nil_or_concat rest
  · obtain ⟨rfl, heq⟩ := List.append_inj' h rfl
    exact ⟨rfl, rfl, List.singleton_inj.mp heq⟩
  · have hsplit : (before ++ x :: rest) ++ [last] = front ++ [u] := by simpa using h
    obtain ⟨rfl, -⟩ := List.append_inj' hsplit rfl
    exact absurd (by simp) hx

/-- **A statement of one expression on a line** has read all of the line, where it does not end with
a semicolon. -/
theorem expressions_of_line {b : Nat} {pattern : PatternGoal → Parser Tree} {t x : Token}
    (ht : t.BeginsOperand) (hmatch : t.text ≠ "match".toList)
    (hline : ∀ y ∈ t :: s ++ [x], y.kind ≠ .newline) (hx : x.isOperator ";" = false)
    (h : parse (Expression.parse b) pattern (n + 1) .statement (t :: s ++ [x] ++ [u]) =
      .ok ([.node .expression l [v]], rest)) :
    rest = [] ∧ Expression.parse b .expressions (t :: s ++ [x] ++ [u]) = .ok (v, [u]) := by
  obtain ⟨u', hu, hread | ⟨c, hc, hread⟩⟩ := expressions_of_parse ht hmatch h
  · obtain ⟨before, hbefore⟩ := (keepAll_parse (Nat.le_refl b) .expressions).suffix hread
    obtain ⟨rfl, -, rfl⟩ := eq_of_append_cons_eq hbefore fun hmem => hline u' hmem hu
    exact ⟨rfl, hread⟩
  · obtain ⟨before, hbefore⟩ := (keepAll_parse (Nat.le_refl b) .expressions).suffix hread
    have hsplit : (before ++ [c]) ++ u' :: rest = t :: s ++ [x] ++ [u] := by
      simpa using hbefore
    obtain ⟨rfl, hfront, rfl⟩ := eq_of_append_cons_eq hsplit fun hmem => hline u' hmem hu
    obtain ⟨-, hlast⟩ := List.append_inj' hfront rfl
    obtain rfl := List.singleton_inj.mp hlast
    cases hx.symm.trans hc

end Statement

end Code

end ServerPages
