import ServerPages.Proofs.Code.Edge.Grammar

/-!
# The forms of expressions

No expression begins with a star or a closing bracket (`Begins`), and none is unpacked (`Gives`).
-/

namespace ServerPages

namespace Code

/-- A token with which an expression may begin, as far as operators and `yield` go. -/
structure Token.MayBegin (t : Token) : Prop where
  operator : t.kind = .operator →
    t.text ∈ ["(", "[", "\x7b", "...", "+", "-", "~"].map String.toList
  word : t.kind = .name → t.text ≠ "yield".toList

private theorem Token.mayBegin_of_isName {t : Token} (h : Parser.isName t = true) : t.MayBegin := by
  simp only [Parser.isName, Bool.and_eq_true, decide_eq_true_eq, Bool.not_eq_true',
    List.contains_eq_mem, decide_eq_false_iff_not] at h
  refine ⟨fun hk => ?_, fun _ htext => ?_⟩
  · cases h.1.symm.trans hk
  · exact h.2 (htext ▸ by decide)

/-- An expression that is not unpacked. -/
def Tree.IsPacked (t : Tree) : Prop := t.shape ≠ .starred

private theorem Tree.isPacked_node {s : Shape} {l : Nat} {ps : List Tree} (h : s ≠ .starred) :
    (node s l ps).IsPacked := h

/-- What stands in square or curly brackets. -/
def Tree.IsDisplay (t : Tree) : Prop := t.shape ∈ [.list, .collection, .comprehension]

private theorem Tree.isDisplay_node {s : Shape} {l : Nat} {ps : List Tree}
    (h : s ∈ [.list, .collection, .comprehension]) : (node s l ps).IsDisplay := h

private theorem Tree.IsDisplay.isPacked {t : Tree} (h : t.IsDisplay) : t.IsPacked := by
  rintro hstarred
  rw [IsDisplay, hstarred] at h
  exact absurd h (by decide)

namespace Parser

variable {α β : Type} {p : Parser α} {f : α → Parser β} {P : α → Prop} {Q : β → Prop}

/-- A parser that takes tokens only where an expression may begin. -/
def Begins (p : Parser α) : Prop :=
  ∀ ⦃t : Token⦄ ⦃ts : List Token⦄ ⦃v : α⦄ ⦃r : List Token⦄, p (t :: ts) = .ok (v, r) → t.MayBegin

/-- A parser whose values have a property. -/
def Gives (P : α → Prop) (p : Parser α) : Prop :=
  ∀ ⦃s : List Token⦄ ⦃v : α⦄ ⦃r : List Token⦄, p s = .ok (v, r) → P v

theorem Begins.bind (h : Begins p) : Begins (p >>= f) := by
  intro _ _ _ _ hv
  obtain ⟨a, us, ha, -⟩ := exists_of_bind hv
  exact h ha

theorem Begins.line {f : Nat → Parser β} (hf : ∀ l, Begins (f l)) :
    Begins (Parser.line >>= f) := by
  intro t ts v r hv
  exact hf t.line hv

theorem Begins.look {e : Bool} {g : Token → Bool} {test : Parser Bool} {q : Bool → Parser β}
    (h : Sees e test g) (hq : ∀ b, Begins (q b)) : Begins (test >>= q) := by
  intro t ts v r hv
  exact hq (g t) ((bind_ok (h.cons t ts)).symm.trans hv)

private theorem begins_of_error (h : ∀ s v r, p s ≠ .ok (v, r)) : Begins p :=
  fun _ _ _ _ hv => absurd hv (h _ _ _)

private theorem Begins.word_bind {w : String} {q : Bool → Parser β} (hw : w.toList ≠ "yield".toList)
    (hfalse : Begins (q false)) : Begins (takeIf (atWord w) >>= q) := by
  intro t ts v r hv
  obtain ⟨u, us, heq, hg, -⟩ | ⟨-, htake⟩ := (sees_word w).takeIf_cases (t :: ts)
  · obtain ⟨rfl, rfl⟩ := List.cons.inj heq
    simp only [Bool.and_eq_true, decide_eq_true_eq] at hg
    refine ⟨fun hk => ?_, fun _ htext => hw (hg.2.symm.trans htext)⟩
    cases hg.1.symm.trans hk
  · exact hfalse ((bind_ok htake).symm.trans hv)

theorem gives_of_error (h : ∀ s v r, p s ≠ .ok (v, r)) : Gives P p :=
  fun _ _ _ hv => absurd hv (h _ _ _)

theorem Gives.imp {P' : α → Prop} (h : Gives P p) (hP : ∀ a, P a → P' a) : Gives P' p :=
  fun _ _ _ hv => hP _ (h hv)

theorem Gives.pure {a : α} (h : P a) : Gives P (Pure.pure a : Parser α) := by
  intro s v r hv
  obtain ⟨rfl, -⟩ := Prod.mk.inj (Except.ok.inj hv)
  exact h

theorem Gives.bind (hp : Gives P p) (hf : ∀ a, P a → Gives Q (f a)) : Gives Q (p >>= f) := by
  intro s v r hv
  obtain ⟨a, us, ha, hv⟩ := exists_of_bind hv
  exact hf a (hp ha) hv

/-- Whatever the first parser gives. -/
theorem Gives.after (hf : ∀ a, Gives Q (f a)) : Gives Q (p >>= f) :=
  Gives.bind (P := fun _ => True) (fun _ _ _ _ => trivial) fun a _ => hf a

theorem Gives.conditional {c : Prop} [Decidable c] {x y : Parser α} (hx : c → Gives P x)
    (hy : ¬c → Gives P y) : Gives P (if c then x else y) := by
  by_cases h : c
  · rw [if_pos h]
    exact hx h
  · rw [if_neg h]
    exact hy h

theorem Gives.iterate {step : α → Parser (Option α)} {a : α}
    (hstep : ∀ a, P a → Gives (fun o => ∀ b ∈ o, P b) (step a)) (n : Nat) (ha : P a) :
    Gives P (Parser.iterate step n a) := by
  induction n generalizing a with
  | zero => exact .pure ha
  | succ n ih =>
    refine .bind (hstep a ha) fun o ho => ?_
    cases o with
    | none => exact .pure ha
    | some b => exact ih (ho b rfl)

theorem Gives.loop {step : α → Parser (Option α)} {a : α} (ha : P a)
    (hstep : ∀ a, P a → Gives (fun o => ∀ b ∈ o, P b) (step a)) : Gives P (Parser.loop a step) :=
  fun _ _ _ hv => Gives.iterate hstep _ ha hv

end Parser

namespace Expression

open Code.Parser

/-- What is asked for is one expression, or what a `yield` makes of one. -/
def isOne : Goal → Bool
  | .expressions | .targets => false
  | _ => true

/-- The parsers of the rules for one expression. -/
structure Forms (rules : Rules) : Prop where
  begins {g : Goal} : g.isTight = true → Begins (rules g)
  gives {g : Goal} : isOne g = true → Gives Tree.IsPacked (rules g)

variable {rules : Rules} (hr : Forms rules)

include hr

/-! ### How expressions begin -/

private theorem begins_named : Begins (named rules) := by
  intro t ts v r hv
  obtain ⟨u, x, xs, heq, hpair, -⟩ | hexpression := pairs_named.cases (t :: ts)
  · obtain ⟨rfl, -⟩ := List.cons.inj heq
    rw [namesValue, Bool.and_eq_true] at hpair
    exact Token.mayBegin_of_isName hpair.1
  · exact hr.begins rfl (hexpression.symm.trans hv)

private theorem begins_expression : Begins (expression rules) := by
  refine .line fun l => .look (sees_word "lambda") fun b => ?_
  cases b with
  | true => exact .line fun l => .bind (.word_bind (by decide) (begins_of_error refuse_ne_ok))
  | false => exact .bind (hr.begins rfl)

private theorem begins_connected {g : Goal} (hg : g.isTight = true) (w : String) :
    Begins (connected w (rules g)) := .line fun _ => .bind (hr.begins hg)

private theorem begins_inversion : Begins (inversion rules) :=
  .line fun _ => .word_bind (by decide) (hr.begins rfl)

private theorem begins_comparison : Begins (comparison rules) := .line fun _ => .bind (hr.begins rfl)

private theorem begins_operation (level : Nat) : Begins (operation rules level) := by
  refine .line fun l => ?_
  cases levels[level]? with
  | none => exact hr.begins rfl
  | some ops => exact .bind (hr.begins rfl)

private theorem begins_factor : Begins (factor rules) := by
  refine .line fun l => ?_
  intro t ts v r hv
  obtain ⟨o, us, ho, hv⟩ := exists_of_bind hv
  rw [(takes_takeOperator _).cons] at ho
  split at ho
  · next hop =>
    obtain ⟨hk, hany⟩ := of_decide_eq_true hop
    obtain ⟨op, hmem, htext⟩ := List.any_eq_true.mp hany
    have hsigns : ∀ op ∈ ["+", "-", "~"], op ∈ ["(", "[", "\x7b", "...", "+", "-", "~"] := by decide
    refine ⟨fun _ => List.mem_map.mpr ⟨op, hsigns op hmem, (of_decide_eq_true htext).symm⟩,
      fun hk' => ?_⟩
    cases hk.symm.trans hk'
  · obtain ⟨rfl, rfl⟩ := Prod.mk.inj (Except.ok.inj ho)
    exact Begins.bind (hr.begins rfl) hv

private theorem begins_primary : Begins (primary rules) :=
  .line fun _ => .word_bind (by decide) (.line fun _ => .bind (hr.begins rfl))

omit hr in
private theorem begins_atom : Begins (atom rules) := by
  intro t ts v r hv
  have hrest := atom_cons_iff.mp hv
  obtain ⟨kind, text, line, column⟩ := t
  refine ⟨fun hk => ?_, fun hk htext => ?_⟩
  · cases hk
    by_contra hnot
    simp only [List.map_cons, List.map_nil, List.mem_cons, List.not_mem_nil, or_false, not_or]
      at hnot
    obtain ⟨hround, hsquare, hcurly, hdots, -⟩ := hnot
    simp only [atomRest] at hrest
    rw [if_neg (c := text = ['(']) hround, if_neg (c := text = ['[']) hsquare,
      if_neg (c := text = ['\x7b']) hcurly, if_neg hdots] at hrest
    exact refuse_ne_ok ts v r hrest
  · cases hk
    cases htext
    exact refuse_ne_ok ts v r hrest

/-! ### What expressions are -/

private theorem gives_named : Gives Tree.IsPacked (named rules) := by
  intro s v r hv
  obtain ⟨t, u, us, rfl, -, hpair⟩ | hexpression := pairs_named.cases s
  · have hrest : Gives Tree.IsPacked (namedRest rules t) :=
      .after fun _ => .pure (Tree.isPacked_node nofun)
    exact hrest (hpair.symm.trans hv)
  · exact hr.gives rfl (hexpression.symm.trans hv)

private theorem gives_expression : Gives Tree.IsPacked (expression rules) := by
  refine .after fun l => .after fun b => ?_
  cases b with
  | true =>
    exact .after fun l => .after fun _ => .after fun _ => .after fun _ => .after fun _ =>
      .pure (Tree.isPacked_node nofun)
  | false =>
    refine .bind (hr.gives rfl) fun body hbody => .after fun b => ?_
    cases b with
    | true => exact .after fun _ => .after fun _ => .after fun _ => .pure (Tree.isPacked_node nofun)
    | false => exact .pure hbody

private theorem gives_connected {g : Goal} (hg : isOne g = true) (w : String) :
    Gives Tree.IsPacked (connected w (rules g)) := by
  refine .after fun l => .bind (hr.gives hg) fun first hfirst => ?_
  refine .bind (P := fun operands => ∀ v ∈ operands, v.IsPacked)
    (.loop (by simpa using hfirst) fun operands hoperands => .after fun b => ?_)
    fun operands hoperands => .pure ?_
  · cases b with
    | true =>
      refine .bind (hr.gives hg) fun operand hoperand => .pure ?_
      rintro b ⟨⟩ v hv
      obtain hv | hv := List.mem_append.mp hv
      · exact hoperands v hv
      · rwa [List.mem_singleton.mp hv]
    | false => exact .pure nofun
  · obtain _ | ⟨v, _ | ⟨w, operands⟩⟩ := operands
    · exact Tree.isPacked_node nofun
    · exact hoperands v (List.mem_singleton_self v)
    · exact Tree.isPacked_node nofun

private theorem gives_inversion : Gives Tree.IsPacked (inversion rules) := by
  refine .after fun l => .after fun b => ?_
  cases b with
  | true => exact .after fun _ => .pure (Tree.isPacked_node nofun)
  | false => exact hr.gives rfl

private theorem gives_comparison : Gives Tree.IsPacked (comparison rules) := by
  refine .after fun l => .bind (hr.gives rfl) fun first hfirst => .after fun r => ?_
  obtain ⟨ops, operands⟩ := r
  refine .pure ?_
  split
  · exact hfirst
  · exact Tree.isPacked_node nofun

private theorem gives_operation (level : Nat) : Gives Tree.IsPacked (operation rules level) := by
  refine .after fun l => ?_
  cases levels[level]? with
  | none => exact hr.gives rfl
  | some ops =>
    refine .bind (hr.gives rfl) fun left hleft => .loop hleft fun left hleft => .after fun o => ?_
    cases o with
    | none => exact .pure nofun
    | some op =>
      refine .after fun right => .pure ?_
      rintro b ⟨⟩
      exact Tree.isPacked_node nofun

private theorem gives_factor : Gives Tree.IsPacked (factor rules) := by
  refine .after fun l => .after fun o => ?_
  cases o with
  | some op => exact .after fun _ => .pure (Tree.isPacked_node nofun)
  | none =>
    refine .bind (hr.gives rfl) fun base hbase => .after fun b => ?_
    cases b with
    | true => exact .after fun _ => .pure (Tree.isPacked_node nofun)
    | false => exact .pure hbase

private theorem gives_operand : Gives Tree.IsPacked (operand rules) := by
  refine .after fun l => .bind (hr.gives rfl) fun first hfirst =>
    .loop hfirst fun value hvalue => ?_
  have hnode : ∀ {s : Shape} {line : Nat} {ps : List Tree}, s ≠ .starred →
      ∀ b ∈ some (Tree.node s line ps), b.IsPacked := by
    rintro s line ps hs b ⟨⟩
    exact Tree.isPacked_node hs
  refine .after fun b => ?_
  cases b with
  | true => exact .after fun _ => .pure (hnode nofun)
  | false =>
  refine .after fun b => ?_
  cases b with
  | true => exact .after fun _ => .pure (hnode nofun)
  | false =>
  refine .after fun b => ?_
  cases b with
  | true => exact .after fun _ => .pure (hnode nofun)
  | false => exact .pure nofun

private theorem gives_primary : Gives Tree.IsPacked (primary rules) := by
  refine .after fun l => .after fun b => ?_
  cases b with
  | true => exact .after fun _ => .pure (Tree.isPacked_node nofun)
  | false => exact gives_operand hr

omit hr in
private theorem gives_number (t : Token) : Gives Tree.IsPacked (number t) := by
  unfold number
  cases wholeNumber t.text with
  | none => exact .pure (Tree.isPacked_node nofun)
  | some n =>
    exact .conditional (fun _ => gives_of_error nofun) fun _ => .pure (Tree.isPacked_node nofun)

omit hr in
private theorem gives_stringsOf (line : Nat) (ts : List Token) :
    Gives Tree.IsPacked (stringsOf rules line ts) := by
  refine .conditional (fun _ => .conditional (fun _ => .pure (Tree.isPacked_node nofun))
      fun _ => gives_of_error nofun) fun _ => .conditional (fun _ => .after fun _ =>
        .pure (Tree.isPacked_node nofun)) fun _ => ?_
  split
  · exact .pure (Tree.isPacked_node nofun)
  · exact gives_of_error nofun

private theorem gives_parenthesised (line : Nat) : Gives Tree.IsPacked (parenthesised rules line) := by
  refine .after fun b => ?_
  cases b with
  | true => exact .pure (Tree.isPacked_node nofun)
  | false =>
  refine .after fun b => ?_
  cases b with
  | true =>
    exact .bind (hr.gives (g := .yielding) rfl) fun value hvalue => .after fun _ => .pure hvalue
  | false =>
  refine .after fun first => .after fun b => ?_
  cases b with
  | true =>
    refine .after fun _ => .after fun b => ?_
    cases b with
    | true => exact .pure (Tree.isPacked_node nofun)
    | false => exact .after fun _ => .after fun _ => .pure (Tree.isPacked_node nofun)
  | false =>
    simp only [Bool.false_eq_true, if_false]
    refine .conditional (fun _ => gives_of_error refuse_ne_ok) fun hstarred => .after fun b => ?_
    cases b with
    | true => exact .after fun _ => .after fun _ => .pure (Tree.isPacked_node nofun)
    | false =>
      refine .after fun _ => .pure fun hshape => hstarred ?_
      obtain ⟨s, l, ps⟩ := first
      cases hshape
      rfl

omit hr in
private theorem gives_elements (closing : String) {shape : Shape}
    (hshape : shape ∈ [.list, .collection, .comprehension]) (line : Nat) (items : List Tree)
    (trailing : Bool) :
    Gives Tree.IsDisplay (elements rules closing shape line items trailing) := by
  refine .after fun clause => ?_
  split
  · exact gives_of_error refuse_ne_ok
  · exact .after fun _ => .after fun _ => .pure (Tree.isDisplay_node (by decide))
  · exact .after fun _ => .pure (Tree.isDisplay_node hshape)

omit hr in
private theorem gives_table (line : Nat) (first : Option Tree × Tree) :
    Gives Tree.IsDisplay (table rules line first) := by
  refine .after fun x => .after fun clause => ?_
  split
  · exact gives_of_error refuse_ne_ok
  · exact .after fun _ => .after fun _ => .pure (Tree.isDisplay_node (by decide))
  · exact .after fun _ => .pure (Tree.isDisplay_node (by decide))

omit hr in
theorem gives_bracketed (line : Nat) : Gives Tree.IsDisplay (bracketed rules line) := by
  refine .after fun b => ?_
  cases b with
  | true => exact .pure (Tree.isDisplay_node (by decide))
  | false =>
    have hshape : Shape.list ∈ [Shape.list, .collection, .comprehension] := by decide
    exact .after fun x => gives_elements "]" hshape line x.1 x.2

omit hr in
theorem gives_braced (line : Nat) : Gives Tree.IsDisplay (braced rules line) := by
  refine .after fun b => ?_
  cases b with
  | true => exact .pure (Tree.isDisplay_node (by decide))
  | false =>
  refine .after fun b => ?_
  cases b with
  | true => exact .after fun first => gives_table line first
  | false =>
  refine .after fun enclosed => .after fun first => .after fun b => ?_
  cases b with
  | true =>
    simp only [if_true]
    exact .conditional (fun _ => gives_of_error refuse_ne_ok) fun _ => .after fun _ =>
      .after fun value => gives_table line (some first, value)
  | false =>
    have hshape : Shape.collection ∈ [Shape.list, .collection, .comprehension] := by decide
    exact .after fun x => gives_elements "\x7d" hshape line x.1 x.2

private theorem gives_atom : Gives Tree.IsPacked (atom rules) := by
  intro s v r hv
  obtain _ | ⟨t, ts⟩ := s
  · exact absurd hv (refuse_ne_ok [] v r)
  have hrest : Gives Tree.IsPacked (atomRest rules t) := by
    obtain ⟨kind, text, line, column⟩ := t
    cases kind with
    | number => exact gives_number _
    | string => exact .after fun ts => gives_stringsOf line ts
    | name =>
      exact .conditional (fun _ => .pure (Tree.isPacked_node nofun)) fun _ =>
        .conditional (fun _ => .pure (Tree.isPacked_node nofun)) fun _ =>
        .conditional (fun _ => .pure (Tree.isPacked_node nofun)) fun _ =>
        .conditional (fun _ => .pure (Tree.isPacked_node nofun)) fun _ =>
        gives_of_error refuse_ne_ok
    | operator =>
      exact .conditional (fun _ => gives_parenthesised hr line) fun _ =>
        .conditional (fun _ => (gives_bracketed line).imp fun _ => Tree.IsDisplay.isPacked) fun _ =>
        .conditional (fun _ => (gives_braced line).imp fun _ => Tree.IsDisplay.isPacked) fun _ =>
        .conditional (fun _ => .pure (Tree.isPacked_node nofun)) fun _ =>
        gives_of_error refuse_ne_ok
    | _ => exact gives_of_error refuse_ne_ok
  exact hrest (atom_cons_iff.mp hv)

omit hr in
private theorem gives_yielding : Gives Tree.IsPacked (yielding rules) := by
  refine .after fun l => .after fun _ => .after fun b => ?_
  cases b with
  | true => exact .after fun _ => .pure (Tree.isPacked_node nofun)
  | false =>
    refine .after fun b => ?_
    cases b with
    | true => exact .after fun _ => .pure (Tree.isPacked_node nofun)
    | false => exact .pure (Tree.isPacked_node nofun)

/-! ### All rules -/

private theorem forms_rule : Forms (rule rules) where
  begins {g} hg := by
    cases g with
    | named => exact begins_named hr
    | expression => exact begins_expression hr
    | disjunction => exact begins_connected hr (g := .conjunction) rfl "or"
    | conjunction => exact begins_connected hr (g := .inversion) rfl "and"
    | inversion => exact begins_inversion hr
    | comparison => exact begins_comparison hr
    | operation level => exact begins_operation hr level
    | factor => exact begins_factor hr
    | primary => exact begins_primary hr
    | atom => exact begins_atom
    | expressions => cases hg
    | targets => cases hg
    | yielding => cases hg
  gives {g} hg := by
    cases g with
    | named => exact gives_named hr
    | expression => exact gives_expression hr
    | disjunction => exact gives_connected hr (g := .conjunction) rfl "or"
    | conjunction => exact gives_connected hr (g := .inversion) rfl "and"
    | inversion => exact gives_inversion hr
    | comparison => exact gives_comparison hr
    | operation level => exact gives_operation hr level
    | factor => exact gives_factor hr
    | primary => exact gives_primary hr
    | atom => exact gives_atom hr
    | expressions => cases hg
    | targets => cases hg
    | yielding => exact gives_yielding

omit hr in
/-- No expression begins with a star or a closing bracket, and none is unpacked. -/
theorem forms_parse (b : Nat) : Forms (parse b) := by
  induction b with
  | zero => exact ⟨fun _ => begins_of_error refuse_ne_ok, fun _ => gives_of_error refuse_ne_ok⟩
  | succ b ih => exact forms_rule ih

end Expression

end Code

end ServerPages
