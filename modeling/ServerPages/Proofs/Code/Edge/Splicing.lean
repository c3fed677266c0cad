import ServerPages.Proofs.Code.Edge.Calls
import ServerPages.Proofs.Code.Edge.Handed

/-!
# Code that is handed on

Code that is an expression in brackets of its own is handed on by the call on whose line it stands
if and only if it is one expression without them (`HasValue.isStatement_spliced_iff`). In brackets,
on a line of its own with a comment behind it, it is handed on if and only if these brackets belong
together and one more may be open around it (`HasValue.isStatement_bracketed_iff`).
-/

namespace ServerPages

namespace Code

open Code.Parser Expression

namespace Expression

variable {b b' : Nat} {g : Goal} {s r r' : List Token} {v v' : Tree}

/-- What a rule makes of tokens does not depend on how deep the rules may be nested. -/
theorem parse_unique (hg : g.isTight = true) (h : parse b g s = .ok (v, r))
    (h' : parse b' g s = .ok (v', r')) : Alike v v' ∧ r = r' := by
  have hmax {c : Nat} {x : Tree} {t : List Token} (hc : c ≤ max b b')
      (hx : parse c g s = .ok (x, t)) : ∃ x' t', parse (max b b') g s = .ok (x', t') ∧
        Alike x x' ∧ Alike t t' := by
    have hnil : parse c g (s ++ []) = .ok (x, t ++ []) := by simpa using hx
    obtain ⟨x', t', hx', hxx', htt'⟩ := (keepAll_parse hc g).same (.refl s) atEdge_nil atEdge_nil
      (.inl hg) hnil
    rw [List.append_nil, List.append_nil] at hx'
    exact ⟨x', t', hx', hxx', htt'⟩
  obtain ⟨x, t, hx, hvx, hrt⟩ := hmax (Nat.le_max_left b b') h
  obtain ⟨x', t', hx', hvx', hrt'⟩ := hmax (Nat.le_max_right b b') h'
  obtain ⟨rfl, rfl⟩ := Prod.mk.inj (Except.ok.inj (hx.symm.trans hx'))
  refine ⟨hvx.trans hvx'.symm, ?_⟩
  have hlength := (hrt.trans hrt'.symm).length_eq
  exact (List.suffix_of_suffix_length_le ((keepAll_parse (Nat.le_refl b) g).suffix h)
    ((keepAll_parse (Nat.le_refl b') g).suffix h') hlength.le).eq_of_length hlength

/-! ### Code in brackets -/

variable {k : Nat} {o c u : Token} {ts rest t : List Token} {x : Tree}

private theorem beginsOperand_of_bracket (ho : o.isOperator "(" = true) : o.BeginsOperand := by
  obtain ⟨hkind, htext⟩ := Token.eq_of_isOperator ho
  exact ⟨Token.isPlain_of_kind (by simp [hkind]), fun _ => .inr htext⟩

/-- What stands behind a bracket begins with one expression, or is a tuple. -/
theorem expressions_cases (ho : o.isOperator "(" = true)
    (h : parse (k + 1) .expressions (o :: s) = .ok (v, r)) : ∃ x t,
      parse k .expression (o :: s) = .ok (x, t) ∧ (v = x ∧ r = t ∨ v.shape = .tuple) := by
  obtain ⟨l, w, hl, hv⟩ := exists_of_bind h
  obtain ⟨rfl, rfl⟩ := Prod.mk.inj (Except.ok.inj ((line_eq _).symm.trans hl))
  obtain ⟨⟨items, trailing⟩, w, hitems, hv⟩ := exists_of_bind hv
  obtain ⟨first, t, hfirst, hitems⟩ := exists_of_bind hitems
  have hstar : takeIf (atOperator "*") (o :: s) = .ok (false, o :: s) :=
    takeIf_of_false (atOperator_of_beginsOperand (beginsOperand_of_bracket ho) "*" (by decide))
  have hfirst : parse k .expression (o :: s) = .ok (first, t) :=
    ((bind_ok (line_eq _)).trans (bind_ok hstar)).symm.trans hfirst
  obtain ⟨rfl, rfl⟩ := Prod.mk.inj (Except.ok.inj hv)
  refine ⟨first, t, hfirst, ?_⟩
  obtain ⟨heq, rfl⟩ | hmore := commaSeparatedFrom_cases hitems
  · obtain ⟨rfl, rfl⟩ := Prod.mk.inj heq
    exact .inl ⟨rfl, rfl⟩
  · obtain _ | ⟨x, _ | ⟨y, items⟩⟩ := items
    · exact .inr rfl
    · obtain rfl : trailing = true := by simpa using hmore
      exact .inr rfl
    · exact .inr rfl

private theorem isPacked_of_expressions (ho : o.isOperator "(" = true)
    (h : parse k .expressions (o :: s) = .ok (v, r)) : v.IsPacked := by
  obtain _ | k := k
  · exact absurd h (refuse_ne_ok _ _ _)
  obtain ⟨x, t, hx, ⟨rfl, -⟩ | htuple⟩ := expressions_cases ho h
  · exact (forms_parse k).gives rfl hx
  · exact fun hstarred => nomatch htuple.symm.trans hstarred

/-- What an expression behind a bracket begins with is what the bracket opens. -/
theorem exists_parenthesised (ho : o.isOperator "(" = true)
    (h : parse (k + 15) .expression (o :: s) = .ok (v, r)) :
    ∃ x t, parenthesised (parse k) o.line s = .ok (x, t) := by
  obtain ⟨kind, text, line, column⟩ := o
  obtain ⟨rfl, rfl⟩ := Token.eq_of_isOperator ho
  have hplain : Token.IsPlain ⟨.operator, "(".toList, line, column⟩ := Token.isPlain_of_kind nofun
  cases hatom : parse (k + 1) .atom (⟨.operator, "(".toList, line, column⟩ :: s) with
  | ok x => exact ⟨x.1, x.2, atom_cons_iff.mp hatom⟩
  | error e =>
    -- the rules down to it refuse the tokens with it
    have hsettled : Settled (.error e : Except Refusal (Tree × List Token)) := .refused e
    have hprimary : parse (k + 2) .primary _ = _ :=
      primary_of_operand hplain (operand_of_atom hsettled hatom)
    have hfactor : parse (k + 3) .factor _ = _ :=
      factor_of_primary hsettled (fun h => absurd h.2 (by simp)) hprimary
    cases (parse_expression_of_factor hsettled hplain hfactor).symm.trans h

/-- One expression is read in brackets as it is read without them. -/
theorem named_of_parenthesised {line : Nat} (hone : parse b .named ts = .ok (v, []))
    (hc : c.isOperator ")" = true)
    (h : parenthesised (parse k) line (ts ++ c :: rest) = .ok (x, t)) :
    ∃ v', parse k .named ts = .ok (v', []) := by
  obtain ⟨y, ts, rfl⟩ := List.exists_cons_of_ne_nil (ne_nil_of_named hone)
  have hedge := atEdge_cons (Token.endsOperand_of_closing hc).isEdge rest
  obtain ⟨v', -, hv'⟩ := named_append hone (Nat.le_refl b) (.refl _) hedge
  have hopened := ((bind_ok (takeIf_of_false (atOperator_of_named hone ")" (by decide) _))).trans
    (bind_ok (atWord_of_named hone _))).symm.trans h
  obtain ⟨first, us, hfirst, -⟩ := exists_of_bind hopened
  have hstar := takeIf_of_false (atOperator_of_named hone "*" (by decide) (ts ++ c :: rest))
  have hfirst : parse k .named (y :: ts ++ c :: rest) = .ok (first, us) :=
    ((bind_ok (line_eq _)).trans (bind_ok hstar)).symm.trans hfirst
  obtain ⟨-, rfl⟩ := parse_unique rfl hfirst hv'
  obtain ⟨w, -, hw⟩ := named_before hedge hfirst
  exact ⟨w, hw⟩

end Expression

/-- Tokens that are one expression, which needs no brackets around it. -/
def IsOne (ts : List Token) : Prop := ∃ b v, Expression.parse b .named ts = .ok (v, [])

variable {ts as us : List Token} {v w tree : Tree} {s e : Text} {b n : Nat}
  {pattern : PatternGoal → Parser Tree}

private theorem IsOne.of_alike (h : IsOne ts) (hts : Alike ts as) : IsOne as := by
  obtain ⟨b, v, hv⟩ := h
  obtain ⟨w, -, hw⟩ := named_alone hv (Nat.le_refl b) hts
  exact ⟨b, w, hw⟩

private theorem kind_ne_newline {ps : List Token} {x : Text} (h : Runs x ps) :
    ∀ p ∈ ps, p.kind ≠ .newline := by
  have hkinds : ∀ kind ∈ [TokenKind.name, .number, .string, .operator], kind ≠ .newline := by decide
  exact fun p hp => hkinds _ (h.kind_mem p hp)

private theorem kind_ne_newline_of_alike (h : Alike ts as) (hts : ∀ t ∈ ts, t.kind ≠ .newline) :
    ∀ t ∈ as, t.kind ≠ .newline := by
  intro u hu
  obtain ⟨t, ht, hkind⟩ := exists_kind_of_alike h hu
  exact hkind ▸ hts t ht

/-- One expression is one in brackets of its own, too. -/
theorem IsOne.group {o c : Token} (h : IsOne ts) (ho : o.isOperator "(" = true)
    (hc : c.isOperator ")" = true) : IsOne (o :: (ts ++ [c])) := by
  obtain ⟨b, v, hv⟩ := h
  obtain ⟨w, -, hw⟩ := named_group hv (Nat.le_refl (b + 16)) (.refl ts) ho hc
  exact ⟨b + 16, w, hw⟩

/-- Strings that end where a string stands behind an operator are that one string. -/
theorem eq_of_append_eq {x y q : Token} {before z : List Token} (hz : z ≠ [])
    (h : before ++ x :: z = as ++ [y, q])
    (hall : (∀ t ∈ z, t.kind = .string) ∨ ∃ t ∈ z.getLast?, t.kind = .operator)
    (hy : y.kind = .operator) (hq : q.kind = .string) : before = as ∧ x = y ∧ z = [q] := by
  obtain ⟨z, last, rfl⟩ := (List.eq_nil_or_concat' z).resolve_left hz
  have hsplit : (before ++ x :: z) ++ [last] = (as ++ [y]) ++ [q] := by simpa using h
  obtain ⟨hfront, hlast⟩ := List.append_inj' hsplit rfl
  obtain rfl := List.singleton_inj.mp hlast
  have hstrings : ∀ t ∈ z ++ [last], t.kind = .string := by
    refine hall.resolve_right ?_
    rintro ⟨t, ht, hkind⟩
    obtain rfl : last = t := by simpa using ht
    cases hkind.symm.trans hq
  obtain rfl | ⟨z, other, rfl⟩ := List.eq_nil_or_concat' z
  · obtain ⟨rfl, hxy⟩ := List.append_inj' hfront rfl
    exact ⟨rfl, List.singleton_inj.mp hxy, rfl⟩
  · have hsplit' : (before ++ x :: z) ++ [other] = as ++ [y] := by simpa using hfront
    obtain ⟨-, hother⟩ := List.append_inj' hsplit' rfl
    obtain rfl := List.singleton_inj.mp hother
    cases hy.symm.trans (hstrings other (by simp))

/-- A value before the text that ends a call is read up to the comma before that text. -/
theorem named_of_listed {m : Nat} {y q p u : Token} {value text : Tree} {x : Text}
    (hy : y.isOperator "," = true) (hq : q.kind = .string)
    (htext : text.shape = .constant (.text x))
    (h : Listed (parse m) (as ++ [y, q, p, u]) [value, text] [p, u]) :
    parse m .named (as ++ [y, q, p, u]) = .ok (value, [y, q, p, u]) := by
  have hsuffix {s r : List Token} {v : Tree} (h : parse m .named s = .ok (v, r)) : r <:+ s :=
    (keepAll_parse (Nat.le_refl m) .named).suffix h
  obtain ⟨c, t, hvalue, ⟨-, hlisted⟩ | ⟨hnil, -⟩⟩ := h.exists_of_cons
  swap
  · cases hnil
  obtain ⟨before, hbefore⟩ := hsuffix hvalue
  -- the text is read up to the bracket at the end, with no comma behind it
  obtain ⟨c', t', hlast, ⟨hc', hnone⟩ | ⟨-, hend⟩⟩ := hlisted.exists_of_cons
  · obtain rfl := hnone.eq_of_nil
    obtain ⟨between, rfl⟩ := hsuffix hlast
    have hsplit : (before ++ c :: between ++ [c']) ++ [p, u] = (as ++ [y, q]) ++ [p, u] := by
      simpa using hbefore
    obtain ⟨hfront, -⟩ := List.append_inj' hsplit rfl
    have hsplit' : (before ++ c :: between) ++ [c'] = (as ++ [y]) ++ [q] := by simpa using hfront
    obtain ⟨-, hlast'⟩ := List.append_inj' hsplit' rfl
    obtain rfl := List.singleton_inj.mp hlast'
    cases (Token.eq_of_isOperator hc').1.symm.trans hq
  · rw [← hend] at hlast
    obtain ⟨shape, l, ps⟩ := text
    cases htext
    obtain ⟨z, rfl, hz, hall⟩ := strings_or_closed_of_text (g := .named) rfl hlast
    have hsplit : (before ++ c :: z) ++ [p, u] = (as ++ [y, q]) ++ [p, u] := by
      simpa using hbefore
    obtain ⟨hfront, -⟩ := List.append_inj' hsplit rfl
    obtain ⟨rfl, rfl, rfl⟩ :=
      eq_of_append_eq hz hfront hall (Token.eq_of_isOperator hy).1 hq
    exact hvalue

/-- The value that stands between a name and a text in the brackets of a call is one expression. -/
theorem isOne_of_arguments {m : Nat} {f d y q p u : Token} {args : List Tree} {line : Nat}
    (hf : isName f = true) (hd : d.isOperator "," = true) (hy : y.isOperator "," = true)
    (hq : q.kind = .string) (hp : p.isOperator ")" = true) (hw : w.IsPacked)
    (hargs : Alike args [nameTree line f.identifier, w, .node (.constant (.text s)) line []])
    (h : arguments (parse m) true (f :: d :: (as ++ [y, q, p, u])) = .ok (args, [u])) :
    IsOne as := by
  obtain ⟨first, args, rfl, hfirst, hargs⟩ := hargs.symm.exists_cons
  obtain ⟨value, args, rfl, hvalue, hargs⟩ := hargs.exists_cons
  obtain ⟨text, args, rfl, htext, hnone⟩ := hargs.exists_cons
  obtain rfl := hnone.nil_iff.mp rfl
  have htext : text.shape = .constant (.text s) := (shape_of_alike htext).symm
  have hpacked : ∀ v ∈ [first, value, text], v.IsPacked := by
    simp only [List.forall_mem_cons, Tree.IsPacked, ← shape_of_alike hfirst, ← shape_of_alike hvalue,
      htext]
    exact ⟨nofun, hw, nofun, nofun⟩
  have hlast : ∀ v ∈ [first, value, text].getLast?, ¬ v.IsKeyword := by
    rintro v ⟨⟩ ⟨id, hid⟩
    cases htext.symm.trans hid
  obtain ⟨p', -, hlisted⟩ := listed_of_arguments h (by simp) hpacked hlast
  -- the sink is read up to the comma behind it
  obtain ⟨c, t, hsink, ⟨-, hlisted⟩ | ⟨hnil, -⟩⟩ := hlisted.exists_of_cons
  swap
  · cases hnil
  have hrest := (parse_unique rfl hsink
    (named_of_isName hf (Token.endsOperand_of_comma hd))).2
  obtain ⟨rfl, rfl⟩ := List.cons.inj hrest
  -- the bracket that closes the call is the one at the end of the line
  obtain ⟨before, hbefore⟩ := hlisted.suffix
  have hsplit : before ++ [p', u] = (as ++ [y, q]) ++ [p, u] := by simpa using hbefore
  obtain ⟨-, hend⟩ := List.append_inj' hsplit rfl
  obtain ⟨rfl, -⟩ := List.cons.inj hend
  have hedge := atEdge_cons (Token.endsOperand_of_comma hy).isEdge [q, p', u]
  obtain ⟨v, -, hv⟩ := named_before hedge (named_of_listed hy hq htext hlisted)
  exact ⟨m, v, hv⟩

/-- **The value that a call hands on is one expression**: the tokens between the sink and the text
of the call are it, whole and with no brackets around it. -/
theorem isOne_of_parse_writing (hw : w.IsPacked) (hline : ∀ t ∈ as, t.kind ≠ .newline)
    (hus : Alike (openingTokens ++ (as ++ closingTokens s)) us) (htree : Alike (writing w s) tree)
    (h : Statement.parse (Expression.parse b) pattern (n + 1) .statement us = .ok ([tree], [])) :
    IsOne as := by
  obtain ⟨p₁, p₂, p₃, p₄, p₅, p₆, p₇, p₈, p₉, p, as', has, rfl⟩ := exists_call hus
  refine IsOne.of_alike ?_ has.symm
  obtain ⟨shape, line, parts⟩ := tree
  obtain ⟨rfl, hparts⟩ := alike_node_iff.mp htree
  obtain ⟨v, parts, rfl, hcall, hnil⟩ := hparts.exists_cons
  obtain rfl := hnil.nil_iff.mp rfl
  have hname : isName (tokenAt .name "gosp".toList p₁) = true := rfl
  have hmatch : "gosp".toList ≠ "match".toList := by decide
  have hkinds : ∀ y ∈ tokenAt .name "gosp".toList p₁ :: tokenAt .operator ['.'] p₂ ::
      tokenAt .name "fprint".toList p₃ :: tokenAt .operator ['('] p₄ ::
      tokenAt .name "gosp_out".toList p₅ :: tokenAt .operator [','] p₆ ::
      (as' ++ [tokenAt .operator [','] p₇, tokenAt .string (Quoted.encode s) p₈]) ++
        [tokenAt .operator [')'] p₉], y.kind ≠ .newline := by
    simpa [or_imp, forall_and] using kind_ne_newline_of_alike has hline
  have hbegins := beginsOperand_of_isName hname
  obtain ⟨-, hread⟩ :=
    Statement.expressions_of_line hbegins hmatch hkinds rfl (by simpa using h)
  obtain ⟨shape, line', parts⟩ := v
  obtain ⟨rfl, -⟩ := alike_node_iff.mp hcall
  obtain ⟨m, hoperand⟩ := exists_operand (g := .expressions) rfl hread nofun
  obtain _ | m := m
  · obtain ⟨l, t, hl, hrest⟩ := exists_of_bind hoperand
    obtain ⟨x, t', hx, -⟩ := exists_of_bind hrest
    exact absurd hx (refuse_ne_ok _ _ _)
  have hsink : isName (tokenAt .name "gosp_out".toList p₅) = true := rfl
  obtain ⟨args, hargs, harguments⟩ := arguments_of_operand
    (s := tokenAt .name "gosp_out".toList p₅ :: tokenAt .operator [','] p₆ ::
      (as' ++ [tokenAt .operator [','] p₇, tokenAt .string (Quoted.encode s) p₈,
        tokenAt .operator [')'] p₉, tokenAt .newline ['\n'] p]))
    rfl rfl rfl (fun ts => atom_of_isName hname) hcall.symm (by simpa using hoperand)
  exact isOne_of_arguments hsink rfl rfl rfl rfl hw hargs harguments

/-! ### Programs of one statement -/

private theorem Statement.ne_nil_of_simpleLine {rules : Statement.Rules} {r : List Token} {vs : List Tree}
    (h : Statement.simpleLine rules ts = .ok (vs, r)) : vs ≠ [] := by
  obtain ⟨first, t, -, h₁⟩ := exists_of_bind h
  obtain ⟨⟨statements, more⟩, u, hloop, h₂⟩ := exists_of_bind h₁
  obtain ⟨_, x, -, h₃⟩ := exists_of_bind h₂
  obtain ⟨rfl, rfl⟩ := Prod.mk.inj (Except.ok.inj h₃)
  have hlength : [first].length ≤ statements.length := Statement.length_le_of_iterate hloop
  exact List.ne_nil_of_length_pos hlength

/-- The statement that a program of one statement begins with is all that it says. -/
theorem statement_of_parse {t : Token} {x : Text} {l : Nat} (ht : t.BeginsOperand)
    (hmatch : t.text ≠ "match".toList) (hread : kept (programTokens x) = (t :: us, none))
    (h : Program.parse x = .ok (.node .module l [tree])) :
    ∃ pattern n rest, Statement.parse (Expression.parse (Program.bound x)) pattern (n + 1)
      .statement (t :: us) = .ok ([tree], rest) := by
  have hfilter : (programTokens x).1.filter (fun t => t.kind ≠ .comment ∧ t.kind ≠ .blankLine) =
      t :: us := congrArg Prod.fst hread
  have hfault : (programTokens x).2 = none := congrArg Prod.snd hread
  by_cases hnull : '\x00' ∈ x
  · rw [Program.parse, if_pos hnull] at h
    cases h
  rw [Program.parse, if_neg hnull] at h
  simp only [hfilter, hfault] at h
  cases hrun : (Program.statements x).run (t :: us) with
  | error e =>
    rw [hrun] at h
    cases h
  | ok r =>
    obtain ⟨body, rest⟩ := r
    rw [hrun] at h
    cases h
    obtain ⟨heq, -⟩ | ⟨first, u, m, -, hstep, hrest⟩ := iterate_cases hrun
    · cases heq
    have hstep := (bind_ok (a := false) rfl).symm.trans hstep
    obtain ⟨vs, u', hvs, hfirst⟩ := exists_of_bind hstep
    cases hfirst
    have hprefix : vs <+: [tree] := by
      refine Gives.iterate (P := fun done => vs <+: done) (fun done hdone => ?_) m
        List.prefix_rfl hrest
      refine .after fun b => ?_
      cases b with
      | true => exact .none
      | false => exact .after fun more => .some (hdone.trans (List.prefix_append done more))
    have hne : vs ≠ [] :=
      Statement.ne_nil_of_simpleLine ((Statement.statement_of_simpleLine ht hmatch).symm.trans hvs)
    obtain ⟨more, hmore⟩ := hprefix
    obtain ⟨rfl, -⟩ | ⟨rfl, -⟩ := List.append_eq_singleton_iff.mp hmore
    · exact absurd rfl hne
    · exact ⟨_, _, _, hvs⟩

/-! ### Code and its value -/

/-- The tokens of code between the brackets that are put around it. -/
def inner (e : Text) : List Token := ((programTokens (enclosed 0 e)).1.drop 1).dropLast.dropLast

/-- Code of one line that is an expression in brackets of its own, and the value it has there. -/
structure HasValue (e : Text) (w : Tree) : Prop where
  line : ∀ c ∈ e, isInLine c = true ∧ c ≠ '#'
  parsed : Alike (Program.parse (enclosed 0 e)) (.ok (.node .module 1 [.node .expression 1 [w]]))

namespace HasValue

variable {ps : List Token} (h : HasValue e w)
include h

theorem exists_parse : ∃ l l' w', Alike w w' ∧
    Program.parse (enclosed 0 e) = .ok (.node .module l [.node .expression l' [w']]) := by
  obtain ⟨x, -, herror⟩ | ⟨tree, tree', hparse, heq, halike⟩ := h.parsed.except_cases
  · cases herror
  cases heq
  obtain ⟨shape, l, parts⟩ := tree
  obtain ⟨rfl, hparts⟩ := alike_node_iff.mp halike
  obtain ⟨⟨shape, l', parts'⟩, rest, rfl, hstatement, hnone⟩ := hparts.symm.exists_cons
  obtain rfl := hnone.nil_iff.mp rfl
  obtain ⟨rfl, hvalue⟩ := alike_node_iff.mp hstatement
  obtain ⟨w', rest, rfl, hw, hnone⟩ := hvalue.exists_cons
  obtain rfl := hnone.nil_iff.mp rfl
  exact ⟨l, l', w', hw, hparse⟩

theorem fault_eq_none : (programTokens (enclosed 0 e)).2 = none := by
  obtain ⟨l, l', w', -, hparse⟩ := h.exists_parse
  rw [Program.parse] at hparse
  split at hparse
  · cases hparse
  cases hfault : (programTokens (enclosed 0 e)).2 with
  | none => rfl
  | some f =>
    simp only [hfault] at hparse
    split at hparse <;> cases hparse

theorem exists_runs : ∃ ps, Runs e ps :=
  exists_runs_of_enclosed h.line (by decide) h.fault_eq_none

private theorem nested_eq (hr : Runs e ps) : nested ['('] ps = .ok ['('] :=
  nested_of_enclosed h.line (by decide) h.fault_eq_none hr

/-- The tokens of the code are those that stand between the brackets. -/
theorem exists_programTokens (hr : Runs e ps) : ∃ o c u,
    kept (programTokens (enclosed 0 e)) = (o :: (inner e ++ [c, u]), none) ∧ Alike ps (inner e) ∧
      o.isOperator "(" = true ∧ c.isOperator ")" = true ∧ u.kind = .newline := by
  have halike := alike_programTokens_enclosed h.line (k := 0) (by decide) hr (h.nested_eq hr)
  obtain ⟨opening, us, htokens, hopening, hus⟩ := halike.fst.symm.exists_append
  obtain ⟨ps', closing, rfl, hps, hclosing⟩ := hus.exists_append
  obtain ⟨p₁, _, rfl, hnil⟩ := exists_tokenAt hopening
  obtain rfl := hnil.nil_iff.mp rfl
  obtain ⟨p₂, _, rfl, hend⟩ := exists_tokenAt hclosing
  obtain ⟨p₃, _, rfl, hnil⟩ := exists_tokenAt hend
  obtain rfl := hnil.nil_iff.mp rfl
  have hinner : inner e = ps' := by
    rw [inner, htokens]
    simp
  refine ⟨tokenAt .operator ['('] p₁, tokenAt .operator [')'] p₂, tokenAt .newline ['\n'] p₃,
    Prod.ext ?_ h.fault_eq_none, hinner ▸ hps, rfl, rfl, rfl⟩
  rw [hinner]
  refine (congrArg _ htokens).trans (List.filter_eq_self.mpr fun t ht => decide_eq_true ?_)
  have hkept := isKept_of_alike hps hr.isKept
  simp only [List.mem_append, List.mem_cons, List.not_mem_nil, or_false] at ht
  obtain rfl | ht | rfl | rfl := ht
  · exact ⟨nofun, nofun⟩
  · exact hkept t ht
  · exact ⟨nofun, nofun⟩
  · exact ⟨nofun, nofun⟩

/-- The line that holds the code in brackets is its value, up to the end of the line. -/
theorem exists_expressions (hr : Runs e ps) : ∃ o c u w',
    o.isOperator "(" = true ∧ c.isOperator ")" = true ∧ u.kind = .newline ∧ Alike w w' ∧
      parse (Program.bound (enclosed 0 e)) .expressions (o :: (inner e ++ [c, u])) =
        .ok (w', [u]) := by
  obtain ⟨l, l', w', hww', hparse⟩ := h.exists_parse
  obtain ⟨o, c, u, hread, hinner, ho, hc, hu⟩ := h.exists_programTokens hr
  obtain ⟨hkind, htext⟩ := Token.eq_of_isOperator ho
  have hmatch : o.text ≠ "match".toList := by
    rw [htext]
    decide
  have hbegins := beginsOperand_of_bracket ho
  obtain ⟨pattern, n, rest, hstatement⟩ := statement_of_parse hbegins hmatch hread hparse
  have hline : ∀ y ∈ o :: inner e ++ [c], y.kind ≠ .newline := by
    have hinside := kind_ne_newline_of_alike hinner (kind_ne_newline hr)
    have hopening : o.kind ≠ .newline := by simp [hkind]
    have hclosing : c.kind ≠ .newline := by simp [(Token.eq_of_isOperator hc).1]
    simpa [or_imp, forall_and, hopening, hclosing] using hinside
  have hsemicolon : c.isOperator ";" = false := by
    obtain ⟨kind, text, line, column⟩ := c
    obtain ⟨rfl, rfl⟩ := Token.eq_of_isOperator hc
    rfl
  obtain ⟨-, hexpressions⟩ := Statement.expressions_of_line hbegins hmatch hline hsemicolon
    (by simpa using hstatement)
  exact ⟨o, c, u, w', ho, hc, hu, hww', by simpa using hexpressions⟩

/-- What the brackets around the code begin is one expression, the value if it ends the line. -/
theorem exists_expression (hr : Runs e ps) : ∃ o c u k x t,
    Program.bound (enclosed 0 e) = k + 16 ∧ o.isOperator "(" = true ∧ c.isOperator ")" = true ∧
      u.kind = .newline ∧ w.IsPacked ∧
      parse (k + 15) .expression (o :: (inner e ++ [c, u])) = .ok (x, t) ∧
      (t = [u] → Alike w x) := by
  obtain ⟨o, c, u, w', ho, hc, hu, hww', hexpressions⟩ := h.exists_expressions hr
  obtain ⟨k, hk⟩ : ∃ k, Program.bound (enclosed 0 e) = k + 16 :=
    ⟨20 * (enclosed 0 e).length + 84, by rw [Program.bound]⟩
  rw [hk] at hexpressions
  have hpacked : w.IsPacked := by
    rw [Tree.IsPacked, shape_of_alike hww']
    exact isPacked_of_expressions ho hexpressions
  obtain ⟨x, t, hx, -⟩ := expressions_cases ho hexpressions
  refine ⟨o, c, u, k, x, t, hk, ho, hc, hu, hpacked, hx, ?_⟩
  rintro rfl
  have hprovided : parse (k + 15) .expression (o :: (inner e ++ [c, u])) = provided true x [u] := hx
  have hwhole : parse (k + 16) .expressions (o :: (inner e ++ [c, u])) = .ok (x, [u]) :=
    expressions_of_expression (beginsOperand_of_bracket ho) hu hprovided
  obtain ⟨rfl, -⟩ := Prod.mk.inj (Except.ok.inj (hexpressions.symm.trans hwhole))
  exact hww'

/-- Code that is one expression has its value. -/
theorem exists_named (hone : IsOne (inner e)) :
    ∃ v, parse (Program.bound (enclosed 0 e)) .named (inner e) = .ok (v, []) ∧ Alike w v := by
  obtain ⟨ps, hr⟩ := h.exists_runs
  obtain ⟨o, c, u, k, x, t, hk, ho, hc, hu, -, hx, hvalue⟩ := h.exists_expression hr
  obtain ⟨b, v, hv⟩ := hone
  obtain ⟨y, z, hopened⟩ := exists_parenthesised ho hx
  obtain ⟨v', hv'⟩ := named_of_parenthesised hv hc hopened
  obtain ⟨g, hg, hgroup⟩ := expression_group hv' (Nat.le_refl k) (.refl _) ho hc (.inl hu) []
  obtain ⟨rfl, rfl⟩ := Prod.mk.inj (Except.ok.inj (hx.symm.trans hgroup))
  obtain ⟨v'', hvv'', hv''⟩ := named_alone hv' (Nat.le_add_right k 16) (.refl _)
  exact ⟨v'', hk ▸ hv'', (hvalue rfl).trans (hg.symm.trans hvv'')⟩

/-- Code whose brackets belong together has its value in them. -/
theorem exists_group
    (hone : IsOne (bracketToken '(' :: (inner e ++ [bracketToken ')']))) : ∃ v,
      parse (Program.bound (enclosed 0 e)) .named
          (bracketToken '(' :: (inner e ++ [bracketToken ')'])) = .ok (v, []) ∧ Alike w v := by
  obtain ⟨ps, hr⟩ := h.exists_runs
  obtain ⟨o, c, u, k, x, t, hk, ho, hc, hu, -, hx, hvalue⟩ := h.exists_expression hr
  have halike : Alike (o :: (inner e ++ [c]))
      (bracketToken '(' :: (inner e ++ [bracketToken ')'])) := by
    refine alike_cons_iff.mpr ⟨alike_token_iff.mpr (Token.eq_of_isOperator ho),
      (Alike.refl _).append (alike_cons_iff.mpr ⟨alike_token_iff.mpr (Token.eq_of_isOperator hc),
        .refl _⟩)⟩
  obtain ⟨b, v, hv⟩ := hone.of_alike halike.symm
  have hends : u.EndsOperand := .inl hu
  have hedge := atEdge_cons hends.isEdge []
  obtain ⟨v', -, hv'⟩ := named_append hv (Nat.le_refl b) (.refl _) hedge
  -- the rules of the program read the group up to the end of the line, too
  have hsplit : o :: (inner e ++ [c, u]) = o :: ((inner e ++ [c]) ++ u :: []) := by simp
  have hname : isName o = true → inner e ++ [c] = [] := by
    intro hname
    cases (kind_of_isName hname).symm.trans (Token.eq_of_isOperator ho).1
  rw [hsplit] at hx
  have hnamed : parse (k + 16) .named (o :: (inner e ++ [c]) ++ [u]) = .ok (x, t) :=
    named_of_expression hends hname hx
  obtain ⟨-, rfl⟩ := parse_unique rfl hnamed hv'
  obtain ⟨y, hxy, hy⟩ := named_before hedge hnamed
  obtain ⟨z, hyz, hz⟩ := named_alone hy (Nat.le_refl _) halike
  exact ⟨z, hk ▸ hz, (hvalue rfl).trans (hxy.trans hyz)⟩

end HasValue

/-! ### Calls for code -/

private theorem alike_writing (h : Alike v w) (s : Text) : Alike (writing v s) (writing w s) := by
  simpa [writing, memberCall] using h

/-- The rules that a program with a call may nest are enough for the code in it. -/
theorem exists_bound {lines : Text} (hlength : e.length + 22 ≤ lines.length)
    (hb : Program.bound lines ≤ b) : ∃ k, b = k + 32 ∧ Program.bound (enclosed 0 e) ≤ k + 17 := by
  have henclosed : (enclosed 0 e).length = e.length + 2 := by
    simp [enclosed]
  rw [Program.bound] at hb ⊢
  exact ⟨b - 32, by omega, by omega⟩

private theorem length_writeCall : Layout.writeCall.length = 22 := rfl

/-- **A call with the code on its line** is a statement that hands on its value if and only if the
code is one expression without brackets around it. -/
theorem HasValue.isStatement_spliced_iff (h : HasValue e w) (m : Nat) (s : Text) :
    IsStatement m (List.replicate m ' ' ++ (Layout.writeCall ++ (e ++ (callEnd s ++ ['\n']))))
      (writing w s) ↔ IsOne (inner e) := by
  obtain ⟨ps, hr⟩ := h.exists_runs
  obtain ⟨-, -, -, -, hinner, -⟩ := h.exists_programTokens hr
  obtain ⟨-, -, -, -, -, -, -, -, -, -, hpacked, -⟩ := h.exists_expression hr
  constructor
  · intro hstatement
    obtain ⟨st, hst⟩ := exists_isOpen m
    obtain ⟨tree, htree, hparse⟩ := hstatement.exists_parse hst
      (alike_scan_spliced hr (h.nested_eq hr) hst s []) (fun _ => refuse) 0
    have hline := kind_ne_newline hr
    exact (isOne_of_parse_writing hpacked hline (.refl _) htree hparse).of_alike hinner
  · intro hone
    obtain ⟨v, hv, hwv⟩ := h.exists_named hone
    refine ⟨openingTokens ++ (ps ++ closingTokens s), fun st hst z => ?_,
      fun pattern b n us rest hb hus => ?_⟩
    · have hscan := alike_scan_spliced hr (h.nested_eq hr) hst s z
      simpa using hscan
    · obtain ⟨k, rfl, hk⟩ := exists_bound (e := e)
        (by simp only [List.length_append, length_writeCall]; omega) hb
      obtain ⟨tree, htree, hparse⟩ := parse_writing hv hk hinner.symm s hus rest
      exact ⟨tree, (alike_writing hwv s).trans htree, hparse⟩

/-- **A call with the code in brackets of its own**, on a line with a comment, is a statement that
hands on its value if and only if these brackets belong together and one more may be open around
the code. -/
theorem HasValue.isStatement_bracketed_iff (h : HasValue e w) {x y z t : Text}
    (hx : ∀ c ∈ x, isPad c = true) (hy : ∀ c ∈ y, isPad c = true) (hz : ∀ c ∈ z, isPad c = true)
    (ht : ∀ c ∈ t, isInLine c = true) (m : Nat) (s : Text) :
    IsStatement m (List.replicate m ' ' ++ (Layout.writeCall ++ '(' :: '\n' ::
        (x ++ (e ++ (y ++ '#' :: (t ++ '\n' :: (z ++ ')' :: (callEnd s ++ ['\n'])))))))) 
      (writing w s) ↔
      IsOne (bracketToken '(' :: (inner e ++ [bracketToken ')'])) ∧
        (programTokens (enclosed 1 e)).2 = none := by
  obtain ⟨ps, hr⟩ := h.exists_runs
  obtain ⟨-, -, -, -, hinner, -⟩ := h.exists_programTokens hr
  obtain ⟨-, -, -, -, -, -, -, -, -, -, hpacked, -⟩ := h.exists_expression hr
  have hgroup : Alike (bracketToken '(' :: (ps ++ [bracketToken ')']))
      (bracketToken '(' :: (inner e ++ [bracketToken ')'])) :=
    alike_cons_iff.mpr ⟨.refl _, hinner.append (.refl _)⟩
  constructor
  · intro hstatement
    obtain ⟨st, hst⟩ := exists_isOpen m
    have hdelimited : IsDelimited
        (y ++ '#' :: (t ++ '\n' :: (z ++ ')' :: (callEnd s ++ ['\n'])))) :=
      isDelimited_append hy (isDelimited_cons (by decide) _)
    -- the brackets in the code may stand inside two others, and are balanced there
    have hopened := snd_eq_of_alike (alike_scan_opened hst hx
      (s := e ++ (y ++ '#' :: (t ++ '\n' :: (z ++ ')' :: (callEnd s ++ ['\n']))))) (by simp))
    obtain ⟨bs, hbs⟩ := hr.exists_nested hdelimited
      (hopened.symm.trans (hstatement.fault_eq_none hst))
    obtain rfl := nested_append (h.nested_eq hr) hbs
    have hread := alike_programTokens_enclosed h.line (k := 1) (by decide) hr hbs
    refine ⟨?_, snd_eq_of_alike hread⟩
    have hscan := alike_scan_bracketed hr hbs hst hx hy hz ht s []
    have hassoc : openingTokens ++ [bracketToken '('] ++ (ps ++ (bracketToken ')' ::
        closingTokens s)) =
      openingTokens ++ ((bracketToken '(' :: (ps ++ [bracketToken ')'])) ++ closingTokens s) := by
      simp
    rw [hassoc] at hscan
    obtain ⟨tree, htree, hparse⟩ := hstatement.exists_parse hst hscan (fun _ => refuse) 0
    refine (isOne_of_parse_writing hpacked ?_ (.refl _) htree hparse).of_alike hgroup
    have hkinds := kind_ne_newline hr
    simpa [or_imp, forall_and, bracketToken] using hkinds
  · rintro ⟨hone, hread⟩
    obtain ⟨v, hv, hwv⟩ := h.exists_group hone
    have hnested : nested ['(', '('] ps = .ok ['(', '('] :=
      nested_of_enclosed h.line (by decide) hread hr
    refine ⟨openingTokens ++ ((bracketToken '(' :: (ps ++ [bracketToken ')'])) ++ closingTokens s),
      fun st hst z' => ?_, fun pattern b n us rest hb hus => ?_⟩
    · have hscan := alike_scan_bracketed hr hnested hst hx hy hz ht s z'
      simpa using hscan
    · obtain ⟨k, rfl, hk⟩ := exists_bound (e := e)
        (by simp only [List.length_append, List.length_cons, length_writeCall]; omega) hb
      obtain ⟨tree, htree, hparse⟩ := parse_writing hv hk hgroup.symm s hus rest
      exact ⟨tree, (alike_writing hwv s).trans htree, hparse⟩

end Code

end ServerPages
