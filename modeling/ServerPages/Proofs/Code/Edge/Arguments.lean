import ServerPages.Proofs.Code.Edge.Forms

/-!
# Expressions as arguments

Tokens that are an expression are an argument of a call (`argument_append`), whatever stands
behind them, and they are the same argument in brackets of their own (`named_group`).
-/

namespace ServerPages

namespace Code

namespace Expression

open Code.Parser

variable {b b' : Nat} {ts ts' rest us : List Token} {t u o c : Token} {v : Tree}

theorem ne_nil_of_named (h : parse b .named ts = .ok (v, [])) : ts ≠ [] := fun hnil =>
  (keepAll_parse (Nat.le_refl b) .named).moves h trivial hnil.symm

/-- What an expression is made of makes it up wherever it stands. -/
theorem named_append (h : parse b .named ts = .ok (v, [])) (hb : b ≤ b') (hts : Alike ts ts')
    (hus : AtEdge us) : ∃ v', Alike v v' ∧ parse b' .named (ts' ++ us) = .ok (v', us) := by
  have hsame := (keepAll_parse hb .named).same (b := []) (r := []) hts atEdge_nil hus (.inl rfl)
    (by rw [List.append_nil]; exact h)
  obtain ⟨v', r', hv', hvv', hr'⟩ := hsame
  obtain rfl : r' = [] := hr'.nil_iff.mp rfl
  exact ⟨v', hvv', hv'⟩

/-- An expression that is all of the tokens is one by more rules too. -/
theorem named_alone (h : parse b .named ts = .ok (v, [])) (hb : b ≤ b') (hts : Alike ts ts') :
    ∃ w, Alike v w ∧ parse b' .named ts' = .ok (w, []) := by
  obtain ⟨w, hvw, hw⟩ := named_append h hb hts atEdge_nil
  rw [List.append_nil] at hw
  exact ⟨w, hvw, hw⟩

/-- An expression that is read up to what stands at an edge is one before it. -/
theorem named_before {r : List Token} (hr : AtEdge r) (h : parse b .named (ts ++ r) = .ok (v, r)) :
    ∃ v', Alike v v' ∧ parse b .named ts = .ok (v', []) := by
  obtain ⟨v', r', hv', hvv', hr'⟩ := (keepAll_parse (Nat.le_refl b) .named).same (r := [])
    (.refl ts) hr atEdge_nil (.inl rfl) h
  obtain rfl := hr'.nil_iff.mp rfl
  exact ⟨v', hvv', by simpa using hv'⟩

theorem named_of_isName (ht : isName t = true) (hu : u.EndsOperand) :
    parse 16 .named (t :: u :: rest) = .ok (nameTree t.line t.identifier, u :: rest) := by
  have hbegins := beginsOperand_of_isName ht
  have hatom : parse 1 .atom (t :: u :: rest) = provided true _ (u :: rest) := atom_of_isName ht
  have hsettled := settled_provided true (nameTree t.line t.identifier) hu rest
  have hkind : t.kind ≠ .operator := by
    rw [kind_of_isName ht]
    exact nofun
  have hfactor := factor_of_atom hsettled hbegins.isPlain hkind hatom
  have hexpression := parse_expression_of_factor hsettled hbegins.isPlain hfactor
  exact named_of_expression hu (fun _ => rfl) hexpression

/-- An expression is no name with an equals sign behind it. -/
theorem namesArgument_of_named (h : parse b .named (t :: ts) = .ok (v, [])) (hu : u.EndsOperand)
    (x : Token) (xs : List Token) (hx : ts ++ u :: rest = x :: xs) :
    namesArgument t x = false := by
  rw [Bool.eq_false_iff]
  intro hnames
  obtain ⟨hname, hequals⟩ : isName t = true ∧ x.isOperator "=" = true := by
    simpa only [namesArgument, Bool.and_eq_true] using hnames
  obtain ⟨hkind, htext⟩ := Token.eq_of_isOperator hequals
  obtain _ | ⟨y, ts⟩ := ts
  · obtain ⟨rfl, -⟩ := List.cons.inj hx
    obtain hnewline | ⟨-, hcomma | hclosing⟩ := hu
    · cases hkind.symm.trans hnewline
    · cases htext.symm.trans hcomma
    · cases htext.symm.trans hclosing
  obtain ⟨rfl, -⟩ := List.cons.inj hx
  -- the name alone is an expression before the equals sign, and all of the tokens would be one
  have hedge : AtEdge (y :: ts) := atEdge_cons (.inr ⟨hkind, .inr (.inl htext)⟩) ts
  obtain ⟨w, -, hwhole⟩ := named_alone h (Nat.le_max_left b 16) (.refl _)
  have hnewline : Token.EndsOperand ⟨.newline, [], 0, 0⟩ := .inl rfl
  have halone : parse 16 .named ([t] ++ [⟨.newline, [], 0, 0⟩]) =
      .ok (nameTree t.line t.identifier, [] ++ [⟨.newline, [], 0, 0⟩]) :=
    named_of_isName hname hnewline
  have hatEdge : AtEdge [⟨.newline, [], 0, 0⟩] := atEdge_cons hnewline.isEdge []
  obtain ⟨w', r', hpart, -, hr'⟩ := (keepAll_parse (Nat.le_max_right b 16) .named).same
    (.refl [t]) hatEdge hedge (.inl rfl) halone
  obtain rfl : r' = [] := hr'.nil_iff.mp rfl
  cases hwhole.symm.trans hpart

private theorem isOperator_of_named (h : parse b .named (t :: ts) = .ok (v, us)) {op : String}
    (hop : op ∈ ["*", "**", ")"]) : t.isOperator op = false := by
  have hnone : ∀ op ∈ ["*", "**", ")"],
      op.toList ∉ ["(", "[", "\x7b", "...", "+", "-", "~"].map String.toList := by decide
  rw [Bool.eq_false_iff]
  intro hop'
  obtain ⟨hkind, htext⟩ := Token.eq_of_isOperator hop'
  exact hnone op hop (htext ▸ ((forms_parse b).begins rfl h).operator hkind)

theorem atOperator_of_named (h : parse b .named (t :: ts) = .ok (v, us)) (op : String)
    (hop : op ∈ ["*", "**", ")"]) (rest : List Token) :
    atOperator op (t :: rest) = .ok (false, t :: rest) :=
  congrArg (fun b => Except.ok (b, t :: rest)) (isOperator_of_named h hop)

theorem atWord_of_named (h : parse b .named (t :: ts) = .ok (v, us)) (rest : List Token) :
    atWord "yield" (t :: rest) = .ok (false, t :: rest) := by
  have hbegins := (forms_parse b).begins rfl h
  have hfalse : (decide (t.kind = .name) && decide (t.text = "yield".toList)) = false := by
    rw [Bool.eq_false_iff, ne_eq, Bool.and_eq_true, decide_eq_true_eq, decide_eq_true_eq]
    exact fun hboth => hbegins.word hboth.1 hboth.2
  exact congrArg (fun b => Except.ok (b, t :: rest)) hfalse

/-- Tokens that are an expression are read as an argument of a call. -/
theorem argument_append (h : parse b .named ts = .ok (v, [])) (hb : b ≤ b') (hts : Alike ts ts')
    (hu : u.EndsOperand) (vs : List Tree) (rest : List Token) :
    ∃ v', Alike v v' ∧ argument (parse b') { positional := vs } (ts' ++ u :: rest) =
      .ok ({ positional := vs ++ [v'] }, u :: rest) := by
  obtain ⟨v', hvv', hv'⟩ := named_append h hb hts (atEdge_cons hu.isEdge rest)
  obtain ⟨w, -, hw⟩ := named_alone h hb hts
  obtain ⟨t, ts', rfl⟩ := List.exists_cons_of_ne_nil (ne_nil_of_named hw)
  have hpairs : Pairs namesArgument (oneArgument (parse b') t.line { positional := vs }) _ _ :=
    pairs_oneArgument t.line { positional := vs }
  have hleft := hpairs.left (t :: (ts' ++ u :: rest)) fun t' x xs heq => by
    obtain ⟨rfl, hxs⟩ := List.cons.inj heq
    exact namesArgument_of_named hw hu x xs hxs
  have hlong : ¬(t :: (ts' ++ u :: rest)).length < 2 := by
    rw [List.length_cons, List.length_append, List.length_cons]
    omega
  have htable := atOperator_of_named hw "**" (by decide) (ts' ++ u :: rest)
  have hstar := atOperator_of_named hw "*" (by decide) (ts' ++ u :: rest)
  refine ⟨v', hvv', (bind_ok rfl).trans ((bind_ok (takeIf_of_false htable)).trans
    ((bind_ok hstar).trans (hleft.trans ((if_neg hlong).trans ?_))))⟩
  exact (bind_ok hv').trans rfl

/-- An expression between two other arguments of a call. -/
theorem arguments_between {fs ls : List Token} {d p : Token} {first last : Tree}
    (h : parse b .named ts = .ok (v, [])) (hb : b ≤ b') (hts : Alike ts ts')
    (hfirst : IsArgument (parse b') fs true first) (hd : d.isOperator "," = true)
    (hc : c.isOperator "," = true) (hlast : IsArgument (parse b') ls true last)
    (hp : p.isOperator ")" = true) (rest : List Token) :
    ∃ v', Alike v v' ∧ arguments (parse b') true (fs ++ d :: (ts' ++ c :: (ls ++ p :: rest))) =
      .ok ([first, v', last], rest) := by
  have hends := Token.endsOperand_of_comma hc
  obtain ⟨v', hvv', hargument⟩ := argument_append h hb hts hends [first] (ls ++ p :: rest)
  refine ⟨v', hvv', ?_⟩
  obtain ⟨w, -, hw⟩ := named_alone h hb hts
  obtain ⟨t, ts', rfl⟩ := List.exists_cons_of_ne_nil (ne_nil_of_named hw)
  have hbegins : atOperator ")" (t :: (ts' ++ c :: (ls ++ p :: rest))) =
      .ok (false, t :: (ts' ++ c :: (ls ++ p :: rest))) :=
    congrArg (fun b => Except.ok (b, t :: (ts' ++ c :: (ls ++ p :: rest))))
      (isOperator_of_named hw (by decide))
  have hloop : Loops (argumentStep (parse b')) ({}, true)
      (fs ++ d :: (t :: ts' ++ c :: (ls ++ p :: rest)))
      (provided true ({ positional := [first, v', last] }, false) (p :: rest)) := by
    refine .more (argumentStep_more hfirst hd []) ?_
      (.more (argumentStep_comma hbegins hargument hc) ?_
        (.more (argumentStep_last hlast hp [first, v']) ?_ (.stop (argumentStep_done _))))
    · simp only [List.length_append, List.length_cons]
      omega
    · simp only [List.length_append, List.length_cons]
      omega
    · have hpos := hlast.length_pos
      rw [List.length_append, List.length_cons]
      omega
  have hclosing := Token.endsOperand_of_closing hp
  refine bind_provided hloop.loop ((bind_ok (atClause_of_endsOperand hclosing)).trans ?_)
  obtain ⟨kind, text, line, column⟩ := p
  obtain ⟨rfl, rfl⟩ := Token.eq_of_isOperator hp
  simp
  rfl

/-! ### Brackets of their own -/

private theorem parenthesised_of_named (h : parse b .named (t :: ts) = .ok (v, []))
    (hc : c.isOperator ")" = true) (line : Nat) (rest : List Token) : ∃ v', Alike v v' ∧
      parenthesised (parse b) line (t :: (ts ++ c :: rest)) = .ok (v', rest) := by
  have hends := Token.endsOperand_of_closing hc
  obtain ⟨v', hvv', hv'⟩ := named_append h (Nat.le_refl b) (.refl _) (atEdge_cons hends.isEdge rest)
  have hstar := takeIf_of_false (atOperator_of_named h "*" (by decide) (ts ++ c :: rest))
  have hclosing := takeIf_of_false (atOperator_of_named h ")" (by decide) (ts ++ c :: rest))
  have hitem : starredOr (parse b) .named (t :: (ts ++ c :: rest)) = .ok (v', c :: rest) :=
    (bind_ok rfl).trans ((bind_ok hstar).trans hv')
  have hcomma : atOperator "," (c :: rest) = .ok (false, c :: rest) := by
    obtain ⟨kind, text, line, column⟩ := c
    obtain ⟨rfl, rfl⟩ := Token.eq_of_isOperator hc
    rfl
  have hclosed : operator ")" (c :: rest) = .ok ((), rest) := by
    obtain ⟨kind, text, line, column⟩ := c
    obtain ⟨rfl, rfl⟩ := Token.eq_of_isOperator hc
    rfl
  have hpacked : v'.IsPacked := (forms_parse b).gives rfl hv'
  refine ⟨v', hvv', (bind_ok hclosing).trans
    ((bind_ok (atWord_of_named h _)).trans ((bind_ok hitem).trans ((bind_ok hcomma).trans ?_)))⟩
  simp only [Bool.false_eq_true, if_false]
  rw [if_neg]
  · exact (bind_ok (atClause_of_endsOperand hends)).trans ((bind_ok hclosed).trans rfl)
  · obtain ⟨s, l, ps⟩ := v'
    intro hstarred
    cases s <;> first | exact absurd rfl hpacked | cases hstarred

/-- An expression in brackets is one before a token that ends it. -/
theorem expression_group (h : parse b .named ts = .ok (v, [])) (hb : b ≤ b') (hts : Alike ts ts')
    (ho : o.isOperator "(" = true) (hc : c.isOperator ")" = true) (hu : u.EndsOperand)
    (rest : List Token) : ∃ v', Alike v v' ∧
      parse (b' + 15) .expression (o :: (ts' ++ c :: u :: rest)) = .ok (v', u :: rest) := by
  obtain ⟨w, hvw, hw⟩ := named_alone h hb hts
  obtain ⟨t, ts', rfl⟩ := List.exists_cons_of_ne_nil (ne_nil_of_named hw)
  obtain ⟨v', hwv', hv'⟩ := parenthesised_of_named hw hc o.line (u :: rest)
  have hsplit : t :: (ts' ++ c :: u :: rest) = (t :: ts' ++ [c]) ++ u :: rest := by simp
  rw [hsplit] at hv'
  have hsettled := settled_provided true v' hu rest
  obtain ⟨kind, text, line, column⟩ := o
  obtain ⟨rfl, rfl⟩ := Token.eq_of_isOperator ho
  have hplain : Token.IsPlain ⟨.operator, "(".toList, line, column⟩ := Token.isPlain_of_kind nofun
  have hatom : parse (b' + 1) .atom (⟨.operator, "(".toList, line, column⟩ ::
      ((t :: ts' ++ [c]) ++ u :: rest)) = provided true v' _ := atom_cons_iff.mpr hv'
  have hprimary : parse (b' + 2) .primary _ = _ :=
    primary_of_operand hplain (operand_of_atom hsettled hatom)
  have hfactor : parse (b' + 3) .factor _ = _ :=
    factor_of_primary hsettled (fun h => absurd h.2 (by simp)) hprimary
  have hexpression := parse_expression_of_factor hsettled hplain hfactor
  rw [← hsplit] at hexpression
  exact ⟨v', hvw.trans hwv', hexpression⟩

/-- An expression in brackets is an expression, the same but for its place. -/
theorem named_group (h : parse b .named ts = .ok (v, [])) (hb : b + 16 ≤ b') (hts : Alike ts ts')
    (ho : o.isOperator "(" = true) (hc : c.isOperator ")" = true) :
    ∃ v', Alike v v' ∧ parse b' .named (o :: (ts' ++ [c])) = .ok (v', []) := by
  have hnewline : Token.EndsOperand ⟨.newline, [], 0, 0⟩ := .inl rfl
  have hatEdge : AtEdge [⟨.newline, [], 0, 0⟩] := atEdge_cons hnewline.isEdge []
  obtain ⟨v', hvv', hv'⟩ := expression_group h (Nat.le_refl b) hts ho hc hnewline []
  have hsplit : ts' ++ c :: [⟨.newline, [], 0, 0⟩] =
      (ts' ++ [c]) ++ (⟨.newline, [], 0, 0⟩ : Token) :: [] := by simp
  have hname : isName o = true → ts' ++ [c] = [] := by
    intro hname
    have hkind := kind_of_isName hname
    cases hkind.symm.trans (Token.eq_of_isOperator ho).1
  rw [hsplit] at hv'
  have hnamed : parse (b + 16) .named (o :: (ts' ++ [c]) ++ [⟨.newline, [], 0, 0⟩]) =
      .ok (v', [⟨.newline, [], 0, 0⟩]) := named_of_expression hnewline hname hv'
  obtain ⟨w, hvw, hw⟩ := named_before hatEdge hnamed
  obtain ⟨w', hww', hw'⟩ := named_alone hw hb (.refl _)
  exact ⟨w', hvv'.trans (hvw.trans hww'), hw'⟩

end Expression

end Code

end ServerPages
