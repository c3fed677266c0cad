import ServerPages.Proofs.Code.Edge.Basic

/-!
# Operations up to an edge
-/

namespace ServerPages

namespace Code

/-- Whether what is asked for may end at an edge. -/
def Goal.isTight : Goal → Bool
  | .expressions | .targets | .yielding => false
  | _ => true

namespace Expression

open Code.Parser

/-- The parsers of all rules keep to their tokens. -/
def KeepAll (rules rules' : Rules) : Prop :=
  ∀ g, Keeps (fun _ => True) g.isTight (rules g) (rules' g)

theorem takes_takeOperator (ops : List String) :
    Takes (fun t => t.kind = .operator ∧ ops.any (t.text = ·.toList)) Token.text
      (takeOperator ops) where
  nil := rfl
  cons t ts := by
    refine (bind_ok rfl).trans ?_
    by_cases ht : t.kind = .operator ∧ ops.any (t.text = ·.toList)
    · simp only [List.head?_cons, ht, decide_true, and_self, if_true]
      rfl
    · simp only [List.head?_cons, if_neg ht, decide_eq_true_eq]
      rfl

private theorem keeps_takeOperator {ops : List String} (h : ∀ op ∈ ops, op ∉ [",", "=", ")"]) :
    Keeps (fun o => o.isSome = true) true (takeOperator ops) (takeOperator ops) := by
  refine (takes_takeOperator ops).keeps (takes_takeOperator ops) (fun t u ht => ?_)
    (fun t u ht => (alike_token_iff.mp ht).2) fun t ht => ?_
  · obtain ⟨hkind, htext⟩ := alike_token_iff.mp ht
    simp only [hkind, htext]
  · rw [decide_eq_false_iff_not]
    rintro ⟨hkind, hany⟩
    obtain ⟨op, hop, htext⟩ := List.any_eq_true.mp hany
    have hsees := (sees_operator (e := true) fun _ => h op hop).edge rfl ht
    rw [Token.isOperator, hkind, htext] at hsees
    cases hsees

/-- Takes the operator of two words, if it comes next. -/
def takeNotIn : Parser (Option Text) := do
  match ← get with
  | t :: u :: rest =>
    if t.kind = .name ∧ t.text = "not".toList ∧ u.kind = .name ∧ u.text = "in".toList then
      set rest
      return some "not in".toList
    else return none
  | _ => return none

/-- No edge is a name. -/
theorem not_isEdge_of_name {t : Token} (h : t.kind = .name) : ¬ t.IsEdge := by
  rintro (hkind | ⟨hkind, -⟩) <;> cases h.symm.trans hkind

/-- Whether two tokens are the operator of two words. -/
def isNotIn (t u : Token) : Bool :=
  t.kind = .name ∧ t.text = "not".toList ∧ u.kind = .name ∧ u.text = "in".toList

theorem pairs_notIn :
    Pairs isNotIn takeNotIn (fun _ => pure (some "not in".toList)) (pure none) where
  taken t u ts h := by
    have hpair : t.kind = .name ∧ t.text = "not".toList ∧ u.kind = .name ∧ u.text = "in".toList :=
      of_decide_eq_true h
    refine (bind_ok rfl).trans ?_
    simp only [if_pos hpair]
    rfl
  left s h := by
    obtain _ | ⟨t, _ | ⟨u, s⟩⟩ := s
    · rfl
    · rfl
    · refine (bind_ok rfl).trans ?_
      simp only [if_neg (of_decide_eq_false (h t u s rfl))]

private theorem keeps_notIn : Keeps (fun o => o.isSome = true) true takeNotIn takeNotIn := by
  refine .paired pairs_notIn pairs_notIn (fun t u t' u' ht hu => ?_) (fun _ t u h => ?_) nofun
    (fun t t' _ => .pure rfl id) (.pure rfl nofun)
  · obtain ⟨hkind, htext⟩ := alike_token_iff.mp ht
    obtain ⟨hkind', htext'⟩ := alike_token_iff.mp hu
    rw [isNotIn, isNotIn, hkind, htext, hkind', htext']
  · refine decide_eq_false fun hpair => h.elim ?_ ?_
    · exact not_isEdge_of_name hpair.1
    · exact not_isEdge_of_name hpair.2.2.1

private theorem keeps_takeComparison :
    Keeps (fun o => o.isSome = true) true takeComparison takeComparison := by
  refine .option (keeps_takeOperator (by decide)) ?_ fun op op' hop =>
    .pure (alike_some_iff.mpr hop) id
  refine .choice (sees_word "in") (.pure rfl id) ?_
  exact .choice (sees_word "is") (.choice (sees_word "not") (.pure rfl id) (.pure rfl id))
    keeps_notIn

instance : Unplace Parameters := ⟨fun p =>
  { p with
    positional := unplaced p.positional
    rest := unplaced p.rest
    named := unplaced p.named
    namedDefaults := unplaced p.namedDefaults
    keywords := unplaced p.keywords
    defaults := unplaced p.defaults }⟩

variable {rules rules' : Rules} (hr : KeepAll rules rules') {M : Tree → Prop} {e : Bool}

private theorem KeepAll.tight (hr : KeepAll rules rules') {g : Goal} (hg : g.isTight = true) :
    Keeps (fun _ => True) true (rules g) (rules' g) := hg ▸ hr g

include hr

theorem keeps_operation (level : Nat) :
    Keeps (fun _ => True) true (operation rules level) (operation rules' level) := by
  refine .bind keeps_line fun l l' _ => ?_
  cases hops : levels[level]? with
  | none => exact hr .factor
  | some ops =>
    have hlevels : ∀ ops ∈ levels, ∀ op ∈ ops, op ∉ [",", "=", ")"] := by decide
    refine .moved (hr (.operation (level + 1))) fun left left' hleft => ?_
    refine .loop (fun a a' ha => ?_) hleft
    refine .option (keeps_takeOperator (hlevels ops (List.mem_of_getElem? hops))) (.pure rfl nofun)
      fun op op' hop => ?_
    refine .moved (hr (.operation (level + 1))) fun right right' hright => .pure ?_ id
    simp_all

theorem keeps_comparison : Keeps (fun _ => True) true (comparison rules) (comparison rules') := by
  refine .bind keeps_line fun l l' _ => ?_
  refine .moved (hr (.operation 0)) fun first first' hfirst => ?_
  refine .bind (.loop (fun a a' ha => ?_) (by simpa using hfirst)) fun r r' h => ?_
  · obtain ⟨ops, operands⟩ := a
    obtain ⟨ops', operands'⟩ := a'
    obtain ⟨hops, hoperands⟩ := alike_pair_iff.mp ha
    refine .option keeps_takeComparison (.pure rfl nofun) fun op op' hop => ?_
    refine .moved (hr (.operation 0)) fun operand operand' hoperand => .pure ?_ id
    rw [alike_some_iff, alike_pair_iff]
    exact ⟨hops.append (by simpa using hop), hoperands.append (by simpa using hoperand)⟩
  · obtain ⟨ops, operands⟩ := r
    obtain ⟨ops', operands'⟩ := r'
    obtain ⟨hops, hoperands⟩ := alike_pair_iff.mp h
    obtain rfl := alike_texts_iff.mp hops
    refine .pure ?_ id
    split
    · exact hfirst
    · simpa using hoperands

theorem keeps_connected {g : Goal} (hg : g.isTight = true) (w : String) :
    Keeps (fun _ => True) true (connected w (rules g)) (connected w (rules' g)) := by
  refine .bind keeps_line fun l l' _ => ?_
  refine .moved (hr.tight hg) fun first first' hfirst => ?_
  refine .bind (.loop (fun a a' ha => ?_) (by simpa using hfirst)) fun operands operands' h => ?_
  · refine .choice (sees_word w) ?_ (.pure rfl nofun)
    refine .moved (hr.tight hg) fun operand operand' hoperand => .pure ?_ id
    exact alike_some_iff.mpr (ha.append (by simpa using hoperand))
  · refine .pure ?_ id
    obtain ⟨rfl, rfl⟩ | ⟨a, as, b, bs, rfl, rfl, hab, hrest⟩ := h.list_cases
    · simp
    · obtain ⟨rfl, rfl⟩ | ⟨c, cs, d, ds, rfl, rfl, hcd, hrest⟩ := hrest.list_cases
      · exact hab
      · simp [hab, hcd, hrest]

theorem keeps_inversion : Keeps (fun _ => True) true (inversion rules) (inversion rules') := by
  refine .bind keeps_line fun l l' _ => ?_
  refine .choice (sees_word "not") ?_ (hr .comparison)
  exact .moved (hr .inversion) fun a a' ha => .pure (by simpa using ha) id

theorem keeps_factor : Keeps (fun _ => True) true (factor rules) (factor rules') := by
  refine .bind keeps_line fun l l' _ => ?_
  refine .option (keeps_takeOperator (by decide)) ?_ fun op op' hop => ?_
  · refine .moved (hr .primary) fun base base' hbase => ?_
    refine .choice (sees_operator (by decide)) ?_ (.pure hbase id)
    exact .moved (hr .factor) fun a a' ha => .pure (by simp [hbase, ha]) id
  · exact .moved (hr .factor) fun a a' ha => .pure (by simp_all) id

theorem keeps_starredOr {g : Goal} (hg : g.isTight = true) :
    Keeps (fun _ => True) true (starredOr rules g) (starredOr rules' g) := by
  refine .bind keeps_line fun l l' _ => ?_
  refine .choice (sees_operator (by decide)) ?_ (hr.tight hg)
  exact .moved (hr (.operation 0)) fun a a' ha => .pure (by simp [ha]) id

/-! ### Parameters -/

omit hr in
private theorem alike_parameters_iff {p p' : Parameters} : Alike p p' ↔
    Alike p.positional p'.positional ∧ Alike p.rest p'.rest ∧ Alike p.named p'.named ∧
      Alike p.namedDefaults p'.namedDefaults ∧ Alike p.keywords p'.keywords ∧
      Alike p.defaults p'.defaults ∧ p.names = p'.names ∧ p.slash = p'.slash ∧ p.star = p'.star ∧
      p.owing = p'.owing := by
  obtain ⟨⟩ := p
  obtain ⟨⟩ := p'
  simp [Alike, unplaced]

private theorem keeps_parameter (annotated unpacked : Bool) :
    Keeps (fun _ => True) false (parameter rules annotated unpacked)
      (parameter rules' annotated unpacked) := by
  refine .within keeps_line fun l l' _ => ?_
  refine .moved_within keeps_name fun name name' hname => ?_
  obtain rfl := alike_text_iff.mp hname
  cases annotated with
  | false => exact .pure (by simp) id
  | true =>
    refine .choice_within (sees_operator (e := false) nofun) ?_ (.pure (by simp) id)
    cases unpacked with
    | true => exact .within (keeps_starredOr hr rfl) fun a a' ha => .pure (by simp [ha]) id
    | false => exact .within (hr .expression) fun a a' ha => .pure (by simp [ha]) id

private theorem keeps_parameterItem (annotated : Bool) {p p' : Parameters} (hp : Alike p p') :
    Keeps (fun _ => True) false (parameterItem rules annotated p)
      (parameterItem rules' annotated p') := by
  obtain ⟨hpositional, hrest, hnamed, hnamedDefaults, hkeywords, hdefaults, hnames, hslash, hstar,
    howing⟩ := alike_parameters_iff.mp hp
  have hparameter : ∀ {unpacked}, Keeps (fun _ => True) false
      (parameter rules annotated unpacked) (parameter rules' annotated unpacked) :=
    keeps_parameter hr _ _
  refine .conditional (by rw [hkeywords.isSome_eq]) (fun _ => keeps_refuse) fun _ => ?_
  refine .unless (sees_operator (e := false) nofun)
    (by rw [hslash, hstar, hpositional.nil_iff]) refuse_ne_ok (.pure ?_ id) ?_
  · simp [alike_parameters_iff, *]
  refine .choice_within (sees_operator (e := false) nofun) ?_ ?_
  · simp only [if_true]
    refine .conditional (by rw [howing]) (fun _ => keeps_refuse) fun _ => ?_
    refine .within hparameter fun x x' hx => .pure ?_ id
    obtain ⟨hid, htree⟩ := alike_pair_iff.mp hx
    simp_all [alike_parameters_iff]
  refine .unless (sees_operator (e := false) nofun) (by rw [hstar]) refuse_ne_ok ?_ ?_
  · refine .within (sees_operator (e := false) nofun).keeps fun b b' hb => ?_
    obtain rfl := alike_bool_iff.mp hb
    cases b with
    | true => exact .pure (by simp [alike_parameters_iff, *]) id
    | false =>
      refine .within hparameter fun x x' hx => .pure ?_ id
      obtain ⟨hid, htree⟩ := alike_pair_iff.mp hx
      simp_all [alike_parameters_iff]
  refine .moved_within hparameter fun x x' hx => ?_
  obtain ⟨hid, htree⟩ := alike_pair_iff.mp hx
  refine .within (L := fun _ => False) (i := false) ?_ fun value value' hvalue => ?_
  · refine .choice_within (sees_operator (e := false) nofun) ?_ (.pure rfl id)
    exact .within (hr .expression) fun a a' ha => .pure (by simpa using ha) id
  refine .conditional (by simp only [hstar]) (fun _ => .pure ?_ id) fun _ => ?_
  · have hvalues := hnamedDefaults.append hvalue.toList
    simp_all [alike_parameters_iff, hnamed.push htree]
  obtain ⟨rfl, rfl⟩ | ⟨v, v', rfl, rfl, hv⟩ := hvalue.option_cases
  · refine .conditional (by simp only [hdefaults.nil_iff]) (fun _ => .pure ?_ id) fun _ =>
      keeps_throw _
    simp_all [alike_parameters_iff, hpositional.push htree]
  · refine .pure ?_ id
    simp_all [alike_parameters_iff, hpositional.push htree, hdefaults.push hv]

private theorem keeps_parameters (annotated : Bool) (closing : String) :
    Keeps (fun _ => False) false (parameters rules annotated closing)
      (parameters rules' annotated closing) := by
  refine .within keeps_line fun l l' _ => ?_
  refine .within (L := fun _ => False) (i := false) (.loop (fun x x' hx => ?_) (.refl _))
    fun x x' hx => ?_
  · obtain ⟨p, more⟩ := x
    obtain ⟨p', more'⟩ := x'
    obtain ⟨hp, hmore⟩ := alike_pair_iff.mp hx
    obtain rfl := alike_bool_iff.mp hmore
    refine .within (sees_operator (e := false) nofun).keeps fun closed closed' hclosed => ?_
    obtain rfl := alike_bool_iff.mp hclosed
    refine .conditional Iff.rfl (fun _ => .pure rfl nofun) fun _ => ?_
    exact .moved_within (keeps_parameterItem hr annotated hp) fun q q' hq =>
      keeps_separator closing hq
  · obtain ⟨p, more⟩ := x
    obtain ⟨p', more'⟩ := x'
    obtain ⟨hp, -⟩ := alike_pair_iff.mp hx
    obtain ⟨hpositional, hrest, hnamed, hnamedDefaults, hkeywords, hdefaults, hnames, -, -,
      howing⟩ := alike_parameters_iff.mp hp
    refine .conditional (by rw [howing]) (fun _ => keeps_refuse) fun _ => .pure ?_ id
    refine alike_node_iff.mpr ⟨by rw [hnames], ?_⟩
    exact ((((hpositional.append hrest.toList).append hnamed).append hnamedDefaults).append
      hkeywords.toList).append hdefaults

/-! ### Expressions -/

private theorem keeps_lambda : Keeps (fun _ => True) true (lambda rules) (lambda rules') := by
  refine .bind keeps_line fun l l' _ => ?_
  refine .bind (keeps_word "lambda") fun _ _ _ => ?_
  refine .inside (keeps_parameters hr false ":") fun params params' hparams => ?_
  refine .bind (keeps_operator ":") fun _ _ _ => ?_
  exact .moved (hr .expression) fun a a' ha => .pure (by simp [hparams, ha]) id

theorem keeps_expression : Keeps (fun _ => True) true (expression rules) (expression rules') := by
  refine .bind keeps_line fun l l' _ => ?_
  refine .bind (sees_word "lambda").keeps fun b b' hb => ?_
  obtain rfl := alike_bool_iff.mp hb
  cases b with
  | true => exact keeps_lambda hr
  | false =>
    refine .moved (hr .disjunction) fun body body' hbody => ?_
    refine .choice (sees_word "if") ?_ (.pure hbody id)
    refine .bind (hr .disjunction) fun test test' htest => ?_
    refine .bind (keeps_word "else") fun _ _ _ => ?_
    exact .bind (hr .expression) fun other other' hother => .pure (by simp [hbody, htest, hother]) id

/-- Whether two tokens give a name a value within an expression. -/
def namesValue (t u : Token) : Bool := isName t && u.isOperator ":="

/-- The rest of an expression that gives a name a value. -/
def namedRest (rules : Rules) (t : Token) : Parser Tree := do
  return .node .named t.line [.node (.name t.identifier) t.line [], ← rules .expression]

omit hr in
theorem pairs_named : Pairs namesValue (named rules) (namedRest rules) (rules .expression) where
  taken t u ts h := by
    have hpair : isName t = true ∧ u.isOperator ":=" = true := by
      simpa only [namesValue, Bool.and_eq_true] using h
    refine (bind_ok rfl).trans ?_
    simp only [if_pos hpair]
    rfl
  left s h := by
    obtain _ | ⟨t, _ | ⟨u, s⟩⟩ := s
    · rfl
    · rfl
    · have hpair : ¬(isName t = true ∧ u.isOperator ":=" = true) := by
        simpa only [namesValue, Bool.and_eq_true, ← Bool.not_eq_true] using h t u s rfl
      refine (bind_ok rfl).trans ?_
      simp only [if_neg hpair]

theorem keeps_named : Keeps (fun _ => True) true (named rules) (named rules') := by
  have hsees : Sees true (atOperator ":=") (·.isOperator ":=") := sees_operator (by decide)
  refine .paired pairs_named pairs_named (fun t u t' u' ht hu => ?_) (fun _ t u h => ?_) nofun
    (fun t t' ht => ?_) (hr .expression)
  · rw [namesValue, namesValue, isName_eq_of_alike ht, hsees.alike hu]
  · rw [namesValue, Bool.and_eq_false_iff]
    exact h.imp isName_of_isEdge (hsees.edge rfl)
  · have hid : t.identifier = t'.identifier := by
      rw [Token.identifier, Token.identifier, (alike_token_iff.mp ht).2]
    exact .bind (hr .expression) fun a a' ha => .pure (by simp [hid, ha]) id

/-! ### Expressions with commas between them -/

/-- Whether an expression, or an unpacked one, may begin with a token. -/
def beginsWith (t : Token) : Bool :=
  match t.kind with
  | .number | .string => true
  | .name => isName t || ["False", "None", "True", "await", "lambda", "not"].any (t.text = ·.toList)
  | .operator => ["(", "[", "\x7b", "+", "-", "~", "...", "*"].any (t.text = ·.toList)
  | _ => false

omit hr in
theorem sees_begins : Sees true begins beginsWith where
  nil := rfl
  cons t ts := by
    obtain ⟨kind, text, line, column⟩ := t
    cases kind <;> rfl
  alike {t u} h := by
    obtain ⟨hkind, htext⟩ := alike_token_iff.mp h
    rw [beginsWith, beginsWith, isName_eq_of_alike h, hkind, htext]
  edge {t} _ ht := by
    obtain ⟨kind, text, line, column⟩ := t
    obtain rfl | ⟨rfl, rfl | rfl | rfl⟩ := ht <;> rfl

theorem keeps_expressions : Keeps (fun _ => True) false (expressions rules) (expressions rules') := by
  refine .within keeps_line fun l l' _ => ?_
  refine .moved_within (keeps_commaSeparated (keeps_starredOr hr rfl) sees_begins.keeps)
    fun x x' hx => .pure ?_ id
  obtain ⟨items, trailing⟩ := x
  obtain ⟨items', trailing'⟩ := x'
  obtain ⟨hitems, htrailing⟩ := alike_pair_iff.mp hx
  obtain rfl := alike_bool_iff.mp htrailing
  obtain ⟨rfl, rfl⟩ | ⟨a, as, a', as', rfl, rfl, ha, has⟩ := hitems.list_cases
  · simp
  obtain ⟨rfl, rfl⟩ | ⟨b, bs, b', bs', rfl, rfl, hb, hbs⟩ := has.list_cases
  · cases trailing <;> simp [ha]
  · simp [ha, hb, hbs]

theorem keeps_yielding : Keeps (fun _ => True) false (yielding rules) (yielding rules') := by
  refine .within keeps_line fun l l' _ => ?_
  refine .moved_within (keeps_word "yield") fun _ _ _ => ?_
  refine .choice_within (sees_word "from") ?_ ?_
  · exact .within (hr .expression) fun a a' ha => .pure (by simpa using ha) id
  · refine .within sees_begins.keeps fun b b' hb => ?_
    obtain rfl := alike_bool_iff.mp hb
    cases b with
    | true => exact .within (hr .expressions) fun a a' ha => .pure (by simpa using ha) id
    | false => exact .pure (by simp) id

/-! ### Targets -/

omit hr

mutual

private theorem isTarget_withoutLines (unpacked : Bool) :
    ∀ t : Tree, isTarget unpacked t.withoutLines = isTarget unpacked t
  | .node s l ps => by
    cases s <;> try rfl
    case starred =>
      obtain _ | ⟨t, _ | ⟨u, ps⟩⟩ := ps
      · rfl
      · simp only [Tree.withoutLines, Tree.withoutLinesAll, isTarget, isTarget_withoutLines false t]
      · rfl
    case tuple => exact areTargets_withoutLines ps
    case list => exact areTargets_withoutLines ps

private theorem areTargets_withoutLines :
    ∀ ts : List Tree, areTargets (Tree.withoutLinesAll ts) = areTargets ts
  | [] => rfl
  | t :: ts => by
    rw [Tree.withoutLinesAll, areTargets, areTargets, isTarget_withoutLines true t,
      areTargets_withoutLines ts]

end

private theorem isTarget_eq_of_alike {t u : Tree} (h : Alike t u) (unpacked : Bool) :
    isTarget unpacked t = isTarget unpacked u := by
  rw [← isTarget_withoutLines unpacked t, ← isTarget_withoutLines unpacked u]
  exact congrArg (isTarget unpacked) h

include hr

theorem keeps_targets : Keeps (fun _ => True) false (targets rules) (targets rules') := by
  refine .within keeps_line fun l l' _ => ?_
  refine .moved_within (keeps_commaSeparated (R := fun _ => False) (j := false)
    (keeps_starredOr hr rfl) ?_) fun x x' hx => ?_
  · refine .within (sees_word "in").keeps fun b b' hb => .pure ?_ id
    rw [alike_bool_iff, alike_bool_iff.mp hb]
  obtain ⟨items, trailing⟩ := x
  obtain ⟨items', trailing'⟩ := x'
  obtain ⟨hitems, htrailing⟩ := alike_pair_iff.mp hx
  obtain rfl := alike_bool_iff.mp htrailing
  refine .conditional (by rw [hitems.all_eq fun a b h => isTarget_eq_of_alike h true])
    (fun _ => .pure ?_ id) fun _ => keeps_throw _
  obtain ⟨rfl, rfl⟩ | ⟨a, as, a', as', rfl, rfl, ha, has⟩ := hitems.list_cases
  · simp
  obtain ⟨rfl, rfl⟩ | ⟨b, bs, b', bs', rfl, rfl, hb, hbs⟩ := has.list_cases
  · cases trailing <;> simp [ha]
  · simp [ha, hb, hbs]

end Expression

end Code

end ServerPages
