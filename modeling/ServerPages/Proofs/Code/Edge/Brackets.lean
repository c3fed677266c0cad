import ServerPages.Proofs.Code.Edge.Operations

/-!
# Brackets up to an edge

What an opening bracket opens ends with the bracket that closes it, so that nothing behind that one
makes a difference.
-/

namespace ServerPages

namespace Code

namespace Expression

open Code.Parser

/-! ### Clauses -/

/-- Whether tokens begin with a word. -/
def beginsWithWord (w : String) (ts : List Token) : Bool :=
  ts.head?.any fun t => t.kind = .name && t.text = w.toList

/-- Whether tokens begin with a clause of a comprehension. -/
def beginsWithClause (ts : List Token) : Bool :=
  beginsWithWord "for" ts || (beginsWithWord "async" ts && beginsWithWord "for" ts.tail)

theorem atClause_eq (ts : List Token) : atClause ts = .ok (beginsWithClause ts, ts) := by
  obtain _ | ⟨t, _ | ⟨u, ts⟩⟩ := ts
  · rfl
  · refine congrArg (fun b => Except.ok (b, [t])) ?_
    simp [beginsWithClause, beginsWithWord]
  · rfl

private theorem beginsWithWord_of_atEdge (w : String) {b : List Token} (hb : AtEdge b) :
    beginsWithWord w b = false := by
  obtain _ | ⟨t, b⟩ := b
  · rfl
  · exact (sees_word w).edge rfl (hb t rfl)

variable {s s' b b' : List Token}

private theorem beginsWithWord_append (w : String) (hs : Alike s s') (hb : AtEdge b) (hb' : AtEdge b') :
    beginsWithWord w (s ++ b) = beginsWithWord w (s' ++ b') := by
  obtain ⟨rfl, rfl⟩ | ⟨t, ts, t', ts', rfl, rfl, ht, -⟩ := hs.list_cases
  · exact (beginsWithWord_of_atEdge w hb).trans (beginsWithWord_of_atEdge w hb').symm
  · exact (sees_word w).alike ht

private theorem beginsWithClause_append (hs : Alike s s') (hb : AtEdge b) (hb' : AtEdge b') :
    beginsWithClause (s ++ b) = beginsWithClause (s' ++ b') := by
  have hword : ∀ w, beginsWithWord w (s ++ b) = beginsWithWord w (s' ++ b') := fun w =>
    beginsWithWord_append w hs hb hb'
  rw [beginsWithClause, beginsWithClause, hword, hword]
  obtain ⟨rfl, rfl⟩ | ⟨t, ts, t', ts', rfl, rfl, -, hts⟩ := hs.list_cases
  · rw [List.nil_append, beginsWithWord_of_atEdge "async" hb', Bool.false_and, Bool.false_and]
  · rw [List.cons_append, List.cons_append, List.tail_cons, List.tail_cons,
      beginsWithWord_append "for" hts hb hb']

theorem keeps_atClause : Keeps (fun _ => False) true atClause atClause :=
  .of_look beginsWithClause atClause_eq fun _ _ _ _ hs hb hb' _ => beginsWithClause_append hs hb hb'

variable {rules rules' : Rules} (hr : KeepAll rules rules')

include hr

private theorem keeps_clause : Keeps (fun _ => True) false (clause rules) (clause rules') := by
  refine .within keeps_line fun l l' _ => ?_
  refine .within (sees_word "async").keeps_takeIf fun _ _ _ => ?_
  refine .moved_within (keeps_word "for") fun _ _ _ => ?_
  refine .within (hr .targets) fun target target' htarget => ?_
  refine .within (keeps_word "in") fun _ _ _ => ?_
  refine .within (hr .disjunction) fun source source' hsource => ?_
  refine .within (L := fun _ => False) (i := true) (.loop (fun a a' ha => ?_) (.refl _))
    fun tests tests' htests => .pure ?_ id
  · refine .choice (sees_word "if") ?_ (.pure rfl nofun)
    exact .moved (hr .disjunction) fun t t' ht => .pure (alike_some_iff.mpr (ha.push ht)) id
  · simp [htarget, hsource, htests]

theorem keeps_clauses : Keeps (fun _ => False) false (clauses rules) (clauses rules') := by
  refine .loop (fun cs cs' hcs => ?_) (.refl _)
  refine .within keeps_atClause fun b b' hb => ?_
  obtain rfl := alike_bool_iff.mp hb
  cases b with
  | true =>
    exact .moved_within (keeps_clause hr) fun c c' hc => .pure (alike_some_iff.mpr (hcs.push hc)) id
  | false => exact .pure rfl nofun

/-- A comprehension in brackets, behind its elements. -/
theorem keeps_comprehension {α : Type} [Unplace α] (closing : String) (make make' : List Tree → α)
    (h : ∀ cs cs', Alike cs cs' → Alike (make cs) (make' cs')) :
    Keeps (fun _ => True) true
      (clauses rules >>= fun cs => operator closing >>= fun _ => pure (make cs))
      (clauses rules' >>= fun cs => operator closing >>= fun _ => pure (make' cs)) :=
  .inside (keeps_clauses hr) fun cs cs' hcs => keeps_closing closing (h cs cs' hcs)

/-! ### Calls -/

instance : Unplace Arguments := ⟨fun a =>
  { a with positional := unplaced a.positional, keywords := unplaced a.keywords }⟩

omit hr in
private theorem alike_arguments_iff {a a' : Arguments} : Alike a a' ↔
    Alike a.positional a'.positional ∧ Alike a.keywords a'.keywords ∧ a.named = a'.named ∧
      a.unpacked = a'.unpacked := by
  obtain ⟨⟩ := a
  obtain ⟨⟩ := a'
  simp [Alike, unplaced]

/-- Whether two tokens name an argument. -/
def namesArgument (t u : Token) : Bool := isName t && u.isOperator "="

/-- One argument that is not unpacked. -/
def oneArgument (rules : Rules) (line : Nat) (a : Arguments) : Parser Arguments := do
  match ← get with
  | t :: u :: rest =>
    if isName t ∧ u.isOperator "=" then
      set rest
      let value ← rules .expression
      let keyword : Tree := .node (.keyword (some t.identifier)) line [value]
      return { a with keywords := a.keywords ++ [keyword], named := true }
    else if a.named then refuse
    else return { a with positional := a.positional ++ [← rules .named] }
  | _ => refuse

/-- The rest of an argument with a name. -/
def namedArgument (rules : Rules) (line : Nat) (a : Arguments) (t : Token) : Parser Arguments := do
  let value ← rules .expression
  let keyword : Tree := .node (.keyword (some t.identifier)) line [value]
  return { a with keywords := a.keywords ++ [keyword], named := true }

/-- An argument without a name. -/
def plainArgument (rules : Rules) (a : Arguments) : Parser Arguments := do
  if a.named then refuse
  else return { a with positional := a.positional ++ [← rules .named] }

omit hr in
theorem pairs_oneArgument (line : Nat) (a : Arguments) :
    Pairs namesArgument (oneArgument rules line a) (namedArgument rules line a)
      (beforeLast (plainArgument rules a)) where
  taken t u ts h := by
    have hpair : isName t = true ∧ u.isOperator "=" = true := by
      simpa only [namesArgument, Bool.and_eq_true] using h
    refine (bind_ok rfl).trans ?_
    simp only [if_pos hpair]
    rfl
  left s h := by
    obtain _ | ⟨t, _ | ⟨u, s⟩⟩ := s
    · rfl
    · rfl
    · have hpair : ¬(isName t = true ∧ u.isOperator "=" = true) := by
        simpa only [namesArgument, Bool.and_eq_true, ← Bool.not_eq_true] using h t u s rfl
      refine (bind_ok rfl).trans ?_
      simp only [if_neg hpair]
      rfl

private theorem keeps_argument {a a' : Arguments} (ha : Alike a a') :
    Keeps (fun _ => True) false (argument rules a) (argument rules' a') := by
  obtain ⟨hpositional, hkeywords, hnamed, hunpacked⟩ := alike_arguments_iff.mp ha
  refine .within keeps_line fun l l' _ => ?_
  refine .choice_within (sees_operator (e := false) nofun) ?_ ?_
  · refine .within (hr .expression) fun v v' hv => .pure ?_ id
    rw [alike_arguments_iff]
    exact ⟨hpositional, hkeywords.push (by simpa using hv), rfl, rfl⟩
  refine .unless (sees_operator (e := false) nofun) (by rw [hunpacked]) refuse_ne_ok ?_ ?_
  · refine .within (hr .expression) fun v v' hv => .pure ?_ id
    rw [alike_arguments_iff]
    exact ⟨hpositional.push (by simpa using hv), hkeywords, hnamed, hunpacked⟩
  have hsees : Sees false (atOperator "=") (·.isOperator "=") := sees_operator nofun
  refine .paired (pairs_oneArgument l a) (pairs_oneArgument l' a') (fun t u t' u' ht hu => ?_)
    nofun (fun _ _ => trivial) (fun t t' ht => ?_) (.beforeLast ?_)
  · rw [namesArgument, namesArgument, isName_eq_of_alike ht, hsees.alike hu]
  · refine .within (hr .expression) fun v v' hv => .pure ?_ id
    have hid : t.identifier = t'.identifier := by
      rw [Token.identifier, Token.identifier, (alike_token_iff.mp ht).2]
    rw [alike_arguments_iff]
    exact ⟨hpositional, hkeywords.push (by simp [hid, hv]), rfl, hunpacked⟩
  · refine .conditional (by rw [hnamed]) (fun _ => keeps_refuse) fun _ => ?_
    refine .moved_within (hr .named) fun v v' hv => .pure ?_ id
    rw [alike_arguments_iff]
    exact ⟨hpositional.push hv, hkeywords, hnamed, hunpacked⟩

private theorem keeps_arguments (generator : Bool) :
    Keeps (fun _ => True) true (arguments rules generator) (arguments rules' generator) := by
  refine .inside (L := fun _ => False) (i := false) (.loop (fun x x' hx => ?_) (.refl _))
    fun x x' hx => ?_
  · obtain ⟨a, more⟩ := x
    obtain ⟨a', more'⟩ := x'
    obtain ⟨ha, hmore⟩ := alike_pair_iff.mp hx
    obtain rfl := alike_bool_iff.mp hmore
    refine .within (sees_operator (e := false) nofun).keeps fun closed closed' hclosed => ?_
    obtain rfl := alike_bool_iff.mp hclosed
    refine .conditional Iff.rfl (fun _ => .pure rfl nofun) fun _ => ?_
    refine .moved_within (keeps_argument hr ha) fun b b' hb => ?_
    obtain ⟨hpositional, -, hnamed, -⟩ := alike_arguments_iff.mp hb
    refine .within keeps_atClause fun clause clause' hclause => ?_
    obtain rfl := alike_bool_iff.mp hclause
    refine .conditional (by rw [hnamed, hpositional.length_eq]) (fun _ => .pure ?_ id) fun _ =>
      keeps_separator ")" hb
    simpa using hb
  · obtain ⟨a, more⟩ := x
    obtain ⟨a', more'⟩ := x'
    obtain ⟨ha, -⟩ := alike_pair_iff.mp hx
    obtain ⟨hpositional, hkeywords, -, -⟩ := alike_arguments_iff.mp ha
    refine .bind keeps_atClause fun clause clause' hclause => ?_
    obtain rfl := alike_bool_iff.mp hclause
    have hclose := keeps_closing ")" (hpositional.append hkeywords)
    obtain hnil | ⟨x, xs, x', xs', hcons, hcons', hx, hxs⟩ := hpositional.list_cases
    · rw [hnil.1, hnil.2] at hclose ⊢
      exact hclose
    obtain ⟨s, line, ps⟩ := x
    obtain ⟨s', line', ps'⟩ := x'
    obtain ⟨rfl, hps⟩ := alike_node_iff.mp hx
    rw [hcons, hcons'] at hclose ⊢
    obtain ⟨rfl, rfl⟩ | ⟨y, ys, y', ys', rfl, rfl, -, -⟩ := hxs.list_cases
    · cases clause with
      | false => cases s <;> exact hclose
      | true =>
        have hone := keeps_comprehension hr ")"
          (fun cs => [Tree.node .comprehension line (.node s line ps :: cs)])
          (fun cs => [Tree.node .comprehension line' (.node s line' ps' :: cs)])
          fun cs cs' hcs => by simp [hps, hcs]
        cases generator with
        | false => cases s <;> first | exact keeps_refuse_bind | exact keeps_refuse
        | true => cases s <;> first | exact hone | exact keeps_refuse
    · cases s <;> exact hclose

/-! ### Items -/

omit hr in
private theorem isLoose_eq_of_alike (enclosed : Bool) {t u : Tree} (h : Alike t u) :
    isLoose enclosed t = isLoose enclosed u := by
  obtain ⟨s, l, ps⟩ := t
  obtain ⟨s', l', ps'⟩ := u
  obtain ⟨rfl, -⟩ := alike_node_iff.mp h
  cases s <;> rfl

/-- One of the bounds of a slice, which may be left out. -/
def sliceBound (rules : Rules) : Parser (List Tree) := do
  if (← atOperator ":") ∨ (← atOperator ",") ∨ (← atOperator "]") then return []
  else return [← rules .expression]

private theorem keeps_sliceBound :
    Keeps (fun _ => False) false (sliceBound rules) (sliceBound rules') := by
  refine .within (sees_operator (e := false) nofun).keeps fun b b' hb => ?_
  refine .within (sees_operator (e := false) nofun).keeps fun c c' hc => ?_
  refine .within (sees_operator (e := false) nofun).keeps fun d d' hd => ?_
  obtain rfl := alike_bool_iff.mp hb
  obtain rfl := alike_bool_iff.mp hc
  obtain rfl := alike_bool_iff.mp hd
  refine .conditional Iff.rfl (fun _ => .pure rfl id) fun _ => ?_
  exact .within (hr .expression) fun a a' ha => .pure (by simpa using ha) id

private theorem keeps_sliceItem : Keeps (fun _ => True) false (sliceItem rules) (sliceItem rules') := by
  have hcolon : Sees false (atOperator ":") (·.isOperator ":") := sees_operator nofun
  refine .within keeps_line fun l l' _ => ?_
  refine .choice_within (sees_operator (e := false) nofun) ?_ ?_
  · exact .within (hr .expression) fun a a' ha => .pure (by simpa using ha) id
  refine .within (sees_operator (e := false) nofun).keeps fun enclosed enclosed' henclosed => ?_
  obtain rfl := alike_bool_iff.mp henclosed
  refine .sequence (L := fun lower => lower ≠ []) (i := false) (j := false)
    (fun lower _ => lower = []) ?_ (fun lower lower' hlower => ?_) (fun lower _ _ => ?_) nofun
  · refine .within hcolon.keeps fun b b' hb => ?_
    obtain rfl := alike_bool_iff.mp hb
    cases b with
    | true => exact .pure rfl (fun h => h rfl)
    | false => exact .moved_within (hr .named) fun a a' ha => .pure (by simpa using ha) id
  · refine .unless hcolon (by rw [hlower.any_eq fun a b h => isLoose_eq_of_alike enclosed h])
      refuse_bind_ne_ok ?_ ?_
    · refine .within (keeps_sliceBound hr) fun upper upper' hupper => ?_
      refine .within (L := fun _ => False) (i := false) ?_ fun step step' hstep => .pure ?_ id
      · exact .choice_within hcolon (keeps_sliceBound hr) (.pure rfl id)
      · simpa using (hlower.append hupper).append hstep
    · obtain ⟨rfl, rfl⟩ | ⟨a, as, a', as', rfl, rfl, ha, has⟩ := hlower.list_cases
      · exact keeps_refuse
      obtain ⟨rfl, rfl⟩ | ⟨b, bs, b', bs', rfl, rfl, -, -⟩ := has.list_cases
      · exact .pure ha (List.cons_ne_nil a [])
      · exact keeps_refuse
  · exact (Decidable.em (lower = [])).symm

private theorem keeps_slices : Keeps (fun _ => True) true (slices rules) (slices rules') := by
  refine .bind keeps_line fun l l' _ => ?_
  refine .inside (keeps_commaSeparated (R := fun _ => False) (j := false) (keeps_sliceItem hr) ?_)
    fun x x' hx => keeps_closing "]" ?_
  · refine .within (sees_operator (e := false) nofun).keeps fun b b' hb => .pure ?_ id
    rw [alike_bool_iff, alike_bool_iff.mp hb]
  obtain ⟨items, trailing⟩ := x
  obtain ⟨items', trailing'⟩ := x'
  obtain ⟨hitems, htrailing⟩ := alike_pair_iff.mp hx
  obtain rfl := alike_bool_iff.mp htrailing
  obtain ⟨rfl, rfl⟩ | ⟨a, as, a', as', rfl, rfl, ha, has⟩ := hitems.list_cases
  · simp
  obtain ⟨s, line, ps⟩ := a
  obtain ⟨s', line', ps'⟩ := a'
  obtain ⟨rfl, hps⟩ := alike_node_iff.mp ha
  obtain ⟨rfl, rfl⟩ | ⟨b, bs, b', bs', rfl, rfl, hb, hbs⟩ := has.list_cases
  · cases trailing <;> cases s <;> simp [hps]
  · cases s <;> simp [hps, hb, hbs]

private theorem keeps_operand : Keeps (fun _ => True) true (operand rules) (operand rules') := by
  refine .bind keeps_line fun l l' _ => ?_
  refine .moved (hr .atom) fun first first' hfirst => .loop (fun value value' hvalue => ?_) hfirst
  refine .choice (sees_operator (by decide)) ?_ ?_
  · exact .bind keeps_name fun id id' hid => .pure (by simp_all) nofun
  refine .choice (sees_operator (by decide)) ?_ ?_
  · exact .bind (keeps_arguments hr true) fun as as' has => .pure (by simp [hvalue, has]) nofun
  refine .choice (sees_operator (by decide)) ?_ (.pure rfl nofun)
  exact .bind (keeps_slices hr) fun a a' ha => .pure (by simp [hvalue, ha]) nofun

theorem keeps_primary : Keeps (fun _ => True) true (primary rules) (primary rules') := by
  refine .bind keeps_line fun l l' _ => ?_
  refine .choice (sees_word "await") ?_ (keeps_operand hr)
  exact .moved (keeps_operand hr) fun a a' ha => .pure (by simp [ha]) id

/-! ### Atoms in brackets -/

theorem keeps_parenthesised (line line' : Nat) :
    Keeps (fun _ => True) true (parenthesised rules line) (parenthesised rules' line') := by
  have hclosed : Sees false (atOperator ")") (·.isOperator ")") := sees_operator nofun
  have hcomma : Sees false (atOperator ",") (·.isOperator ",") := sees_operator nofun
  refine .choice_inside hclosed (.pure (by simp) id) ?_
  refine .bind (sees_word "yield").keeps fun b b' hb => ?_
  obtain rfl := alike_bool_iff.mp hb
  cases b with
  | true => exact .inside (hr .yielding) fun v v' hv => keeps_closing ")" hv
  | false =>
  refine .inside (keeps_starredOr hr rfl) fun first first' hfirst => ?_
  refine .of_takeIf hcomma (.choice_inside hcomma ?_ ?_)
  · refine .choice_inside hclosed (.pure (by simp [hfirst]) id) ?_
    refine .inside (keeps_commaSeparated (keeps_starredOr hr rfl) sees_begins.keeps)
      fun x x' hx => keeps_closing ")" ?_
    obtain ⟨items, trailing⟩ := x
    obtain ⟨items', trailing'⟩ := x'
    simpa [hfirst] using (alike_pair_iff.mp hx).1
  obtain ⟨s, l, ps⟩ := first
  obtain ⟨s', l', ps'⟩ := first'
  obtain ⟨rfl, hps⟩ := alike_node_iff.mp hfirst
  simp only [Bool.false_eq_true, if_false]
  refine .conditional (by cases s <;> exact Iff.rfl) (fun _ => keeps_refuse) fun _ => ?_
  refine .bind keeps_atClause fun b b' hb => ?_
  obtain rfl := alike_bool_iff.mp hb
  cases b with
  | true =>
    exact keeps_comprehension hr ")" (fun cs => Tree.node .comprehension line (.node s l ps :: cs))
      (fun cs => Tree.node .comprehension line' (.node s l' ps' :: cs))
      fun cs cs' hcs => by simp [hps, hcs]
  | false => exact keeps_closing ")" hfirst

/-- The elements of a list or a collection: one comprehension, or elements with commas between
them. -/
def elements (rules : Rules) (closing : String) (shape : Shape) (line : Nat) (items : List Tree)
    (trailing : Bool) : Parser Tree := do
  match items, trailing, ← atClause with
  | [.node .starred _ _], false, true => refuse
  | [first], false, true =>
    let cs ← clauses rules
    operator closing
    return .node .comprehension line (first :: cs)
  | _, _, _ =>
    operator closing
    return .node shape line items

private theorem keeps_elements (closing : String) (shape : Shape) (line line' : Nat)
    {items items' : List Tree} (hitems : Alike items items') (trailing : Bool) :
    Keeps (fun _ => True) true (elements rules closing shape line items trailing)
      (elements rules' closing shape line' items' trailing) := by
  refine .bind keeps_atClause fun clause clause' hclause => ?_
  obtain rfl := alike_bool_iff.mp hclause
  have htrees : Alike (Tree.node shape line items) (.node shape line' items') := by
    simpa using hitems
  have hclose := keeps_closing closing htrees
  obtain ⟨rfl, rfl⟩ | ⟨x, xs, x', xs', rfl, rfl, hx, hxs⟩ := hitems.list_cases
  · exact hclose
  obtain ⟨s, l, ps⟩ := x
  obtain ⟨s', l', ps'⟩ := x'
  obtain ⟨rfl, hps⟩ := alike_node_iff.mp hx
  obtain ⟨rfl, rfl⟩ | ⟨y, ys, y', ys', rfl, rfl, -, -⟩ := hxs.list_cases
  · have hone := keeps_comprehension hr closing
      (fun cs => Tree.node .comprehension line (.node s l ps :: cs))
      (fun cs => Tree.node .comprehension line' (.node s l' ps' :: cs))
      fun cs cs' hcs => by simp [hps, hcs]
    cases trailing with
    | true => cases s <;> exact hclose
    | false =>
      cases clause with
      | false => cases s <;> exact hclose
      | true => cases s <;> first | exact hone | exact keeps_refuse
  · cases s <;> exact hclose

theorem keeps_bracketed (line line' : Nat) :
    Keeps (fun _ => True) true (bracketed rules line) (bracketed rules' line') := by
  refine .choice_inside (sees_operator (e := false) nofun) (.pure (by simp) id) ?_
  refine .inside (keeps_commaSeparated (keeps_starredOr hr rfl) sees_begins.keeps)
    fun x x' hx => ?_
  obtain ⟨items, trailing⟩ := x
  obtain ⟨items', trailing'⟩ := x'
  obtain ⟨hitems, htrailing⟩ := alike_pair_iff.mp hx
  obtain rfl := alike_bool_iff.mp htrailing
  exact keeps_elements hr "]" .list line line' hitems trailing

private theorem keeps_entry : Keeps (fun _ => True) true (entry rules) (entry rules') := by
  refine .choice (sees_operator (by decide)) ?_ ?_
  · exact .bind (hr (.operation 0)) fun v v' hv => .pure (by simpa using hv) id
  refine .moved (hr .expression) fun key key' hkey => ?_
  refine .bind (keeps_operator ":") fun _ _ _ => ?_
  exact .bind (hr .expression) fun v v' hv => .pure (by simp [hkey, hv]) id

private theorem keeps_table (line line' : Nat) {first first' : Option Tree × Tree}
    (hfirst : Alike first first') :
    Keeps (fun _ => True) true (table rules line first) (table rules' line' first') := by
  refine .inside (keeps_commaSeparatedFrom (R := fun _ => False) (j := false) (keeps_entry hr) ?_
    hfirst) fun x x' hx => ?_
  · refine .within sees_begins.keeps fun b b' hb => ?_
    refine .within (sees_operator (e := false) nofun).keeps fun c c' hc => .pure ?_ id
    rw [alike_bool_iff, alike_bool_iff.mp hb, alike_bool_iff.mp hc]
  obtain ⟨entries, trailing⟩ := x
  obtain ⟨entries', trailing'⟩ := x'
  obtain ⟨hentries, htrailing⟩ := alike_pair_iff.mp hx
  obtain rfl := alike_bool_iff.mp htrailing
  refine .bind keeps_atClause fun clause clause' hclause => ?_
  obtain rfl := alike_bool_iff.mp hclause
  have htrees : Alike
      (Tree.node .collection line (entries.filterMap (·.1) ++ entries.map (·.2)))
      (.node .collection line' (entries'.filterMap (·.1) ++ entries'.map (·.2))) := by
    have hkeys := hentries.filterMap (f := Prod.fst) fun a b h => (alike_pair_iff.mp h).1
    have hvalues := hentries.map (f := Prod.snd) fun a b h => (alike_pair_iff.mp h).2
    simpa using hkeys.append hvalues
  have hclose := keeps_closing "\x7d" htrees
  obtain ⟨rfl, rfl⟩ | ⟨x, xs, x', xs', rfl, rfl, hx, hxs⟩ := hentries.list_cases
  · exact hclose
  obtain ⟨key, value⟩ := x
  obtain ⟨key', value'⟩ := x'
  obtain ⟨hkey, hvalue⟩ := alike_pair_iff.mp hx
  obtain ⟨rfl, rfl⟩ | ⟨y, ys, y', ys', rfl, rfl, -, -⟩ := hxs.list_cases
  · obtain ⟨rfl, rfl⟩ | ⟨k, k', rfl, rfl, hk⟩ := hkey.option_cases
    · cases trailing <;> cases clause <;> first | exact hclose | exact keeps_refuse
    · cases trailing with
      | true => exact hclose
      | false =>
        cases clause with
        | false => exact hclose
        | true =>
          exact keeps_comprehension hr "\x7d"
            (fun cs => Tree.node .comprehension line (k :: value :: cs))
            (fun cs => Tree.node .comprehension line' (k' :: value' :: cs))
            fun cs cs' hcs => by simp [hk, hvalue, hcs]
  · obtain ⟨rfl, rfl⟩ | ⟨k, k', rfl, rfl, hk⟩ := hkey.option_cases <;> exact hclose

theorem keeps_braced (line line' : Nat) :
    Keeps (fun _ => True) true (braced rules line) (braced rules' line') := by
  refine .choice_inside (sees_operator (e := false) nofun) (.pure (by simp) id) ?_
  refine .inside (sees_operator (e := false) nofun).keeps fun b b' hb => ?_
  obtain rfl := alike_bool_iff.mp hb
  cases b with
  | true => exact .bind (keeps_entry hr) fun first first' hfirst => keeps_table hr _ _ hfirst
  | false =>
  refine .inside (sees_operator (e := false) nofun).keeps fun enclosed enclosed' henclosed => ?_
  obtain rfl := alike_bool_iff.mp henclosed
  refine .inside (keeps_starredOr hr rfl) fun first first' hfirst => ?_
  refine .unless (sees_operator (by decide)) (by rw [isLoose_eq_of_alike enclosed hfirst])
    refuse_ne_ok ?_ ?_
  · exact .bind (hr .expression) fun v v' hv =>
      (keeps_table hr line line' (by simp [hfirst, hv])).weaken (by simp) id
  · refine .inside (keeps_commaSeparatedFrom (keeps_starredOr hr rfl) sees_begins.keeps hfirst)
      fun x x' hx => ?_
    obtain ⟨items, trailing⟩ := x
    obtain ⟨items', trailing'⟩ := x'
    obtain ⟨hitems, htrailing⟩ := alike_pair_iff.mp hx
    obtain rfl := alike_bool_iff.mp htrailing
    exact keeps_elements hr "\x7d" .collection line line' hitems trailing

end Expression

end Code

end ServerPages
