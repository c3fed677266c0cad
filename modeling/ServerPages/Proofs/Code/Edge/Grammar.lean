import ServerPages.Proofs.Code.Edge.Brackets
import ServerPages.Proofs.Code.Edge.Reading

/-!
# The grammar of expressions up to an edge
-/

namespace ServerPages

namespace Code

instance : Unplace StringLiteral := ⟨id⟩

@[simp]
theorem alike_literal_iff {l l' : StringLiteral} : Alike l l' ↔ l = l' := Iff.rfl

namespace Expression

open Code.Parser

variable {rules rules' : Rules} {e : Bool}

/-! ### Numbers and strings -/

private theorem keeps_number {t t' : Token} (h : Alike t t') :
    Keeps (fun _ => False) e (number t) (number t') := by
  unfold number
  rw [(alike_token_iff.mp h).2]
  cases wholeNumber t'.text with
  | none => exact .pure (by simp) id
  | some n => exact .conditional Iff.rfl (fun _ => keeps_throw _) fun _ => .pure (by simp) id

mutual

private theorem keeps_fields (hr : KeepAll rules rules') (line line' : Nat) : ∀ fs : List StringLiteral.Field,
    Keeps (fun _ => False) e (fields rules line fs) (fields rules' line' fs)
  | [] => .pure rfl id
  | f :: fs => by
    refine .both (keeps_field hr line line' f) fun tree tree' htree => ?_
    refine .both (keeps_fields hr line line' fs) fun trees trees' htrees => ?_
    exact .pure (by simp [htree, htrees]) id

private theorem keeps_field (hr : KeepAll rules rules') (line line' : Nat) : ∀ f : StringLiteral.Field,
    Keeps (fun _ => False) e (field rules line f) (field rules' line' f)
  | .mk source before format => by
    have hscan : Alike
        (scan .strict' { line := line + before } true ('(' :: source ++ [')', '\n']))
        (scan .strict' { line := line' + before } true ('(' :: source ++ [')', '\n'])) :=
      alike_scan (alike_lexState_iff.mpr ⟨rfl, rfl, rfl⟩)
    unfold field
    dsimp only
    generalize scan .strict' { line := line + before } true _ = r at hscan ⊢
    generalize scan .strict' { line := line' + before } true _ = r' at hscan ⊢
    obtain ⟨ts, fault⟩ := r
    obtain ⟨ts', fault'⟩ := r'
    obtain ⟨hts, hfault⟩ := alike_pair_iff.mp hscan
    refine .conditional (by rw [hfault.isSome_eq]) (fun _ => keeps_throw _) fun _ => ?_
    have hkept := hts.filter (f := fun t => t.kind ≠ .comment ∧ t.kind ≠ .blankLine)
      fun t u htu => by rw [(alike_token_iff.mp htu).1]
    cases hrun : (rules .expressions).run
        (ts.filter fun t => t.kind ≠ .comment ∧ t.kind ≠ .blankLine) with
    | error x => exact keeps_throw _
    | ok p =>
    obtain ⟨value, _ | ⟨t, _ | ⟨u, rest⟩⟩⟩ := p
    · exact keeps_throw _
    swap
    · exact keeps_throw _
    -- one token is left, so the source of the field ends before it, wherever it stands
    obtain ⟨value', rest, hrun', hvalue, hrest⟩ := (hr .expressions).same hkept atEdge_nil atEdge_nil
      (.inr (List.cons_ne_nil t [])) (by rw [List.append_nil]; exact hrun)
    obtain ⟨t', rfl⟩ : ∃ t', rest = [t'] := List.length_eq_one_iff.mp hrest.length_eq.symm
    rw [List.append_nil, List.append_nil] at hrun'
    have hrun'' : (rules' .expressions).run
        (ts'.filter fun t => t.kind ≠ .comment ∧ t.kind ≠ .blankLine) = .ok (value', [t']) := hrun'
    rw [hrun'']
    have hkind : t.kind = t'.kind := (alike_token_iff.mp (alike_cons_iff.mp hrest).1).1
    refine .conditional (by rw [hkind]) (fun _ => ?_) fun _ => keeps_throw _
    refine .both (keeps_fields hr line line' format) fun trees trees' htrees => ?_
    exact .pure (by simp [hvalue, htrees]) id

end

/-- One more of neighbouring strings, if one comes next. -/
def takeString (ts : List Token) : Parser (Option (List Token)) := do
  match ← peek with
  | some t => if t.kind = .string then do skip; return some (ts ++ [t]) else return none
  | none => return none

/-- The string that neighbouring tokens on some line make together. -/
def stringsOf (rules : Rules) (line : Nat) (ts : List Token) : Parser Tree := do
  let literals := ts.map fun t => (StringLiteral.ofToken t.text, t.line)
  if literals.any (·.1.bytes) then
    if literals.all fun l => l.1.bytes && l.1.value?.isSome then
      return .node (.constant .other) line []
    else throw .unexpected
  else if literals.any (·.1.formatted) then
    let parts ← literals.mapM fun (l, line) => do
      if l.formatted then
        match l.fields? with
        | some fs => fields rules line fs
        | none => throw .unexpected
      else if l.value?.isSome then return []
      else throw .unexpected
    return .node .joined line parts.flatten
  else
    match literals.mapM (·.1.value?) with
    | some values => return .node (.constant (.ofLetters values.flatten)) line []
    | none => throw .unexpected

theorem takes_takeString (ts : List Token) :
    Takes (fun t => t.kind = .string) (fun t => ts ++ [t]) (takeString ts) where
  nil := rfl
  cons t us := by
    refine (bind_ok rfl).trans ?_
    by_cases ht : t.kind = .string
    · simp only [List.head?_cons, ht, decide_true, if_true]
      rfl
    · simp only [List.head?_cons, if_neg ht, decide_eq_true_eq]
      rfl

private theorem keeps_takeString {ts ts' : List Token} (h : Alike ts ts') :
    Keeps (fun o => o.isSome = true) true (takeString ts) (takeString ts') := by
  refine (takes_takeString ts).keeps (takes_takeString ts') (fun t u ht => ?_)
    (fun t u ht => h.push ht) fun t ht => ?_
  · rw [(alike_token_iff.mp ht).1]
  · obtain hkind | ⟨hkind, -⟩ := ht <;> rw [hkind] <;> rfl

private theorem strings_cons {t : Token} (ht : t.kind = .string) (ts : List Token) :
    strings rules (t :: ts) = (loop [t] takeString >>= stringsOf rules t.line) ts := by
  have hfirst : takeString [] (t :: ts) = .ok (some [t], ts) := by
    rw [(takes_takeString []).cons, if_pos (by simp [ht])]
    rfl
  have hloop : loop [] takeString (t :: ts) = loop [t] takeString ts :=
    (bind_ok rfl).trans (bind_ok hfirst)
  have hstrings : strings rules (t :: ts) =
      (loop [] takeString >>= stringsOf rules t.line) (t :: ts) := bind_ok rfl
  rw [hstrings]
  simp only [bind, StateT.bind, hloop]

private theorem keeps_mapM {α β : Type} [Unplace α] [Unplace β] {f f' : α → Parser β}
    (hf : ∀ a a', Alike a a' → Keeps (fun _ => False) e (f a) (f' a')) {as as' : List α}
    (h : Alike as as') : Keeps (fun _ => False) e (as.mapM f) (as'.mapM f') := by
  induction as generalizing as' with
  | nil =>
    obtain rfl := h.nil_iff.mp rfl
    exact .pure rfl id
  | cons a as ih =>
    obtain _ | ⟨a', as'⟩ := as'
    · exact absurd h alike_cons_nil
    obtain ⟨ha, has⟩ := alike_cons_iff.mp h
    rw [List.mapM_cons, List.mapM_cons]
    refine .both (hf a a' ha) fun b b' hb => .both (ih has) fun bs bs' hbs => .pure ?_ id
    exact alike_cons_iff.mpr ⟨hb, hbs⟩

private theorem keeps_stringsOf (hr : KeepAll rules rules') (line line' : Nat) {ts ts' : List Token}
    (h : Alike ts ts') :
    Keeps (fun _ => False) e (stringsOf rules line ts) (stringsOf rules' line' ts') := by
  have hliterals : Alike (ts.map fun t => (StringLiteral.ofToken t.text, t.line))
      (ts'.map fun t => (StringLiteral.ofToken t.text, t.line)) :=
    h.map fun t u htu => by simp [(alike_token_iff.mp htu).2]
  unfold stringsOf
  dsimp only
  generalize ts.map _ = literals at hliterals ⊢
  generalize ts'.map _ = literals' at hliterals ⊢
  have hfst : ∀ a b : StringLiteral × Nat, Alike a b → a.1 = b.1 := fun a b hab =>
    (alike_pair_iff.mp hab).1
  refine .conditional ?_
    (fun _ => .conditional ?_ (fun _ => .pure (by simp) id) fun _ => keeps_throw _) fun _ => .conditional ?_ (fun _ => ?_) fun _ => ?_
  · rw [hliterals.any_eq fun a b hab => by rw [hfst a b hab]]
  · rw [hliterals.all_eq fun a b hab => by rw [hfst a b hab]]
  · rw [hliterals.any_eq fun a b hab => by rw [hfst a b hab]]
  · refine .both (L := fun _ => False) (keeps_mapM (fun x x' hx => ?_) hliterals)
      fun parts parts' hparts => .pure (by simpa using hparts.flatten) id
    obtain ⟨l, start⟩ := x
    obtain ⟨l', start'⟩ := x'
    obtain rfl : l = l' := hfst _ _ hx
    refine .conditional Iff.rfl (fun _ => ?_) fun _ =>
      .conditional Iff.rfl (fun _ => .pure rfl id) fun _ => keeps_throw _
    cases l.fields? with
    | none => exact keeps_throw _
    | some fs => exact keeps_fields hr start start' fs
  · rw [hliterals.mapM_eq fun a b hab => by rw [hfst a b hab]]
    cases literals'.mapM (·.1.value?) with
    | none => exact keeps_throw _
    | some values => exact .pure (by simp) id

/-! ### Atoms -/

/-- What is made of the rest of the tokens behind the first one of an atom. -/
def atomRest (rules : Rules) (t : Token) : Parser Tree :=
  match t.kind with
  | .number => number t
  | .string => loop [t] takeString >>= stringsOf rules t.line
  | .name =>
    if isName t then return .node (.name t.identifier) t.line []
    else if t.text = "None".toList then return .node (.constant .none) t.line []
    else if t.text = "True".toList then return .node (.constant (.bool true)) t.line []
    else if t.text = "False".toList then return .node (.constant (.bool false)) t.line []
    else refuse
  | .operator =>
    if t.text = ['('] then parenthesised rules t.line
    else if t.text = ['['] then bracketed rules t.line
    else if t.text = ['\x7b'] then braced rules t.line
    else if t.text = "...".toList then return .node (.constant .other) t.line []
    else refuse
  | _ => refuse

theorem atom_cons_iff {t : Token} {ts r : List Token} {v : Tree} :
    atom rules (t :: ts) = .ok (v, r) ↔ atomRest rules t ts = .ok (v, r) := by
  have hrefuse : ∀ us : List Token, (refuse us : Except Refusal (Tree × List Token)) = .ok (v, r) ↔
      (refuse ts : Except Refusal (Tree × List Token)) = .ok (v, r) := fun us =>
    iff_of_false (refuse_ne_ok us v r) (refuse_ne_ok ts v r)
  obtain ⟨kind, text, line, column⟩ := t
  cases kind with
  | number => exact Iff.rfl
  | string =>
    have ht : (⟨.string, text, line, column⟩ : Token).kind = .string := rfl
    exact ⟨fun h => (strings_cons ht ts).symm.trans h, fun h => (strings_cons ht ts).trans h⟩
  | name =>
    refine (iff_of_eq (congrArg (· = _) (bind_ok rfl))).trans ?_
    simp only [List.head?_cons, atomRest]
    split
    · exact Iff.rfl
    split
    · exact Iff.rfl
    split
    · exact Iff.rfl
    split
    · exact Iff.rfl
    · exact hrefuse _
  | operator =>
    refine (iff_of_eq (congrArg (· = _) (bind_ok rfl))).trans ?_
    simp only [List.head?_cons, atomRest]
    split
    · exact Iff.rfl
    split
    · exact Iff.rfl
    split
    · exact Iff.rfl
    split
    · exact Iff.rfl
    · exact hrefuse _
  | _ => exact iff_of_false (refuse_ne_ok (_ :: ts) v r) (refuse_ne_ok ts v r)

private theorem keeps_atom (hr : KeepAll rules rules') :
    Keeps (fun _ => True) true (atom rules) (atom rules') := by
  refine .headed (atomRest rules) (atomRest rules') nofun ?_ (fun _ _ _ _ => atom_cons_iff)
    (fun _ _ _ _ => atom_cons_iff) fun t t' ht => ?_
  · intro t ts v r ht
    rw [ne_eq, atom_cons_iff]
    obtain ⟨kind, text, line, column⟩ := t
    obtain rfl | ⟨rfl, rfl | rfl | rfl⟩ := ht <;> exact refuse_ne_ok _ _ _
  · obtain ⟨kind, text, line, column⟩ := t
    obtain ⟨kind', text', line', column'⟩ := t'
    obtain ⟨rfl, rfl⟩ := alike_token_iff.mp ht
    cases kind with
    | number => exact keeps_number ht
    | string =>
      have hfirst : Alike [(⟨.string, text, line, column⟩ : Token)]
          [⟨.string, text, line', column'⟩] :=
        alike_cons_iff.mpr ⟨ht, rfl⟩
      exact .both (.loop (fun us us' hus => keeps_takeString hus) hfirst) fun us us' hus =>
        keeps_stringsOf hr line line' hus
    | name =>
      refine .conditional (by rw [isName_eq_of_alike ht]) (fun _ => .pure ?_ id) fun _ =>
        .conditional Iff.rfl (fun _ => .pure (by simp) id) fun _ =>
        .conditional Iff.rfl (fun _ => .pure (by simp) id) fun _ =>
        .conditional Iff.rfl (fun _ => .pure (by simp) id) fun _ => keeps_refuse
      simp [Token.identifier]
    | operator =>
      exact .conditional Iff.rfl (fun _ => (keeps_parenthesised hr line line').weaken (by simp) id)
        fun _ => .conditional Iff.rfl (fun _ => (keeps_bracketed hr line line').weaken (by simp) id)
        fun _ => .conditional Iff.rfl (fun _ => (keeps_braced hr line line').weaken (by simp) id)
        fun _ => .conditional Iff.rfl (fun _ => .pure (by simp) id) fun _ => keeps_refuse
    | _ => exact keeps_refuse

/-! ### All rules -/

private theorem keeps_rule (hr : KeepAll rules rules') : KeepAll (rule rules) (rule rules') := by
  intro g
  cases g with
  | named => exact keeps_named hr
  | expression => exact keeps_expression hr
  | disjunction => exact keeps_connected hr (g := .conjunction) rfl "or"
  | conjunction => exact keeps_connected hr (g := .inversion) rfl "and"
  | inversion => exact keeps_inversion hr
  | comparison => exact keeps_comparison hr
  | operation level => exact keeps_operation hr level
  | factor => exact keeps_factor hr
  | primary => exact keeps_primary hr
  | atom => exact keeps_atom hr
  | expressions => exact keeps_expressions hr
  | targets => exact keeps_targets hr
  | yielding => exact keeps_yielding hr

/-- **What stands behind an expression makes no difference to it**, nor where it stands, nor how
much deeper the rules may be nested. -/
theorem keepAll_parse {b b' : Nat} (h : b ≤ b') : KeepAll (parse b) (parse b') := by
  induction b generalizing b' with
  | zero => exact fun _ => keeps_refuse
  | succ b ih =>
    obtain _ | b' := b'
    · exact absurd h (Nat.not_succ_le_zero b)
    · exact keeps_rule (ih (Nat.le_of_succ_le_succ h))

end Expression

end Code

end ServerPages
