import ServerPages.Proofs.Code.Parsing

/-!
# What stands behind an expression

A rule of the grammar takes tokens up to some point, the edge, and no comma, no equals sign, no
closing bracket and no line end beyond it makes a difference to what it takes and what it makes of
it, unless a bracket is open that was opened before. Nor does it matter where the tokens stand: what
is made of them is the same but for the numbers of lines (`Alike`).

The module says this of a parser (`Parser.Keeps`) and shows how it carries over from the parts of a
parser to the whole.
-/

namespace ServerPages

namespace Code

/-! ### Values without their places -/

/-- Values that may tell where they stand in a program. -/
class Unplace (α : Type) where
  /-- The value without its places. -/
  unplaced : α → α

export Unplace (unplaced)

/-- Values that differ at most in where they stand. -/
def Alike {α : Type} [Unplace α] (a b : α) : Prop := unplaced a = unplaced b

namespace Tree

mutual

/-- A tree without the numbers of lines. -/
def withoutLines : Tree → Tree
  | node s _ ps => node s 0 (withoutLinesAll ps)

/-- Trees without the numbers of lines. -/
def withoutLinesAll : List Tree → List Tree
  | [] => []
  | t :: ts => withoutLines t :: withoutLinesAll ts

end

private theorem withoutLinesAll_eq_map (ts : List Tree) : withoutLinesAll ts = ts.map withoutLines := by
  induction ts with
  | nil => rfl
  | cons t ts ih => rw [withoutLinesAll, ih, List.map_cons]

mutual

/-- Whether two trees are the same, node by node. -/
def decEq : (t u : Tree) → Decidable (t = u)
  | node s l ts, node s' l' us =>
    have := decEqAll ts us
    decidable_of_iff (s = s' ∧ l = l' ∧ ts = us) (by rw [node.injEq])

/-- Whether two lists of trees are the same, tree by tree. -/
def decEqAll : (ts us : List Tree) → Decidable (ts = us)
  | [], [] => .isTrue rfl
  | [], _ :: _ | _ :: _, [] => .isFalse nofun
  | t :: ts, u :: us =>
    have := decEq t u
    have := decEqAll ts us
    decidable_of_iff (t = u ∧ ts = us) (by rw [List.cons.injEq])

end

instance : DecidableEq Tree := decEq
end Tree

instance : Unplace Tree := ⟨Tree.withoutLines⟩

instance : Unplace Token := ⟨fun t => { t with line := 0, column := 0 }⟩

/-- A number is that of a line. -/
instance : Unplace Nat := ⟨fun _ => 0⟩

instance : Unplace Bool := ⟨id⟩

instance : Unplace Unit := ⟨id⟩

instance : Unplace Text := ⟨id⟩

instance {α : Type} [Unplace α] : Unplace (List α) := ⟨List.map unplaced⟩

instance {α : Type} [Unplace α] : Unplace (Option α) := ⟨Option.map unplaced⟩

instance {α β : Type} [Unplace α] [Unplace β] : Unplace (α × β) := ⟨Prod.map unplaced unplaced⟩

instance {α : Type} [Unplace α] [DecidableEq α] (a b : α) : Decidable (Alike a b) :=
  inferInstanceAs (Decidable (unplaced a = unplaced b))

namespace Alike

variable {α β : Type} [Unplace α] [Unplace β] {a b c : α}

@[simp, refl]
theorem refl (a : α) : Alike a a := rfl

@[symm]
theorem symm (h : Alike a b) : Alike b a := Eq.symm h

theorem trans (h : Alike a b) (h' : Alike b c) : Alike a c := Eq.trans h h'

end Alike

section

variable {α β : Type} [Unplace α] [Unplace β] {a a' : α} {b b' : β} {as bs as' bs' : List α}

@[simp]
theorem alike_nat (m n : Nat) : Alike m n := rfl

@[simp]
theorem alike_unit (u v : Unit) : Alike u v := rfl

@[simp]
theorem alike_bool_iff {a b : Bool} : Alike a b ↔ a = b := Iff.rfl

@[simp]
theorem alike_text_iff {a b : Text} : Alike a b ↔ a = b := Iff.rfl

@[simp]
theorem alike_pair_iff : Alike (a, b) (a', b') ↔ Alike a a' ∧ Alike b b' := Prod.mk.injEq .. ▸ Iff.rfl

@[simp]
theorem alike_some_iff : Alike (some a) (some a') ↔ Alike a a' := by
  simp [Alike, unplaced]

@[simp]
theorem alike_none_some : ¬ Alike none (some a) := by
  simp [Alike, unplaced]

@[simp]
theorem alike_some_none : ¬ Alike (some a) none := by
  simp [Alike, unplaced]

@[simp]
theorem alike_nil_cons : ¬ Alike [] (a :: as) := by
  simp [Alike, unplaced]

@[simp]
theorem alike_cons_nil : ¬ Alike (a :: as) [] := by
  simp [Alike, unplaced]

@[simp]
theorem alike_cons_iff : Alike (a :: as) (a' :: as') ↔ Alike a a' ∧ Alike as as' := by
  simp [Alike, unplaced]

/-- Lists that differ in places only are both empty, or both go on with what differs in places
only. -/
theorem Alike.list_cases (h : Alike as bs) :
    as = [] ∧ bs = [] ∨ ∃ a as' b bs', as = a :: as' ∧ bs = b :: bs' ∧ Alike a b ∧ Alike as' bs' := by
  cases as with
  | nil =>
    cases bs with
    | nil => exact .inl ⟨rfl, rfl⟩
    | cons b bs => exact absurd h alike_nil_cons
  | cons a as =>
    cases bs with
    | nil => exact absurd h alike_cons_nil
    | cons b bs => exact .inr ⟨a, as, b, bs, rfl, rfl, alike_cons_iff.mp h⟩

theorem Alike.append (h : Alike as as') (h' : Alike bs bs') : Alike (as ++ bs) (as' ++ bs') := by
  simp only [Alike, unplaced, List.map_append] at h h' ⊢
  rw [h, h']

/-- Lists with the same end are alike before it if they are alike with it. -/
theorem Alike.of_append (h : Alike (as ++ cs) (bs ++ cs)) : Alike as bs := by
  simp only [Alike, unplaced, List.map_append] at h ⊢
  exact List.append_cancel_right h

theorem Alike.exists_cons (h : Alike (a :: as) bs) :
    ∃ b bs', bs = b :: bs' ∧ Alike a b ∧ Alike as bs' := by
  obtain ⟨hnil, -⟩ | ⟨a', as', b, bs', heq, rfl, hab, hrest⟩ := h.list_cases
  · cases hnil
  · obtain ⟨rfl, rfl⟩ := List.cons.inj heq
    exact ⟨b, bs', rfl, hab, hrest⟩

theorem Alike.exists_append (h : Alike (as ++ bs) as') :
    ∃ cs ds, as' = cs ++ ds ∧ Alike as cs ∧ Alike bs ds := by
  induction as generalizing as' with
  | nil => exact ⟨[], as', rfl, rfl, h⟩
  | cons a as ih =>
    obtain ⟨b, bs', rfl, hab, hrest⟩ := h.exists_cons
    obtain ⟨cs, ds, rfl, hcs, hds⟩ := ih hrest
    exact ⟨b :: cs, ds, rfl, alike_cons_iff.mpr ⟨hab, hcs⟩, hds⟩

theorem Alike.length_eq (h : Alike as as') : as.length = as'.length := by
  simpa [unplaced] using congrArg List.length h

/-- Lists that differ in places only are both empty or neither. -/
theorem Alike.nil_iff (h : Alike as bs) : as = [] ↔ bs = [] := by
  obtain ⟨rfl, rfl⟩ | ⟨a, as, b, bs, rfl, rfl, -⟩ := h.list_cases <;> simp

theorem Alike.map_eq {γ : Type} {f : α → γ} (hf : ∀ a b, Alike a b → f a = f b)
    (h : Alike as bs) : as.map f = bs.map f := by
  induction as generalizing bs with
  | nil =>
    obtain rfl := h.nil_iff.mp rfl
    rfl
  | cons a as ih =>
    obtain _ | ⟨b, bs⟩ := bs
    · exact absurd h alike_cons_nil
    obtain ⟨hab, hrest⟩ := alike_cons_iff.mp h
    rw [List.map_cons, List.map_cons, hf a b hab, ih hrest]

theorem Alike.all_eq {f : α → Bool} (hf : ∀ a b, Alike a b → f a = f b) (h : Alike as bs) :
    as.all f = bs.all f := by
  simpa [List.all_map] using congrArg (List.all · id) (h.map_eq hf)

theorem Alike.any_eq {f : α → Bool} (hf : ∀ a b, Alike a b → f a = f b) (h : Alike as bs) :
    as.any f = bs.any f := by
  simpa [List.any_map] using congrArg (List.any · id) (h.map_eq hf)

theorem Alike.mapM_eq {γ : Type} {f : α → Option γ} (hf : ∀ a b, Alike a b → f a = f b)
    (h : Alike as bs) : as.mapM f = bs.mapM f := by
  induction as generalizing bs with
  | nil =>
    obtain rfl := h.nil_iff.mp rfl
    rfl
  | cons a as ih =>
    obtain _ | ⟨b, bs⟩ := bs
    · exact absurd h alike_cons_nil
    obtain ⟨hab, hrest⟩ := alike_cons_iff.mp h
    rw [List.mapM_cons, List.mapM_cons, hf a b hab, ih hrest]

/-- Both are there or neither. -/
theorem Alike.option_cases {o o' : Option α} (h : Alike o o') :
    o = none ∧ o' = none ∨ ∃ a a', o = some a ∧ o' = some a' ∧ Alike a a' := by
  cases o with
  | none =>
    cases o' with
    | none => exact .inl ⟨rfl, rfl⟩
    | some a' => exact absurd h alike_none_some
  | some a =>
    cases o' with
    | none => exact absurd h alike_some_none
    | some a' => exact .inr ⟨a, a', rfl, rfl, alike_some_iff.mp h⟩

theorem Alike.filterMap {f : α → Option β} (hf : ∀ a b, Alike a b → Alike (f a) (f b))
    (h : Alike as bs) : Alike (as.filterMap f) (bs.filterMap f) := by
  induction as generalizing bs with
  | nil =>
    obtain rfl := h.nil_iff.mp rfl
    rfl
  | cons a as ih =>
    obtain _ | ⟨b, bs⟩ := bs
    · exact absurd h alike_cons_nil
    obtain ⟨hab, hrest⟩ := alike_cons_iff.mp h
    obtain ⟨ha, hb⟩ | ⟨v, v', ha, hb, hv⟩ := (hf a b hab).option_cases
    · rw [List.filterMap_cons_none ha, List.filterMap_cons_none hb]
      exact ih hrest
    · rw [List.filterMap_cons_some ha, List.filterMap_cons_some hb]
      exact alike_cons_iff.mpr ⟨hv, ih hrest⟩

theorem Alike.map {f : α → β} (hf : ∀ a b, Alike a b → Alike (f a) (f b)) (h : Alike as bs) :
    Alike (as.map f) (bs.map f) := by
  rw [← List.filterMap_eq_map]
  exact h.filterMap fun a b hab => alike_some_iff.mpr (hf a b hab)

theorem Alike.filter {f : α → Bool} (hf : ∀ a b, Alike a b → f a = f b) (h : Alike as bs) :
    Alike (as.filter f) (bs.filter f) := by
  rw [← List.filterMap_eq_filter]
  refine h.filterMap fun a b hab => ?_
  rw [Option.guard, Option.guard, hf a b hab]
  split
  · exact alike_some_iff.mpr hab
  · rfl

theorem Alike.flatten {as bs : List (List α)} (h : Alike as bs) : Alike as.flatten bs.flatten := by
  induction as generalizing bs with
  | nil =>
    obtain rfl := h.nil_iff.mp rfl
    rfl
  | cons a as ih =>
    obtain _ | ⟨b, bs⟩ := bs
    · exact absurd h alike_cons_nil
    obtain ⟨hab, hrest⟩ := alike_cons_iff.mp h
    exact hab.append (ih hrest)

theorem Alike.isSome_eq {o o' : Option α} (h : Alike o o') : o.isSome = o'.isSome := by
  obtain ⟨rfl, rfl⟩ | ⟨a, a', rfl, rfl, -⟩ := h.option_cases <;> rfl

theorem Alike.toList {o o' : Option α} (h : Alike o o') : Alike o.toList o'.toList := by
  obtain ⟨rfl, rfl⟩ | ⟨a, a', rfl, rfl, h⟩ := h.option_cases
  · rfl
  · simpa using h

theorem Alike.push (h : Alike as bs) (hab : Alike a a') : Alike (as ++ [a]) (bs ++ [a']) :=
  h.append (by simpa using hab)

@[simp]
theorem alike_node_iff {s s' : Shape} {l l' : Nat} {ps ps' : List Tree} :
    Alike (Tree.node s l ps) (Tree.node s' l' ps') ↔ s = s' ∧ Alike ps ps' := by
  simp [Alike, unplaced, Tree.withoutLines, Tree.withoutLinesAll_eq_map]

theorem shape_of_alike {t u : Tree} (h : Alike t u) : t.shape = u.shape := by
  obtain ⟨s, l, ps⟩ := t
  obtain ⟨s', l', ps'⟩ := u
  exact (alike_node_iff.mp h).1

@[simp]
theorem alike_texts_iff {ss us : List Text} : Alike ss us ↔ ss = us := by
  simp [Alike, unplaced]

theorem alike_token_iff {t u : Token} : Alike t u ↔ t.kind = u.kind ∧ t.text = u.text := by
  obtain ⟨kind, text, line, column⟩ := t
  obtain ⟨kind', text', line', column'⟩ := u
  simp [Alike, unplaced]

end

/-! ### Parsers that keep to their tokens -/

/-- A token that may stand behind an expression without a bracket open: a comma, an equals sign, a
closing bracket or the end of a line. -/
def Token.IsEdge (t : Token) : Prop :=
  t.kind = .newline ∨ t.kind = .operator ∧ (t.text = [','] ∨ t.text = ['='] ∨ t.text = [')'])

theorem Token.EndsOperand.isEdge {t : Token} (h : t.EndsOperand) : t.IsEdge :=
  h.imp_right fun h => h.imp_right fun h => h.imp_right Or.inr

/-- What may stand behind an expression without a bracket open. -/
def AtEdge (ts : List Token) : Prop := ∀ t ∈ ts.head?, t.IsEdge

theorem atEdge_nil : AtEdge [] := by simp [AtEdge]

theorem atEdge_cons {t : Token} (h : t.IsEdge) (ts : List Token) : AtEdge (t :: ts) := by
  rintro u ⟨⟩
  exact h

namespace Parser

variable {α β : Type} [Unplace α] [Unplace β] {p p' : Parser α} {f f' : α → Parser β}
  {M L : α → Prop} {N : β → Prop} {e i j : Bool} {a a' v : α} {s r : List Token}

/-- What a parser makes of tokens before an edge, another one makes of tokens that differ from them
at most in where they stand, before any edge: either the tokens that are left begin before the edge,
or it is enough that they are not beyond it. What is left is always an end of the tokens, and where
the value satisfies `M`, some have been taken. -/
structure Keeps (M : α → Prop) (e : Bool) (p p' : Parser α) : Prop where
  suffix {s r : List Token} {v : α} : p s = .ok (v, r) → r <:+ s
  moves {s r : List Token} {v : α} : p s = .ok (v, r) → M v → r ≠ s
  same {s s' b b' r : List Token} {v : α} : Alike s s' → AtEdge b → AtEdge b' →
    e = true ∨ r ≠ [] → p (s ++ b) = .ok (v, r ++ b) →
      ∃ v' r', p' (s' ++ b') = .ok (v', r' ++ b') ∧ Alike v v' ∧ Alike r r'

theorem exists_of_bind {α β : Type} {p : Parser α} {f : α → Parser β} {s r : List Token} {w : β}
    (h : (p >>= f) s = .ok (w, r)) : ∃ a t, p s = .ok (a, t) ∧ f a t = .ok (w, r) := by
  cases hp : p s with
  | error e => cases (bind_error hp).symm.trans h
  | ok r =>
    obtain ⟨a, t⟩ := r
    exact ⟨a, t, rfl, (bind_ok hp).symm.trans h⟩

namespace Keeps

theorem weaken {e' : Bool} {M' : α → Prop} (h : Keeps M e p p') (hM : ∀ v, M' v → M v)
    (he : e' = true → e = true) : Keeps M' e' p p' where
  suffix := h.suffix
  moves hp hv := h.moves hp (hM _ hv)
  same hs hb hb' hr := h.same hs hb hb' (hr.imp_left he)

/-- A parser that moves leaves fewer tokens. -/
theorem length_lt (h : Keeps M e p p') (hp : p s = .ok (v, r)) (hv : M v) :
    r.length < s.length :=
  Nat.lt_of_le_of_ne (h.suffix hp).length_le fun heq =>
    h.moves hp hv ((h.suffix hp).eq_of_length heq)

theorem of_error (h : ∀ s v r, p s ≠ .ok (v, r)) : Keeps M e p p' where
  suffix hp := absurd hp (h _ _ _)
  moves hp := absurd hp (h _ _ _)
  same _ _ _ _ hp := absurd hp (h _ _ _)

theorem pure (h : Alike a a') (hM : ¬ M a) :
    Keeps M e (Pure.pure a : Parser α) (Pure.pure a') where
  suffix hp := by
    obtain ⟨-, rfl⟩ := Prod.mk.inj (Except.ok.inj hp)
    exact List.suffix_rfl
  moves hp hv := by
    obtain ⟨rfl, -⟩ := Prod.mk.inj (Except.ok.inj hp)
    exact absurd hv hM
  same {s s' b b' r v} hs hb hb' _ hp := by
    obtain ⟨rfl, hr⟩ := Prod.mk.inj (Except.ok.inj hp)
    obtain rfl := List.append_cancel_right hr
    exact ⟨a', s', rfl, h, hs⟩

/-- One parser after the other. Where the first may go wrong at the edge itself, the second has to
take some tokens. -/
theorem sequence (K : α → β → Prop) (hp : Keeps L i p p')
    (hf : ∀ a a', Alike a a' → Keeps (K a) j (f a) (f' a'))
    (hN : ∀ a w, N w → L a ∨ K a w)
    (he : e = true → j = true ∧ (i = true ∨ ∀ a w, K a w)) :
    Keeps N e (p >>= f) (p' >>= f') where
  suffix h := by
    obtain ⟨a, t, ha, hw⟩ := exists_of_bind h
    exact ((hf a a (.refl a)).suffix hw).trans (hp.suffix ha)
  moves {s r w} h hw' := by
    obtain ⟨a, t, ha, hw⟩ := exists_of_bind h
    have hts := hp.suffix ha
    have hrt := (hf a a (.refl a)).suffix hw
    rintro rfl
    have hts' : t = r := hts.eq_of_length (Nat.le_antisymm hts.length_le hrt.length_le)
    subst hts'
    exact (hN a w hw').elim (fun h => hp.moves ha h rfl) fun h =>
      (hf a a (.refl a)).moves hw h rfl
  same {s s' b b' r w} hs hb hb' hr h := by
    obtain ⟨a, t, ha, hw⟩ := exists_of_bind h
    obtain ⟨c, rfl⟩ := (hf a a (.refl a)).suffix hw
    rw [← List.append_assoc] at ha hw
    have hmid : i = true ∨ c ++ r ≠ [] := by
      rcases hr with htrue | hr
      · obtain ⟨-, h₁ | hmoves⟩ := he htrue
        · exact .inl h₁
        · refine .inr fun hnil => ?_
          obtain ⟨rfl, rfl⟩ := List.append_eq_nil_iff.mp hnil
          exact (hf a a (.refl a)).moves hw (hmoves a w) rfl
      · exact .inr fun hnil => hr (List.append_eq_nil_iff.mp hnil).2
    obtain ⟨a', r', ha', haa', hr'⟩ := hp.same hs hb hb' hmid ha
    have hlast : j = true ∨ r ≠ [] := hr.imp_left fun htrue => (he htrue).1
    obtain ⟨w', r'', hw', hww', hr''⟩ := (hf a a' haa').same hr' hb hb' hlast hw
    exact ⟨w', r'', (bind_ok ha').trans hw', hww', hr''⟩

theorem bind (hp : Keeps L true p p')
    (hf : ∀ a a', Alike a a' → Keeps N e (f a) (f' a')) : Keeps N e (p >>= f) (p' >>= f') :=
  hp.sequence (fun _ => N) hf (fun _ _ => .inr) fun he => ⟨he, .inl rfl⟩

theorem both (hp : Keeps L e p p') (hf : ∀ a a', Alike a a' → Keeps N e (f a) (f' a')) :
    Keeps N e (p >>= f) (p' >>= f') :=
  hp.sequence (fun _ => N) hf (fun _ _ => .inr) fun he => ⟨he, .inl he⟩

/-- The first parser has taken some tokens. -/
theorem moved (hp : Keeps (fun _ => True) true p p')
    (hf : ∀ a a', Alike a a' → Keeps (fun _ => False) e (f a) (f' a')) :
    Keeps N e (p >>= f) (p' >>= f') :=
  hp.sequence _ hf (fun _ _ _ => .inl trivial) fun he => ⟨he, .inl rfl⟩

/-- The second parser takes some tokens, so that the first stops before the edge. -/
theorem inside (hp : Keeps L i p p')
    (hf : ∀ a a', Alike a a' → Keeps (fun _ => True) e (f a) (f' a')) :
    Keeps N e (p >>= f) (p' >>= f') :=
  hp.sequence _ hf (fun _ _ _ => .inr trivial) fun he => ⟨he, .inr fun _ _ => trivial⟩

theorem within (hp : Keeps L i p p')
    (hf : ∀ a a', Alike a a' → Keeps N false (f a) (f' a')) : Keeps N false (p >>= f) (p' >>= f') :=
  hp.sequence (fun _ => N) hf (fun _ _ => .inr) (by simp)

theorem moved_within (hp : Keeps (fun _ => True) i p p')
    (hf : ∀ a a', Alike a a' → Keeps (fun _ => False) false (f a) (f' a')) :
    Keeps N false (p >>= f) (p' >>= f') :=
  hp.sequence _ hf (fun _ _ _ => .inl trivial) (by simp)

end Keeps

/-! ### Loops -/

section

variable {step step' : α → Parser (Option α)}
  (hstep : ∀ a a', Alike a a' → Keeps (fun o => o.isSome = true) e (step a) (step' a'))

include hstep

private theorem iterate_suffix {n : Nat} (h : iterate step n a s = .ok (v, r)) : r <:+ s := by
  induction n generalizing a s with
  | zero =>
    obtain ⟨-, rfl⟩ := Prod.mk.inj (Except.ok.inj h)
    exact List.suffix_rfl
  | succ n ih =>
    obtain ⟨o, t, ho, hrest⟩ := exists_of_bind h
    refine List.IsSuffix.trans ?_ ((hstep a a (.refl a)).suffix ho)
    cases o with
    | none =>
      obtain ⟨-, rfl⟩ := Prod.mk.inj (Except.ok.inj hrest)
      exact List.suffix_rfl
    | some b => exact ih hrest

/-- Where each step that goes on takes tokens, the bound for the steps makes no difference. -/
theorem iterate_same {n n' : Nat} {s' b b' : List Token} (ha : Alike a a') (hs : Alike s s')
    (hb : AtEdge b) (hb' : AtEdge b') (hn : s.length < n) (hn' : s.length < n')
    (hr : e = true ∨ r ≠ []) (h : iterate step n a (s ++ b) = .ok (v, r ++ b)) :
    ∃ v' r', iterate step' n' a' (s' ++ b') = .ok (v', r' ++ b') ∧ Alike v v' ∧ Alike r r' := by
  induction n generalizing n' a a' s s' with
  | zero => exact absurd hn (Nat.not_lt_zero _)
  | succ n ih =>
    obtain _ | n' := n'
    · exact absurd hn' (Nat.not_lt_zero _)
    obtain ⟨o, t, ho, hrest⟩ := exists_of_bind h
    have hkeeps := hstep a a' ha
    cases o with
    | none =>
      obtain ⟨rfl, rfl⟩ := Prod.mk.inj (Except.ok.inj hrest)
      obtain ⟨o', r', ho', hoo', hr'⟩ := hkeeps.same hs hb hb' hr ho
      cases o' with
      | none => exact ⟨a', r', bind_ok ho', ha, hr'⟩
      | some b => exact absurd hoo' alike_none_some
    | some c =>
      -- the step took tokens before the edge, so the induction goes on with fewer of them
      obtain ⟨between, rfl⟩ := iterate_suffix hstep hrest
      rw [← List.append_assoc] at ho hrest
      have hlt : (between ++ r).length < s.length := by
        have hlt := hkeeps.length_lt ho rfl
        simp only [List.length_append] at hlt ⊢
        omega
      have hmid : e = true ∨ between ++ r ≠ [] :=
        hr.imp_right fun hr hnil => hr (List.append_eq_nil_iff.mp hnil).2
      obtain ⟨o', t', ho', hoo', ht'⟩ := hkeeps.same hs hb hb' hmid ho
      cases o' with
      | none => exact absurd hoo' alike_some_none
      | some c' =>
        have hcc' : Alike c c' := alike_some_iff.mp hoo'
        have hlt' : (between ++ r).length < n' := by omega
        obtain ⟨v', r', hv', hvv', hrr'⟩ := ih hcc' ht' (by omega) hlt' hrest
        exact ⟨v', r', (bind_ok ho').trans hv', hvv', hrr'⟩

theorem Keeps.loop (ha : Alike a a') :
    Keeps (fun _ => False) e (Parser.loop a step) (Parser.loop a' step') where
  suffix h := iterate_suffix hstep h
  moves _ := False.elim
  same {s s' b b' r v} hs hb hb' hr h := by
    have hn : s.length < (s ++ b).length + 1 := by
      rw [List.length_append]
      omega
    have hn' : s.length < (s' ++ b').length + 1 := by
      rw [List.length_append, hs.length_eq]
      omega
    exact iterate_same hstep ha hs hb hb' hn hn' hr h

end

/-! ### Single tokens -/

/-- A test that looks at the next token only, and holds neither where there is none nor, if `e` says
so, at an edge. -/
structure Sees (e : Bool) (test : Parser Bool) (g : Token → Bool) : Prop where
  nil : test [] = .ok (false, [])
  cons (t : Token) (ts : List Token) : test (t :: ts) = .ok (g t, t :: ts)
  alike {t u : Token} : Alike t u → g t = g u
  edge {t : Token} : e = true → t.IsEdge → g t = false

variable {test : Parser Bool} {g : Token → Bool} {q q' : Bool → Parser β}

theorem Sees.atEdge (h : Sees true test g) {b : List Token} (hb : AtEdge b) :
    test b = .ok (false, b) := by
  cases b with
  | nil => exact h.nil
  | cons t b => rw [h.cons, h.edge rfl (hb t rfl)]

theorem Sees.exists_eq (h : Sees e test g) (s : List Token) : ∃ x, test s = .ok (x, s) := by
  cases s with
  | nil => exact ⟨false, h.nil⟩
  | cons t s => exact ⟨g t, h.cons t s⟩

theorem Sees.keeps (h : Sees e test g) : Keeps (fun _ => False) e test test where
  suffix {s r v} ht := by
    obtain ⟨x, hx⟩ := h.exists_eq s
    obtain ⟨-, rfl⟩ := Prod.mk.inj (Except.ok.inj (hx.symm.trans ht))
    exact List.suffix_rfl
  moves _ := False.elim
  same {s s' b b' r v} hs hb hb' hr ht := by
    obtain ⟨x, hx⟩ := h.exists_eq (s ++ b)
    obtain ⟨-, hrest⟩ := Prod.mk.inj (Except.ok.inj (hx.symm.trans ht))
    obtain rfl := List.append_cancel_right hrest
    cases s with
    | nil =>
      obtain rfl : s' = [] := List.length_eq_zero_iff.mp hs.length_eq.symm
      obtain rfl : e = true := hr.resolve_right fun hne => hne rfl
      have hfalse := h.atEdge hb
      obtain ⟨rfl, -⟩ := Prod.mk.inj (Except.ok.inj (hfalse.symm.trans ht))
      exact ⟨false, [], h.atEdge hb', rfl, rfl⟩
    | cons t s =>
      obtain _ | ⟨t', s'⟩ := s'
      · exact absurd hs alike_cons_nil
      have halike := (alike_cons_iff.mp hs).1
      obtain ⟨rfl, -⟩ := Prod.mk.inj (Except.ok.inj ((h.cons t _).symm.trans ht))
      exact ⟨g t', t' :: s', h.cons t' _, h.alike halike, hs⟩

/-- A token that passes the test is taken; any other stays where it is. -/
theorem Sees.takeIf_cases (h : Sees e test g) (s : List Token) :
    (∃ t ts, s = t :: ts ∧ g t = true ∧ takeIf test s = .ok (true, ts)) ∨
      (∀ t ts, s = t :: ts → g t = false) ∧ takeIf test s = .ok (false, s) := by
  cases s with
  | nil => exact .inr ⟨by simp, (bind_ok h.nil).trans rfl⟩
  | cons t s =>
    have hcons := h.cons t s
    cases hg : g t with
    | true => exact .inl ⟨t, s, rfl, hg, (bind_ok (hg ▸ hcons)).trans rfl⟩
    | false =>
      refine .inr ⟨fun u us heq => ?_, (bind_ok (hg ▸ hcons)).trans rfl⟩
      rw [← (List.cons.inj heq).1, hg]

private theorem Sees.takeIf_of_true (h : Sees e test g) {t : Token} (ht : g t = true) (ts : List Token) :
    takeIf test (t :: ts) = .ok (true, ts) := (bind_ok (ht ▸ h.cons t ts)).trans rfl

theorem Sees.takeIf_of_false (h : Sees e test g) {t : Token} (ht : g t = false) (ts : List Token) :
    takeIf test (t :: ts) = .ok (false, t :: ts) := (bind_ok (ht ▸ h.cons t ts)).trans rfl

private theorem Sees.takeIf_atEdge (h : Sees true test g) {b : List Token} (hb : AtEdge b) :
    takeIf test b = .ok (false, b) := (bind_ok (h.atEdge hb)).trans rfl

/-- What happens behind a token that may be taken: if it is, some tokens have been taken; if not,
some must be, unless the test does not hold at an edge. -/
theorem Keeps.takeIf_bind (h : Sees i test g) {K : β → Prop}
    (htrue : Keeps (fun _ => False) e (q true) (q' true)) (hfalse : Keeps K e (q false) (q' false))
    (hN : ∀ w, N w → K w) (he : e = true → i = true ∨ ∀ w, K w) :
    Keeps N e (takeIf test >>= q) (takeIf test >>= q') where
  suffix {s r w} hw := by
    obtain ⟨t, ts, rfl, -, htake⟩ | ⟨-, htake⟩ := h.takeIf_cases s
    · exact (htrue.suffix ((bind_ok htake).symm.trans hw)).trans (List.suffix_cons t ts)
    · exact hfalse.suffix ((bind_ok htake).symm.trans hw)
  moves {s r w} hw hNw := by
    obtain ⟨t, ts, rfl, -, htake⟩ | ⟨-, htake⟩ := h.takeIf_cases s
    · have hle := (htrue.suffix ((bind_ok htake).symm.trans hw)).length_le
      rintro rfl
      exact absurd hle (by simp)
    · exact hfalse.moves ((bind_ok htake).symm.trans hw) (hN w hNw)
  same {s s' b b' r w} hs hb hb' hr hw := by
    cases s with
    | nil =>
      obtain rfl : s' = [] := List.length_eq_zero_iff.mp hs.length_eq.symm
      obtain ⟨t, ts, rfl, -, htake⟩ | ⟨-, htake⟩ := h.takeIf_cases b
      · -- what stands beyond the edge would have been taken
        have hle := (htrue.suffix ((bind_ok htake).symm.trans hw)).length_le
        simp only [List.length_append, List.length_cons] at hle
        omega
      · have hw := (bind_ok htake).symm.trans hw
        have hle := (hfalse.suffix hw).length_le
        obtain rfl : r = [] := by
          rw [List.length_append] at hle
          exact List.length_eq_zero_iff.mp (by omega)
        obtain rfl : e = true := hr.resolve_right fun hne => hne rfl
        obtain rfl | hmoves := he rfl
        · obtain ⟨w', r', hw', hww', hr'⟩ := hfalse.same hs hb hb' hr hw
          exact ⟨w', r', (bind_ok (h.takeIf_atEdge hb')).trans hw', hww', hr'⟩
        · exact absurd rfl (hfalse.moves hw (hmoves w))
    | cons t s =>
      obtain _ | ⟨t', s'⟩ := s'
      · exact absurd hs alike_cons_nil
      obtain ⟨halike, hs'⟩ := alike_cons_iff.mp hs
      cases hg : g t with
      | true =>
        have hw := (bind_ok (h.takeIf_of_true hg (s ++ b))).symm.trans hw
        obtain ⟨w', r', hw', hww', hr'⟩ := htrue.same hs' hb hb' hr hw
        have hg' : g t' = true := h.alike halike ▸ hg
        exact ⟨w', r', (bind_ok (h.takeIf_of_true hg' (s' ++ b'))).trans hw', hww', hr'⟩
      | false =>
        have hw := (bind_ok (h.takeIf_of_false hg (s ++ b))).symm.trans hw
        obtain ⟨w', r', hw', hww', hr'⟩ := hfalse.same hs hb hb' hr hw
        have hg' : g t' = false := h.alike halike ▸ hg
        exact ⟨w', r', (bind_ok (h.takeIf_of_false hg' (s' ++ b'))).trans hw', hww', hr'⟩

namespace Keeps

theorem choice (h : Sees true test g) (htrue : Keeps (fun _ => False) e (q true) (q' true))
    (hfalse : Keeps N e (q false) (q' false)) :
    Keeps N e (takeIf test >>= q) (takeIf test >>= q') :=
  takeIf_bind h htrue hfalse (fun _ => id) fun _ => .inl rfl

/-- Where the test may hold at an edge, some other tokens have to be taken if it does not. -/
theorem choice_inside (h : Sees i test g) (htrue : Keeps (fun _ => False) e (q true) (q' true))
    (hfalse : Keeps (fun _ => True) e (q false) (q' false)) :
    Keeps N e (takeIf test >>= q) (takeIf test >>= q') :=
  takeIf_bind h htrue hfalse (fun _ _ => trivial) fun _ => .inr fun _ => trivial

theorem choice_within (h : Sees i test g)
    (htrue : Keeps (fun _ => False) false (q true) (q' true))
    (hfalse : Keeps N false (q false) (q' false)) :
    Keeps N false (takeIf test >>= q) (takeIf test >>= q') :=
  takeIf_bind h htrue hfalse (fun _ => id) (by simp)

/-- A parser for which the next token decides, and which refuses what stands at an edge. -/
theorem headed (next next' : Token → Parser α) (hnil : ∀ v r, p [] ≠ .ok (v, r))
    (hedge : ∀ t ts v r, t.IsEdge → p (t :: ts) ≠ .ok (v, r))
    (hp : ∀ t ts v r, p (t :: ts) = .ok (v, r) ↔ next t ts = .ok (v, r))
    (hp' : ∀ t ts v r, p' (t :: ts) = .ok (v, r) ↔ next' t ts = .ok (v, r))
    (hnext : ∀ t t', Alike t t' → Keeps (fun _ => False) e (next t) (next' t')) :
    Keeps M e p p' where
  suffix {s r v} h := by
    cases s with
    | nil => exact absurd h (hnil v r)
    | cons t s =>
      rw [hp t s] at h
      exact ((hnext t t (.refl t)).suffix h).trans (List.suffix_cons t s)
  moves {s r v} h _ := by
    cases s with
    | nil => exact absurd h (hnil v r)
    | cons t s =>
      rw [hp t s] at h
      have hle := ((hnext t t (.refl t)).suffix h).length_le
      rintro rfl
      exact absurd hle (by simp)
  same {s s' b b' r v} hs hb hb' hr h := by
    cases s with
    | nil =>
      cases b with
      | nil => exact absurd h (hnil v _)
      | cons t b => exact absurd h (hedge t b v _ (hb t rfl))
    | cons t s =>
      obtain _ | ⟨t', s'⟩ := s'
      · exact absurd hs alike_cons_nil
      obtain ⟨halike, hs'⟩ := alike_cons_iff.mp hs
      rw [List.cons_append, hp] at h
      obtain ⟨v', r', hv', hvv', hr'⟩ := (hnext t t' halike).same hs' hb hb' hr h
      exact ⟨v', r', (hp' t' _ _ _).mpr hv', hvv', hr'⟩

end Keeps

omit [Unplace α] in
theorem refuse_ne_ok (s : List Token) (v : α) (r : List Token) : refuse s ≠ .ok (v, r) := by
  cases s with
  | nil => exact nofun
  | cons t s => exact nofun

theorem keeps_refuse : Keeps M e (refuse : Parser α) p' := .of_error refuse_ne_ok

omit [Unplace α] [Unplace β] in
theorem refuse_bind_ne_ok {f : β → Parser α} (s : List Token) (v : α) (r : List Token) :
    (refuse >>= f) s ≠ .ok (v, r) := by
  intro h
  obtain ⟨a, t, ha, -⟩ := exists_of_bind h
  exact refuse_ne_ok s a t ha

omit [Unplace β] in
theorem keeps_refuse_bind {f : β → Parser α} : Keeps M e (refuse >>= f) p' :=
  .of_error refuse_bind_ne_ok

theorem keeps_throw (x : Refusal) : Keeps M e (throw x : Parser α) p' := .of_error nofun

theorem sees_operator {op : String} (h : e = true → op ∉ [",", "=", ")"]) :
    Sees e (atOperator op) (·.isOperator op) where
  nil := rfl
  cons _ _ := rfl
  alike h := by
    obtain ⟨hkind, htext⟩ := alike_token_iff.mp h
    rw [Token.isOperator, Token.isOperator, hkind, htext]
  edge {t} he ht := by
    rw [Bool.eq_false_iff]
    intro hop
    obtain ⟨hkind, htext⟩ := Token.eq_of_isOperator hop
    obtain hnewline | ⟨-, hedge⟩ := ht
    · cases hnewline.symm.trans hkind
    · rw [htext] at hedge
      have hmem : op.toList ∈ [",", "=", ")"].map String.toList := by simpa using hedge
      obtain ⟨op', hop', heq⟩ := List.mem_map.mp hmem
      exact h he (String.toList_inj.mp heq ▸ hop')

theorem sees_word (w : String) :
    Sees true (atWord w) (fun t => t.kind = .name && t.text = w.toList) where
  nil := rfl
  cons _ _ := rfl
  alike h := by
    obtain ⟨hkind, htext⟩ := alike_token_iff.mp h
    rw [hkind, htext]
  edge {t} _ ht := by
    obtain hkind | ⟨hkind, -⟩ := ht <;> rw [hkind] <;> rfl

theorem Sees.keeps_takeIf (h : Sees e test g) :
    Keeps (fun b => b = true) e (takeIf test) (takeIf test) := by
  have hkeeps : Keeps (fun b => b = true) e (takeIf test >>= pure) (takeIf test >>= pure) :=
    .takeIf_bind (K := fun b => b = true) h (.pure rfl id) (.pure rfl nofun) (fun _ => id) .inl
  rwa [bind_pure] at hkeeps

theorem keeps_operator (op : String) :
    Keeps (fun _ => True) true (operator op) (operator op) :=
  .choice_inside (sees_operator (e := false) nofun) (.pure rfl id) keeps_refuse

/-- What a closing bracket ends. -/
theorem keeps_closing (op : String) (h : Alike a a') :
    Keeps (fun _ => True) true (operator op >>= fun _ => pure a)
      (operator op >>= fun _ => pure a') :=
  .moved (keeps_operator op) fun _ _ _ => .pure h id

theorem keeps_word (w : String) : Keeps (fun _ => True) true (word w) (word w) :=
  .choice_inside (sees_word w) (.pure rfl id) keeps_refuse

/-- A parser that only looks at the tokens. -/
theorem Keeps.of_look (look : List Token → α) (hp : ∀ s, p s = .ok (look s, s))
    (h : ∀ s s' b b', Alike s s' → AtEdge b → AtEdge b' → e = true ∨ s ≠ [] →
      Alike (look (s ++ b)) (look (s' ++ b'))) : Keeps (fun _ => False) e p p where
  suffix hv := by
    obtain ⟨-, rfl⟩ := Prod.mk.inj (Except.ok.inj ((hp _).symm.trans hv))
    exact List.suffix_rfl
  moves _ := False.elim
  same {s s' b b' r v} hs hb hb' hr hv := by
    obtain ⟨rfl, hrest⟩ := Prod.mk.inj (Except.ok.inj ((hp _).symm.trans hv))
    obtain rfl := List.append_cancel_right hrest
    exact ⟨_, s', hp _, h s s' b b' hs hb hb' hr, hs⟩

theorem keeps_line : Keeps (fun _ => False) true line line :=
  .of_look (fun s => (s.head?.map Token.line).getD 0) (fun s => by cases s <;> rfl)
    fun _ _ _ _ _ _ _ _ => rfl

/-- A parser that takes the next token if that passes a test. -/
structure Takes {γ : Type} (g : Token → Bool) (f : Token → γ) (p : Parser (Option γ)) : Prop where
  nil : p [] = .ok (none, [])
  cons (t : Token) (ts : List Token) :
    p (t :: ts) = if g t then .ok (some (f t), ts) else .ok (none, t :: ts)

theorem Takes.atEdge {γ : Type} {p : Parser (Option γ)} {f : Token → γ} (h : Takes g f p)
    (hedge : ∀ t, t.IsEdge → g t = false) {b : List Token} (hb : AtEdge b) :
    p b = .ok (none, b) := by
  cases b with
  | nil => exact h.nil
  | cons t b => rw [h.cons, if_neg (by simp [hedge t (hb t rfl)])]

theorem Takes.cases {γ : Type} {p : Parser (Option γ)} {f : Token → γ} (h : Takes g f p)
    (s : List Token) :
    (∃ t ts, s = t :: ts ∧ p s = .ok (some (f t), ts)) ∨ p s = .ok (none, s) := by
  cases s with
  | nil => exact .inr h.nil
  | cons t ts =>
    cases hg : g t with
    | true => exact .inl ⟨t, ts, rfl, by rw [h.cons, if_pos hg]⟩
    | false => exact .inr (by rw [h.cons, if_neg (by simp [hg])])

theorem Takes.keeps {γ : Type} [Unplace γ] {p p' : Parser (Option γ)} {f f' : Token → γ}
    (hp : Takes g f p) (hp' : Takes g f' p') (hg : ∀ t u, Alike t u → g t = g u)
    (hf : ∀ t u, Alike t u → Alike (f t) (f' u)) (hedge : ∀ t, t.IsEdge → g t = false) :
    Keeps (fun o => o.isSome = true) true p p' where
  suffix {s r v} h := by
    obtain ⟨t, ts, rfl, hs⟩ | hs := hp.cases s
    · obtain ⟨-, rfl⟩ := Prod.mk.inj (Except.ok.inj (hs.symm.trans h))
      exact List.suffix_cons t ts
    · obtain ⟨-, rfl⟩ := Prod.mk.inj (Except.ok.inj (hs.symm.trans h))
      exact List.suffix_rfl
  moves {s r v} h hv := by
    obtain ⟨t, ts, rfl, hs⟩ | hs := hp.cases s
    · obtain ⟨-, rfl⟩ := Prod.mk.inj (Except.ok.inj (hs.symm.trans h))
      exact (List.cons_ne_self t ts).symm
    · obtain ⟨rfl, -⟩ := Prod.mk.inj (Except.ok.inj (hs.symm.trans h))
      cases hv
  same {s s' b b' r v} hs hb hb' _ h := by
    cases s with
    | nil =>
      obtain rfl : s' = [] := List.length_eq_zero_iff.mp hs.length_eq.symm
      obtain ⟨rfl, hrest⟩ := Prod.mk.inj (Except.ok.inj ((hp.atEdge hedge hb).symm.trans h))
      obtain rfl := List.self_eq_append_left.mp hrest
      exact ⟨none, [], hp'.atEdge hedge hb', .refl _, .refl _⟩
    | cons t s =>
      obtain _ | ⟨t', s'⟩ := s'
      · exact absurd hs alike_cons_nil
      obtain ⟨halike, hs'⟩ := alike_cons_iff.mp hs
      rw [List.cons_append, hp.cons, hg t t' halike] at h
      rw [List.cons_append, hp'.cons]
      split at h
      · next hgt =>
        obtain ⟨rfl, hrest⟩ := Prod.mk.inj (Except.ok.inj h)
        obtain rfl := List.append_cancel_right hrest
        exact ⟨_, s', if_pos hgt, alike_some_iff.mpr (hf t t' halike), hs'⟩
      · next hgt =>
        obtain ⟨rfl, hrest⟩ := Prod.mk.inj (Except.ok.inj h)
        obtain rfl := List.append_cancel_right ((List.cons_append ..).trans hrest)
        exact ⟨none, t' :: s', if_neg hgt, .refl _, hs⟩

/-- A parser for which the next two tokens decide: they are taken if they pass a test. -/
structure Pairs (g : Token → Token → Bool) (p : Parser α) (next : Token → Parser α)
    (other : Parser α) : Prop where
  taken (t u : Token) (ts : List Token) : g t u = true → p (t :: u :: ts) = next t ts
  left (s : List Token) : (∀ t u ts, s = t :: u :: ts → g t u = false) → p s = other s

omit [Unplace α] in
theorem Pairs.cases {g : Token → Token → Bool} {next : Token → Parser α} {other : Parser α}
    (h : Pairs g p next other) (s : List Token) :
    (∃ t u ts, s = t :: u :: ts ∧ g t u = true ∧ p s = next t ts) ∨ p s = other s := by
  by_cases hs : ∃ t u ts, s = t :: u :: ts ∧ g t u = true
  · obtain ⟨t, u, ts, rfl, htu⟩ := hs
    exact .inl ⟨t, u, ts, rfl, htu, h.taken t u ts htu⟩
  · exact .inr (h.left s fun t u ts heq => Bool.eq_false_iff.mpr fun htu => hs ⟨t, u, ts, heq, htu⟩)

section

variable {other other' : Parser α} {next next' : Token → Parser α} {g : Token → Token → Bool}
  {b : List Token}

omit [Unplace α] in
private theorem Pairs.left_cons (h : Pairs g p next other) {t u : Token} (htu : g t u = false)
    (ts : List Token) : p (t :: u :: ts) = other (t :: u :: ts) := by
  refine h.left _ fun x y zs heq => ?_
  obtain ⟨rfl, rest⟩ := List.cons.inj heq
  obtain ⟨rfl, -⟩ := List.cons.inj rest
  exact htu

omit [Unplace α] in
/-- Of the next two tokens one stands at the edge where fewer stand before it. -/
theorem Pairs.left_atEdge (h : Pairs g p next other)
    (hedge : ∀ t u, t.IsEdge ∨ u.IsEdge → g t u = false) (hb : AtEdge b) (hlt : s.length < 2) :
    p (s ++ b) = other (s ++ b) := by
  refine h.left _ fun t u ts heq => ?_
  obtain _ | ⟨x, _ | ⟨y, s⟩⟩ := s
  · obtain rfl : b = t :: u :: ts := heq
    exact hedge t u (.inl (hb t rfl))
  · obtain ⟨rfl, rfl⟩ := List.cons.inj heq
    exact hedge x u (.inr (hb u rfl))
  · exact absurd hlt (by simp)

theorem Pairs.suffix (hp : Pairs g p next other)
    (hnext : ∀ t t', Alike t t' → Keeps (fun _ => False) e (next t) (next' t'))
    (hother : Keeps M e other other') (h : p s = .ok (v, r)) : r <:+ s := by
  obtain ⟨t, u, ts, rfl, -, hs⟩ | hs := hp.cases s
  · have hsuffix := (hnext t t (.refl t)).suffix (hs.symm.trans h)
    exact hsuffix.trans ((List.suffix_cons u ts).trans (List.suffix_cons t _))
  · exact hother.suffix (hs.symm.trans h)

theorem Pairs.moves (hp : Pairs g p next other)
    (hnext : ∀ t t', Alike t t' → Keeps (fun _ => False) e (next t) (next' t'))
    (hother : Keeps M e other other') (h : p s = .ok (v, r)) (hM : M v) : r ≠ s := by
  obtain ⟨t, u, ts, rfl, -, hs⟩ | hs := hp.cases s
  · have hle := ((hnext t t (.refl t)).suffix (hs.symm.trans h)).length_le
    rintro rfl
    simp only [List.length_cons] at hle
    omega
  · exact hother.moves (hs.symm.trans h) hM

/-- Where neither of the two tokens stands at an edge, or the parser stops before the edge. -/
theorem Keeps.paired (hp : Pairs g p next other) (hp' : Pairs g p' next' other')
    (hg : ∀ t u t' u', Alike t t' → Alike u u' → g t u = g t' u')
    (hedge : e = true → ∀ t u, t.IsEdge ∨ u.IsEdge → g t u = false)
    (hinside : e = false → ∀ v, M v)
    (hnext : ∀ t t', Alike t t' → Keeps (fun _ => False) e (next t) (next' t'))
    (hother : Keeps M e other other') : Keeps M e p p' := by
  refine ⟨hp.suffix hnext hother, hp.moves hnext hother, fun {s s' b b' r v} hs hb hb' hr h => ?_⟩
  by_cases hlt : s.length < 2
  -- of the two tokens that are looked at one stands beyond the edge
  · have htrue : e = true := by
      refine hr.elim id fun hne => (Bool.not_eq_false e).mp fun he => hne ?_
      have hsuffix := hp.suffix hnext hother h
      have hle := hsuffix.length_le
      have hlen : (r ++ b).length ≠ (s ++ b).length := fun heq =>
        hp.moves hnext hother h (hinside he v) (hsuffix.eq_of_length heq)
      simp only [List.length_append] at hle hlen
      exact List.length_eq_zero_iff.mp (by omega)
    have hlt' : s'.length < 2 := hs.length_eq ▸ hlt
    rw [hp.left_atEdge (hedge htrue) hb hlt] at h
    rw [hp'.left_atEdge (hedge htrue) hb' hlt']
    exact hother.same hs hb hb' hr h
  obtain ⟨rfl, -⟩ | ⟨t, s, t', s', rfl, rfl, ht, hs⟩ := hs.list_cases
  · simp at hlt
  obtain ⟨rfl, -⟩ | ⟨u, s, u', s', rfl, rfl, hu, hs⟩ := hs.list_cases
  · simp at hlt
  cases htu : g t u with
  | true =>
    obtain ⟨v', r', hv', hvv', hr'⟩ :=
      (hnext t t' ht).same hs hb hb' hr ((hp.taken t u _ htu).symm.trans h)
    exact ⟨v', r', (hp'.taken t' u' _ (hg t u t' u' ht hu ▸ htu)).trans hv', hvv', hr'⟩
  | false =>
    have htu' : g t' u' = false := hg t u t' u' ht hu ▸ htu
    have hpair : Alike (t :: u :: s) (t' :: u' :: s') := by simp [ht, hu, hs]
    obtain ⟨v', r', hv', hvv', hr'⟩ := hother.same hpair hb hb' hr
      ((hp.left_cons htu (s ++ b)).symm.trans h)
    exact ⟨v', r', (hp'.left_cons htu' (s' ++ b')).trans hv', hvv', hr'⟩

end

/-- A parser that takes a token, but refuses where only one is left. -/
def beforeLast (p : Parser α) : Parser α := fun s => if s.length < 2 then refuse s else p s

omit [Unplace α] in
theorem eq_ok_of_beforeLast {s r : List Token} {v : α} (h : beforeLast p s = .ok (v, r)) :
    p s = .ok (v, r) := by
  by_cases hlt : s.length < 2
  · exact absurd ((if_pos hlt).symm.trans h) (refuse_ne_ok s v r)
  · exact (if_neg hlt).symm.trans h

theorem Keeps.beforeLast (h : Keeps (fun _ => True) false p p') :
    Keeps M false (beforeLast p) (beforeLast p') := by
  refine ⟨fun hv => h.suffix (eq_ok_of_beforeLast hv),
    fun hv _ => h.moves (eq_ok_of_beforeLast hv) trivial,
    fun {s s' b b' r v} hs hb hb' hr hv => ?_⟩
  have hv := eq_ok_of_beforeLast hv
  obtain ⟨v', r', hv', hvv', hr'⟩ := h.same hs hb hb' hr hv
  refine ⟨v', r', (if_neg ?_).trans hv', hvv', hr'⟩
  -- a token is left, and one has been taken
  have hpos := List.length_pos_iff.mpr (hr.resolve_left nofun)
  have hlt := h.length_lt hv trivial
  have hlen := hs.length_eq
  simp only [List.length_append] at hlt ⊢
  omega

/-- What happens behind a token that may have been taken. -/
theorem Keeps.option {γ : Type} [Unplace γ] {p p' : Parser (Option γ)}
    {q q' : Option γ → Parser β} (hp : Keeps (fun o => o.isSome = true) true p p')
    (hnone : Keeps N e (q none) (q' none))
    (hsome : ∀ a a', Alike a a' → Keeps (fun _ => False) e (q (some a)) (q' (some a'))) :
    Keeps N e (p >>= q) (p' >>= q') := by
  refine hp.sequence (fun o w => o = none ∧ N w) ?_ ?_ fun he => ⟨he, .inl rfl⟩
  · intro o o' ho
    cases o with
    | none =>
      cases o' with
      | none => exact hnone.weaken (fun _ => And.right) id
      | some a' => exact absurd ho alike_none_some
    | some a =>
      cases o' with
      | none => exact absurd ho alike_some_none
      | some a' => exact (hsome a a' (alike_some_iff.mp ho)).weaken (by simp) id
  · intro o w hw
    cases o with
    | none => exact .inr ⟨rfl, hw⟩
    | some a => exact .inl rfl

omit [Unplace β] in
private theorem test_skip_eq (h : Sees e test g) (x y : Parser β) :
    (test >>= fun b => if b = true then skip >>= fun _ => x else y) =
      takeIf test >>= fun b => if b = true then x else y := by
  funext s
  obtain ⟨t, ts, rfl, hg, htake⟩ | ⟨hg, htake⟩ := h.takeIf_cases s
  · rw [bind_ok htake]
    exact bind_ok (hg ▸ h.cons t ts)
  · rw [bind_ok htake]
    cases s with
    | nil => exact bind_ok h.nil
    | cons t ts => exact bind_ok (hg t ts rfl ▸ h.cons t ts)

/-- A token that is looked at first and taken then. -/
theorem Keeps.of_takeIf (h : Sees i test g) {x x' y y' : Parser β}
    (hxy : Keeps N e (takeIf test >>= fun b => if b = true then x else y)
      (takeIf test >>= fun b => if b = true then x' else y')) :
    Keeps N e (test >>= fun b => if b = true then skip >>= fun _ => x else y)
      (test >>= fun b => if b = true then skip >>= fun _ => x' else y') := by
  rwa [test_skip_eq h, test_skip_eq h]

/-- A test on what has been read. -/
theorem Keeps.conditional {c c' : Prop} [Decidable c] [Decidable c'] {x x' y y' : Parser α}
    (hc : c ↔ c') (hx : c → Keeps M e x x') (hy : ¬c → Keeps M e y y') :
    Keeps M e (if c then x else y) (if c' then x' else y') := by
  by_cases h : c
  · rw [if_pos h, if_pos (hc.mp h)]
    exact hx h
  · rw [if_neg h, if_neg ((not_congr hc).mp h)]
    exact hy h

/-- A token that is looked at, and then taken or refused. -/
theorem Keeps.unless (h : Sees e test g) {c c' : Prop} [Decidable c] [Decidable c']
    {x x' y y' z z' : Parser β} (hc : c ↔ c') (hz : ∀ s v r, z s ≠ .ok (v, r))
    (hx : Keeps (fun _ => False) e x x') (hy : Keeps N e y y') :
    Keeps N e (test >>= fun b => if b = true then if c then z else skip >>= fun _ => x else y)
      (test >>= fun b => if b = true then if c' then z' else skip >>= fun _ => x' else y') := by
  by_cases hr : c
  · simp only [if_pos hr, if_pos (hc.mp hr)]
    refine .both h.keeps fun b b' hb => ?_
    obtain rfl := alike_bool_iff.mp hb
    cases b with
    | true => exact .of_error hz
    | false => exact hy
  · simp only [if_neg hr, if_neg ((not_congr hc).mp hr)]
    exact .of_takeIf h (.takeIf_bind h hx hy (fun _ => id) .inl)

theorem isName_eq_of_alike {t u : Token} (h : Alike t u) : isName t = isName u := by
  obtain ⟨hkind, htext⟩ := alike_token_iff.mp h
  rw [isName, isName, hkind, htext]

theorem isName_of_isEdge {t : Token} (h : t.IsEdge) : isName t = false := by
  obtain hkind | ⟨hkind, -⟩ := h <;> rw [isName, hkind] <;> rfl

private theorem name_cons_iff {t : Token} {ts r : List Token} {v : Text} :
    name (t :: ts) = .ok (v, r) ↔
      (if isName t then Pure.pure t.identifier else refuse : Parser Text) ts = .ok (v, r) := by
  have hname : name (t :: ts) =
      (if isName t then (do skip; Pure.pure t.identifier) else refuse : Parser Text) (t :: ts) := rfl
  rw [hname]
  split
  · exact Iff.rfl
  · exact iff_of_false (refuse_ne_ok _ _ _) (refuse_ne_ok _ _ _)

theorem keeps_name : Keeps (fun _ => True) true name name := by
  refine .headed (fun t => if isName t then Pure.pure t.identifier else refuse)
    (fun t => if isName t then Pure.pure t.identifier else refuse) nofun ?_
    (fun _ _ _ _ => name_cons_iff) (fun _ _ _ _ => name_cons_iff) ?_
  · intro t ts v r ht
    rw [ne_eq, name_cons_iff, isName_of_isEdge ht]
    exact refuse_ne_ok _ _ _
  · intro t t' ht
    rw [isName_eq_of_alike ht]
    split
    · refine .pure (alike_text_iff.mpr ?_) id
      rw [Token.identifier, Token.identifier, (alike_token_iff.mp ht).2]
    · exact keeps_refuse

/-! ### Items with commas between them -/

theorem keeps_commaSeparatedFrom {item item' : Parser α} {another another' : Parser Bool}
    {R : Bool → Prop} (hitem : Keeps (fun _ => True) i item item')
    (hanother : Keeps R j another another') (ha : Alike a a') :
    Keeps (fun _ => False) false (commaSeparatedFrom a item another)
      (commaSeparatedFrom a' item' another') := by
  refine .loop (fun x x' hx => ?_) (by simpa using ha)
  obtain ⟨items, trailing⟩ := x
  obtain ⟨items', trailing'⟩ := x'
  obtain ⟨hitems, rfl⟩ := alike_pair_iff.mp hx
  cases trailing with
  | true => exact .pure rfl nofun
  | false =>
    refine .choice_within (sees_operator (e := false) nofun) ?_ (.pure rfl nofun)
    refine .within hanother fun b b' hb => ?_
    obtain rfl := alike_bool_iff.mp hb
    cases b with
    | true =>
      refine .moved_within hitem fun i i' hi => .pure ?_ id
      rw [alike_some_iff, alike_pair_iff]
      exact ⟨hitems.append (by simpa using hi), rfl⟩
    | false => exact .pure (by simpa using hitems) id

theorem keeps_commaSeparated {item item' : Parser α} {another another' : Parser Bool}
    {R : Bool → Prop} (hitem : Keeps (fun _ => True) i item item')
    (hanother : Keeps R j another another') :
    Keeps (fun _ => True) false (commaSeparated item another) (commaSeparated item' another') :=
  .moved_within hitem fun _ _ ha => keeps_commaSeparatedFrom hitem hanother ha

/-- What stands behind an item: a comma, or what closes the items. -/
theorem keeps_separator (closing : String) (ha : Alike a a') :
    Keeps (fun _ => False) false
      (takeIf (atOperator ",") >>= fun more => atOperator closing >>= fun closed =>
        if !more ∧ !closed then refuse else pure (some (a, more)))
      (takeIf (atOperator ",") >>= fun more => atOperator closing >>= fun closed =>
        if !more ∧ !closed then refuse else pure (some (a', more))) := by
  refine .within (sees_operator (e := false) nofun).keeps_takeIf fun more more' hmore => ?_
  obtain rfl := alike_bool_iff.mp hmore
  refine .within (sees_operator (e := false) nofun).keeps fun closed closed' hclosed => ?_
  obtain rfl := alike_bool_iff.mp hclosed
  exact .conditional Iff.rfl (fun _ => keeps_refuse) fun _ => .pure (by simp [ha]) id

end Parser

end Code

end ServerPages
