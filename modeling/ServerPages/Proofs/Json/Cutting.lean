import Mathlib.Data.List.Infix
import ServerPages.Proofs.Json.Reading

/-!
# Values that are cut short

A value that is cut short is not taken for a malformed one: reading it fails in a way that says
that the text stops too early, or it is a number of which enough is left
(`Source.readValue_cut`). This needs that no number in it has more digits before its point than
an integer may have; if one does, there is a cut that is refused for that
(`Source.exists_cut_of_long`).
-/

namespace ServerPages

namespace Json

variable {depth : Nat} {p q s : Text}

/-- Reading fails in a way that says that the text stops too early. -/
def Fails {α : Type} (r : Except Refusal (α × Text)) : Prop :=
  ∃ e, r = .error e ∧ e.IsTruncated

theorem Fails.map {α β : Type} {r : Except Refusal (α × Text)} (h : Fails r)
    (f : α × Text → β × Text) : Fails (r.map f) := by
  obtain ⟨e, rfl, he⟩ := h
  exact ⟨e, rfl, he⟩

/-- Reading fails so, or has come to an end of the text at which a number may go on. -/
def Stalls (r : Except Refusal (Json × Text)) : Prop :=
  Fails r ∨ ∃ j tail, r = .ok (j, tail) ∧ NumberText.IsTail tail

theorem isTruncated_nil (complaint : Complaint) : Message.isTruncated complaint [] = true := by
  simp [Message.isTruncated]

/-! ### Blanks that are cut short -/

private theorem skipSpace_of_all (h : ∀ c ∈ q, isSpace c = true) : skipSpace q = [] := by
  have hq : (q ++ []).dropWhile isSpace = [] := List.dropWhile_append_of_pos h
  rwa [List.append_nil] at hq

private theorem stops_of_all (h : ∀ c ∈ q, isSpace c = true) : Stops q := by
  cases q with
  | nil => exact NumberText.IsTail.nil.stops
  | cons c q => exact stops_cons (mem_of_isSpace (h c List.mem_cons_self))

/-- Blanks and what follows them are cut within the blanks, or behind the next character. -/
theorem cut_blanks {b : Blanks} {c : Char} (h : Cut q (b.text ++ c :: s)) :
    (∀ x ∈ q, isSpace x = true) ∨ ∃ r, q = b.text ++ c :: r ∧ Cut r s := by
  rcases Cut.append_iff.mp h with hb | ⟨r, rfl, hr⟩
  · exact .inl fun x hx => b.all x (hb.isPrefix.subset hx)
  · rcases Cut.cons_iff.mp hr with rfl | ⟨u, rfl, hu⟩
    · exact .inl fun x hx => b.all x (by simpa using hx)
    · exact .inr ⟨u, rfl, hu⟩

/-- Blanks are skipped also where what follows them is cut short. -/
theorem skipSpace_cut (b : Blanks) {c : Char} {a : Text} (hc : isSpace c = false)
    (h : Cut q (c :: a)) : skipSpace (b.text ++ q) = q := by
  rw [skipSpace_blanks]
  rcases Cut.cons_iff.mp h with rfl | ⟨r, rfl, -⟩
  · rfl
  · exact skipSpace_cons hc

theorem NumberText.IsTail.skipSpace_eq {tail : Text} (h : IsTail tail) : skipSpace tail = tail := by
  cases h with
  | nil | point => rfl
  | exponent hm hs => rcases hm with rfl | rfl <;> rfl

theorem NumberText.IsTail.ne_cons {tail : Text} (h : IsTail tail) {c : Char}
    (hc : c ∈ " \t\n\r,:]\x7d".toList) (t : Text) : tail ≠ c :: t := by
  rintro rfl
  cases h with
  | point => exact absurd hc (by decide)
  | exponent hm hs => rcases hm with rfl | rfl <;> exact absurd hc (by decide)

/-! ### Scalars -/

private theorem fails_readScalar (hc : constant? p = none) (hn : numeral? p = none)
    (ht : Message.isTruncated .expectingValue p = true) : Fails (took (readScalar p)) := by
  refine ⟨.refused .expectingValue p, ?_, ht⟩
  rw [readScalar, hc]
  dsimp only
  rw [hn]
  rfl

private theorem fails_readValue_nil : Fails (took (readValue depth [])) := by
  rw [readValue_scalar (by simp)]
  exact fails_readScalar rfl rfl (isTruncated_nil _)

theorem Constant.fails_cut {c : Constant} (hp : Cut p c.text) :
    Fails (took (readValue depth p)) := by
  have hall : ∀ q ∈ c.text.inits, q ≠ c.text →
      (constant? q).isNone ∧ (numeral? q).isNone ∧ Message.isTruncated .expectingValue q ∧
        (q.head?.toList.all fun x => x ≠ '"' ∧ x ≠ '[' ∧ x ≠ '\x7b') := by
    cases c <;> decide
  obtain ⟨hc, hn, ht, hhead⟩ := hall p ((List.mem_inits p c.text).mpr hp.isPrefix) hp.ne
  rw [readValue_scalar fun x hx =>
    of_decide_eq_true (List.all_eq_true.mp hhead x (Option.mem_toList.mpr hx))]
  exact fails_readScalar (Option.isNone_iff_eq_none.mp hc) (Option.isNone_iff_eq_none.mp hn) ht

private theorem NumberText.stalls_cut {n : NumberText} (hn : n.IsShort) (hp : Cut p n.text) :
    Stalls (took (readValue depth p)) := by
  cases NumberText.cut hp with
  | sign h =>
    rcases h with rfl | rfl
    · exact .inl fails_readValue_nil
    · have hhead : ∀ x ∈ ['-'].head?, x ≠ '"' ∧ x ≠ '[' ∧ x ≠ '\x7b' := by simp
      rw [readValue_scalar hhead]
      exact .inl (fails_readScalar rfl rfl (by decide))
  | number m hm ht =>
    obtain ⟨j, hj⟩ := NumberText.value_of_isShort (NumberText.isShort_of_prefix hn hm)
    rw [m.readValue_eq, m.took_readScalar ht.stops, hj]
    exact .inr ⟨j, _, rfl, ht⟩

/-! ### Containers -/

/-- A container that ends within the blanks behind a value expects a comma. -/
theorem fails_readItems_of_stalls {value : ValueReader} (h : Stalls (took (value s))) :
    Fails (took (readItems value s)) := by
  rcases h with ⟨e, he, ht⟩ | ⟨j, tail, hv, ht⟩
  · exact ⟨e, took_readItems_error he, ht⟩
  · refine ⟨.refused .expectingComma tail, ?_, ht.isTruncated⟩
    rw [readItems_expectingComma hv, ht.skipSpace_eq]
    all_goals
      rw [ht.skipSpace_eq]
      exact ht.ne_cons (by decide)

private theorem fails_readItems_of_blanks {value : ValueReader} {j : Json}
    (h : took (value s) = .ok (j, q)) (hq : ∀ c ∈ q, isSpace c = true) :
    Fails (took (readItems value s)) := by
  refine ⟨.refused .expectingComma [], ?_, isTruncated_nil _⟩
  rw [readItems_expectingComma h, skipSpace_of_all hq]
  all_goals
    rw [skipSpace_of_all hq]
    exact fun _ => nofun

/-- An item is cut short in its value or behind it, unless all of it is there, and the comma or
bracket behind it. -/
theorem readItems_cut {v : Source} {after : Blanks} {c : Char} {j : Json}
    (hv : ∀ q, Cut q v.text → Stalls (took (readValue depth q))) (hj : v.denote depth = .ok j)
    (hp : Cut p (v.text ++ (after.text ++ c :: s))) :
    Fails (took (readItems (readValue depth) p)) ∨
      ∃ r, p = v.text ++ (after.text ++ c :: r) ∧ Cut r s := by
  rcases Cut.append_iff.mp hp with hcut | ⟨q, rfl, hq⟩
  · exact .inl (fails_readItems_of_stalls (hv p hcut))
  rcases cut_blanks hq with hblank | ⟨r, rfl, hr⟩
  · have hread := v.took_readValue depth (stops_of_all hblank)
    rw [hj] at hread
    exact .inl (fails_readItems_of_blanks hread hblank)
  · exact .inr ⟨r, rfl, hr⟩

private theorem fails_readMembers_nil {value : ValueReader} : Fails (took (readMembers value [])) := by
  refine ⟨.refused .expectingName [], ?_, isTruncated_nil _⟩
  rw [readMembers]
  · rfl
  · intro _ h
    cases h

section Members

variable {value : ValueReader} {name : List Mark} {colon before after : Blanks} {v : Source}
  {j : Json} {c : Char}

private theorem fails_readMembers_of_stalls {s₁ r₁ s₂ : Text} {ls : List Letter}
    (hname : took (readString ('"' :: s₁) s₁) = .ok (ls, r₁)) (hcolon : skipSpace r₁ = ':' :: s₂)
    (h : Stalls (took (value (skipSpace s₂)))) : Fails (took (readMembers value ('"' :: s₁))) := by
  rcases h with ⟨e, he, ht⟩ | ⟨j, tail, hv, ht⟩
  · exact ⟨e, readMembers_value_error hname hcolon he, ht⟩
  · refine ⟨.refused .expectingComma tail, ?_, ht.isTruncated⟩
    rw [readMembers_expectingComma hname hcolon hv, ht.skipSpace_eq]
    all_goals
      rw [ht.skipSpace_eq]
      exact ht.ne_cons (by decide)

private theorem fails_readMembers_of_blanks {s₁ r₁ s₂ : Text} {ls : List Letter}
    (hname : took (readString ('"' :: s₁) s₁) = .ok (ls, r₁)) (hcolon : skipSpace r₁ = ':' :: s₂)
    (h : took (value (skipSpace s₂)) = .ok (j, q)) (hq : ∀ c ∈ q, isSpace c = true) :
    Fails (took (readMembers value ('"' :: s₁))) := by
  refine ⟨.refused .expectingComma [], ?_, isTruncated_nil _⟩
  rw [readMembers_expectingComma hname hcolon h, skipSpace_of_all hq]
  all_goals
    rw [skipSpace_of_all hq]
    exact fun _ => nofun

/-- A member is cut short in its name, before or behind its colon, in its value or behind it;
unless all of it is there, and the comma or brace behind it. -/
theorem readMembers_cut (hv : ∀ q, Cut q v.text → Stalls (took (readValue depth q)))
    (hj : v.denote depth = .ok j)
    (hp : Cut p ('"' :: (closedText name ++ (colon.text ++ ':' :: (before.text ++
      (v.text ++ (after.text ++ c :: s))))))) :
    Fails (took (readMembers (readValue depth) p)) ∨
      ∃ r, p = '"' :: (closedText name ++ (colon.text ++ ':' :: (before.text ++
        (v.text ++ (after.text ++ c :: r))))) ∧ Cut r s := by
  rcases Cut.cons_iff.mp hp with rfl | ⟨p₁, rfl, hp₁⟩
  · exact .inl fails_readMembers_nil
  rcases Cut.append_iff.mp hp₁ with hname | ⟨p₂, rfl, hp₂⟩
  -- in its name
  · have hopen : IsOpen ('"' :: p₁) p₁ := readString_cut hname
    obtain ⟨e, he, ht⟩ := hopen
    exact .inl ⟨e, readMembers_name_error he, ht⟩
  rcases cut_blanks hp₂ with hblank | ⟨p₃, rfl, hp₃⟩
  -- before its colon
  · refine .inl ⟨.refused .expectingColon [], ?_, isTruncated_nil _⟩
    rw [readMembers_expectingColon (took_readString name _), skipSpace_of_all hblank]
    rw [skipSpace_of_all hblank]
    exact fun _ => nofun
  have hcolon := skipSpace_blanks_cons colon (c := ':') (s := p₃) (by decide)
  rcases Cut.append_iff.mp hp₃ with hblank | ⟨p₄, rfl, hp₄⟩
  -- before its value
  · refine .inl (fails_readMembers_of_stalls (took_readString name _) hcolon (.inl ?_))
    rw [skipSpace_of_all fun x hx => before.all x (hblank.isPrefix.subset hx)]
    exact fails_readValue_nil
  rcases Cut.append_iff.mp hp₄ with hcut | ⟨p₅, rfl, hp₅⟩
  -- in its value
  · refine .inl (fails_readMembers_of_stalls (took_readString name _) hcolon ?_)
    obtain ⟨x, u, hx, hspace, -⟩ := v.exists_cons
    have hskip := skipSpace_cut before hspace (hx ▸ hcut)
    rw [hskip]
    exact hv p₄ hcut
  rcases cut_blanks hp₅ with hblank | ⟨r, rfl, hr⟩
  -- behind it
  · have hread := v.took_readValue depth (stops_of_all hblank)
    rw [hj, ← v.skipSpace_text, ← skipSpace_blanks before] at hread
    exact .inl (fails_readMembers_of_blanks (took_readString name _) hcolon hread hblank)
  · exact .inr ⟨r, rfl, hr⟩

end Members

/-! ### Cut values -/

private theorem map_eq_ok {α β : Type} {x : Except Refusal α} {f : α → β} {b : β} (h : x.map f = .ok b) :
    ∃ a, x = .ok a := by
  cases x with
  | error e => cases h
  | ok a => exact ⟨a, rfl⟩

theorem Items.denote_more {v : Source} {after before : Blanks} {rest : Items} {js : List Json}
    (h : (Items.more v after before rest).denote depth = .ok js) :
    (∃ j, v.denote depth = .ok j) ∧ ∃ js', rest.denote depth = .ok js' := by
  rw [Items.denote] at h
  cases hv : v.denote depth with
  | error e => rw [hv] at h; cases h
  | ok j =>
    cases hr : rest.denote depth with
    | error e => rw [hv, hr] at h; cases h
    | ok js' => exact ⟨⟨j, rfl⟩, js', rfl⟩

theorem Members.denote_more {name : List Mark} {colon before after next : Blanks} {v : Source}
    {rest : Members} {ms : List (List Letter × Json)}
    (h : (Members.more name colon before v after next rest).denote depth = .ok ms) :
    (∃ j, v.denote depth = .ok j) ∧ ∃ ms', rest.denote depth = .ok ms' := by
  rw [Members.denote] at h
  cases hv : v.denote depth with
  | error e => rw [hv] at h; cases h
  | ok j =>
    cases hr : rest.denote depth with
    | error e => rw [hv, hr] at h; cases h
    | ok ms' => exact ⟨⟨j, rfl⟩, ms', rfl⟩

/-- The items of an array are read also where they are cut short. -/
theorem took_readValue_array_cut (before : Blanks) {items : Items} (hq : Cut q items.text) :
    took (readValue (depth + 1) ('[' :: (before.text ++ q))) =
      (took (readItems (readValue depth) q)).map fun p => (.array p.1, p.2) := by
  obtain ⟨c, u, hc, hspace, hclose⟩ := items.exists_cons
  rw [hc] at hq
  have hskip := skipSpace_cut before hspace hq
  have hne : ∀ t, skipSpace (before.text ++ q) ≠ ']' :: t := by
    rw [hskip]
    rintro t rfl
    exact hclose (List.cons_prefix_cons.mp hq.isPrefix).1.symm
  rw [took_readValue_array hne, hskip]

/-- The members of an object are read also where they are cut short. -/
theorem took_readValue_object_cut (before : Blanks) {members : Members}
    (hq : Cut q members.text) :
    took (readValue (depth + 1) ('\x7b' :: (before.text ++ q))) =
      (took (readMembers (readValue depth) q)).map fun p => (ofMembers p.1, p.2) := by
  obtain ⟨u, hc⟩ := members.exists_cons
  rw [hc] at hq
  have hskip := skipSpace_cut before (by decide) hq
  have hne : ∀ t, skipSpace (before.text ++ q) ≠ '\x7d' :: t := by
    rw [hskip]
    rintro t rfl
    exact absurd (List.cons_prefix_cons.mp hq.isPrefix).1 (by decide)
  rw [took_readValue_object hne, hskip]

/-- Blanks and what follows them, cut short, are blanks and a cut of what follows. -/
theorem cut_blanks_append {b : Blanks} {a : Text} (ha : ∃ c u, a = c :: u)
    (h : Cut q (b.text ++ a)) : ∃ (b' : Blanks) (r : Text), q = b'.text ++ r ∧ Cut r a := by
  rcases Cut.append_iff.mp h with hb | ⟨r, rfl, hr⟩
  · obtain ⟨c, u, rfl⟩ := ha
    exact ⟨⟨q, fun x hx => b.all x (hb.isPrefix.subset hx)⟩, [], (List.append_nil q).symm,
      Cut.nil_cons c u⟩
  · exact ⟨b, r, rfl, hr⟩

private theorem fails_emptyObject_cut {inside : Blanks}
    (hp : Cut p ('\x7b' :: (inside.text ++ ['\x7d']))) :
    Fails (took (readValue (depth + 1) p)) := by
  rcases Cut.cons_iff.mp hp with rfl | ⟨q, rfl, hq⟩
  · exact fails_readValue_nil
  rcases cut_blanks hq with hblank | ⟨r, rfl, hr⟩
  · have hs := skipSpace_of_all hblank
    rw [took_readValue_object (by rw [hs]; exact fun _ => nofun), hs]
    exact fails_readMembers_nil.map _
  · exact absurd hr Cut.not_nil

private theorem fails_object_cut {before : Blanks} {members : Members}
    (ih : ∀ r, Cut r members.text → Fails (took (readMembers (readValue depth) r)))
    (hp : Cut p ('\x7b' :: (before.text ++ members.text))) :
    Fails (took (readValue (depth + 1) p)) := by
  rcases Cut.cons_iff.mp hp with rfl | ⟨q, rfl, hq⟩
  · exact fails_readValue_nil
  obtain ⟨u, hu⟩ := members.exists_cons
  obtain ⟨b, r, rfl, hr⟩ := cut_blanks_append ⟨_, u, hu⟩ hq
  rw [took_readValue_object_cut b hr]
  exact (ih r hr).map _

mutual

/-- **Values that are cut short.** Reading a value that is cut short fails in a way that says so,
or comes to an end of the text at which a number may go on. -/
theorem Source.readValue_cut (v : Source) {depth : Nat} {j : Json} (hj : v.denote depth = .ok j)
    (hshort : ∀ n ∈ v.numbers, n.IsShort) {p : Text} (hp : Cut p v.text) :
    Stalls (took (readValue depth p)) := by
  match v, depth with
  | .constant c, depth => exact .inl (Constant.fails_cut hp)
  | .number n, depth => exact NumberText.stalls_cut (hshort n List.mem_cons_self) hp
  | .string marks, depth =>
    rcases Cut.cons_iff.mp hp with rfl | ⟨q, rfl, hq⟩
    · exact .inl fails_readValue_nil
    · have hopen : IsOpen ('"' :: q) q := readString_cut hq
      obtain ⟨e, he, ht⟩ := hopen
      rw [took_readValue_string, he]
      exact .inl ⟨e, rfl, ht⟩
  | .emptyArray _, 0 | .array _ _, 0 | .emptyObject _, 0 | .object _ _, 0 =>
    rw [Source.denote] at hj
    cases hj
  | .emptyArray inside, depth + 1 =>
    rcases Cut.cons_iff.mp hp with rfl | ⟨q, rfl, hq⟩
    · exact .inl fails_readValue_nil
    rcases cut_blanks hq with hblank | ⟨r, rfl, hr⟩
    · have hs := skipSpace_of_all hblank
      rw [took_readValue_array (by rw [hs]; exact fun _ => nofun), hs]
      exact .inl ((fails_readItems_of_stalls (.inl fails_readValue_nil)).map _)
    · exact absurd hr Cut.not_nil
  | .array before items, depth + 1 =>
    rw [Source.denote] at hj
    obtain ⟨js, hjs⟩ := map_eq_ok hj
    rcases Cut.cons_iff.mp hp with rfl | ⟨q, rfl, hq⟩
    · exact .inl fails_readValue_nil
    obtain ⟨c, u, hc, -⟩ := items.exists_cons
    obtain ⟨b, r, rfl, hr⟩ := cut_blanks_append ⟨c, u, hc⟩ hq
    rw [took_readValue_array_cut b hr]
    exact .inl ((items.fails_cut hjs hshort hr).map _)
  | .emptyObject inside, depth + 1 => exact .inl (fails_emptyObject_cut hp)
  | .object before members, depth + 1 =>
    rw [Source.denote] at hj
    obtain ⟨ms, hms⟩ := map_eq_ok hj
    exact .inl (fails_object_cut (fun r hr => members.fails_cut hms hshort hr) hp)

/-- Reading items that are cut short fails in a way that says so. -/
theorem Items.fails_cut (items : Items) {depth : Nat} {js : List Json}
    (hj : items.denote depth = .ok js) (hshort : ∀ n ∈ items.numbers, n.IsShort) {p : Text}
    (hp : Cut p items.text) : Fails (took (readItems (readValue depth) p)) := by
  match items with
  | .last v after =>
    rw [Items.denote] at hj
    obtain ⟨j, hv⟩ := map_eq_ok hj
    rcases readItems_cut (fun q hq => v.readValue_cut hv hshort hq) hv hp with h | ⟨r, -, hr⟩
    · exact h
    · exact absurd hr Cut.not_nil
  | .more v after before rest =>
    obtain ⟨⟨j, hv⟩, js', hrest⟩ := Items.denote_more hj
    rw [Items.numbers, List.forall_mem_append] at hshort
    rcases readItems_cut (fun q hq => v.readValue_cut hv hshort.1 hq) hv hp with h | ⟨r, rfl, hr⟩
    · exact h
    · have hread := v.took_readValue depth (stops_blanks after (c := ',') (s := r) (by decide))
      rw [hv] at hread
      rw [took_readItems_more hread (skipSpace_blanks_cons after (by decide))]
      rcases Cut.append_iff.mp hr with hblank | ⟨u, rfl, hu⟩
      · rw [skipSpace_of_all fun x hx => before.all x (hblank.isPrefix.subset hx)]
        exact (fails_readItems_of_stalls (.inl fails_readValue_nil)).map _
      · obtain ⟨c, w, hc, hspace, -⟩ := rest.exists_cons
        rw [skipSpace_cut before hspace (hc ▸ hu)]
        exact (rest.fails_cut hrest hshort.2 hu).map _

/-- Reading members that are cut short fails in a way that says so. -/
theorem Members.fails_cut (members : Members) {depth : Nat} {ms : List (List Letter × Json)}
    (hj : members.denote depth = .ok ms) (hshort : ∀ n ∈ members.numbers, n.IsShort) {p : Text}
    (hp : Cut p members.text) : Fails (took (readMembers (readValue depth) p)) := by
  match members with
  | .last name colon before v after =>
    rw [Members.denote] at hj
    obtain ⟨j, hv⟩ := map_eq_ok hj
    rcases readMembers_cut (fun q hq => v.readValue_cut hv hshort hq) hv hp with h | ⟨r, -, hr⟩
    · exact h
    · exact absurd hr Cut.not_nil
  | .more name colon before v after next rest =>
    obtain ⟨⟨j, hv⟩, ms', hrest⟩ := Members.denote_more hj
    rw [Members.numbers, List.forall_mem_append] at hshort
    rcases readMembers_cut (fun q hq => v.readValue_cut hv hshort.1 hq) hv hp with
      h | ⟨r, rfl, hr⟩
    · exact h
    · have hread := v.took_readValue depth (stops_blanks after (c := ',') (s := r) (by decide))
      rw [hv, ← v.skipSpace_text, ← skipSpace_blanks before] at hread
      rw [took_readMembers_more (took_readString name _)
        (skipSpace_blanks_cons colon (by decide)) hread (skipSpace_blanks_cons after (by decide))]
      rcases Cut.append_iff.mp hr with hblank | ⟨u, rfl, hu⟩
      · rw [skipSpace_of_all fun x hx => next.all x (hblank.isPrefix.subset hx)]
        exact fails_readMembers_nil.map _
      · obtain ⟨w, hw⟩ := rest.exists_cons
        rw [skipSpace_cut next (by decide) (hw ▸ hu)]
        exact (rest.fails_cut hrest hshort.2 hu).map _

end

/-- Reading an object that is cut short fails in a way that says so. -/
theorem Source.fails_cut_object {v : Source} (hv : v.IsObject) {j : Json}
    (hj : v.denote depth = .ok j) (hshort : ∀ n ∈ v.numbers, n.IsShort) (hp : Cut p v.text) :
    Fails (took (readValue depth p)) := by
  match v, depth with
  | .emptyObject _, 0 | .object _ _, 0 =>
    rw [Source.denote] at hj
    cases hj
  | .emptyObject inside, depth + 1 => exact fails_emptyObject_cut hp
  | .object before members, depth + 1 =>
    rw [Source.denote] at hj
    obtain ⟨ms, hms⟩ := map_eq_ok hj
    exact fails_object_cut (fun r hr => members.fails_cut hms hshort hr) hp

/-! ### Numbers that are too long -/

/-- Reading fails for an integer with too many digits. -/
def Overflows {α : Type} (r : Except Refusal (α × Text)) : Prop :=
  ∃ k, r = .error (.tooManyDigits k)

theorem Overflows.map {α β : Type} {r : Except Refusal (α × Text)} (h : Overflows r)
    (f : α × Text → β × Text) : Overflows (r.map f) := by
  obtain ⟨k, rfl⟩ := h
  exact ⟨k, rfl⟩

/-- Where a value can be cut so that reading it fails for an integer, a member with that value can
be, too. -/
theorem exists_cut_in_value {name : List Mark} {colon before : Blanks} {v : Source}
    (hp : Cut p v.text) (hover : Overflows (took (readValue depth p))) :
    ∃ q, Cut q ('"' :: (closedText name ++ (colon.text ++ ':' :: (before.text ++
      (v.text ++ s))))) ∧ Overflows (took (readMembers (readValue depth) q)) := by
  obtain ⟨k, hk⟩ := hover
  refine ⟨'"' :: (closedText name ++ (colon.text ++ ':' :: (before.text ++ p))),
    (((((hp.append_right s).append_left _).cons _).append_left _).append_left _).cons _, k, ?_⟩
  obtain ⟨c, u, hc, hspace, -⟩ := v.exists_cons
  have hvalue : took (readValue depth (skipSpace (before.text ++ p))) =
      .error (.tooManyDigits k) := by
    rw [skipSpace_cut before hspace (hc ▸ hp)]
    exact hk
  exact readMembers_value_error (took_readString name _)
    (skipSpace_blanks_cons colon (by decide)) hvalue

mutual

/-- **Numbers that are too long.** A value with a number whose digits before the point are more
than an integer may have can be cut so that reading it fails for an integer. -/
theorem Source.exists_cut_of_long (v : Source) {depth : Nat} {j : Json}
    (hj : v.denote depth = .ok j) {n : NumberText} (hn : n ∈ v.numbers) (hlong : ¬ n.IsShort) :
    ∃ p, Cut p v.text ∧ Overflows (took (readValue depth p)) := by
  match v, depth with
  | .constant _, _ | .string _, _ | .emptyArray _, _ | .emptyObject _, _ =>
    exact absurd hn List.not_mem_nil
  | .number m, depth =>
    obtain rfl : n = m := List.mem_singleton.mp hn
    rw [Source.denote] at hj
    obtain ⟨m, hcut, hm⟩ := NumberText.exists_cut_of_long hlong hj
    refine ⟨m.text, hcut, n.whole.text.length, ?_⟩
    have hread := m.took_readScalar NumberText.IsTail.nil.stops
    rw [List.append_nil, hm] at hread
    have hvalue : readValue depth (m.text ++ []) = _ := m.readValue_eq []
    rw [List.append_nil] at hvalue
    rw [hvalue, hread]
    rfl
  | .array _ _, 0 | .object _ _, 0 =>
    rw [Source.denote] at hj
    cases hj
  | .array before items, depth + 1 =>
    rw [Source.denote] at hj
    obtain ⟨js, hjs⟩ := map_eq_ok hj
    obtain ⟨p, hp, hover⟩ := items.exists_cut_of_long hjs hn hlong
    refine ⟨'[' :: (before.text ++ p), (hp.append_left _).cons _, ?_⟩
    rw [took_readValue_array_cut before hp]
    exact hover.map _
  | .object before members, depth + 1 =>
    rw [Source.denote] at hj
    obtain ⟨ms, hms⟩ := map_eq_ok hj
    obtain ⟨p, hp, hover⟩ := members.exists_cut_of_long hms hn hlong
    refine ⟨'\x7b' :: (before.text ++ p), (hp.append_left _).cons _, ?_⟩
    rw [took_readValue_object_cut before hp]
    exact hover.map _

theorem Items.exists_cut_of_long (items : Items) {depth : Nat} {js : List Json}
    (hj : items.denote depth = .ok js) {n : NumberText} (hn : n ∈ items.numbers)
    (hlong : ¬ n.IsShort) :
    ∃ p, Cut p items.text ∧ Overflows (took (readItems (readValue depth) p)) := by
  match items with
  | .last v after =>
    rw [Items.denote] at hj
    obtain ⟨j, hv⟩ := map_eq_ok hj
    obtain ⟨p, hp, k, hk⟩ := v.exists_cut_of_long hv hn hlong
    exact ⟨p, hp.append_right _, k, took_readItems_error hk⟩
  | .more v after before rest =>
    obtain ⟨⟨j, hv⟩, js', hrest⟩ := Items.denote_more hj
    rcases List.mem_append.mp hn with hn | hn
    · obtain ⟨p, hp, k, hk⟩ := v.exists_cut_of_long hv hn hlong
      exact ⟨p, hp.append_right _, k, took_readItems_error hk⟩
    · obtain ⟨p, hp, hover⟩ := rest.exists_cut_of_long hrest hn hlong
      refine ⟨v.text ++ (after.text ++ ',' :: (before.text ++ p)),
        (((hp.append_left _).cons _).append_left _).append_left _, ?_⟩
      have hread := v.took_readValue depth
        (stops_blanks after (c := ',') (s := before.text ++ p) (by decide))
      rw [hv] at hread
      obtain ⟨c, u, hc, hspace, -⟩ := rest.exists_cons
      rw [took_readItems_more hread (skipSpace_blanks_cons after (by decide)),
        skipSpace_cut before hspace (hc ▸ hp)]
      exact hover.map _

theorem Members.exists_cut_of_long (members : Members) {depth : Nat}
    {ms : List (List Letter × Json)} (hj : members.denote depth = .ok ms) {n : NumberText}
    (hn : n ∈ members.numbers) (hlong : ¬ n.IsShort) :
    ∃ p, Cut p members.text ∧ Overflows (took (readMembers (readValue depth) p)) := by
  match members with
  | .last name colon before v after =>
    rw [Members.denote] at hj
    obtain ⟨j, hv⟩ := map_eq_ok hj
    obtain ⟨p, hp, hover⟩ := v.exists_cut_of_long hv hn hlong
    exact exists_cut_in_value hp hover
  | .more name colon before v after next rest =>
    obtain ⟨⟨j, hv⟩, ms', hrest⟩ := Members.denote_more hj
    rcases List.mem_append.mp hn with hn | hn
    · obtain ⟨p, hp, hover⟩ := v.exists_cut_of_long hv hn hlong
      exact exists_cut_in_value hp hover
    · obtain ⟨p, hp, hover⟩ := rest.exists_cut_of_long hrest hn hlong
      refine ⟨'"' :: (closedText name ++ (colon.text ++ ':' :: (before.text ++
        (v.text ++ (after.text ++ ',' :: (next.text ++ p)))))),
        (((((((hp.append_left _).cons _).append_left _).append_left _).append_left _).cons
          _).append_left _ |>.append_left _).cons _, ?_⟩
      have hread := v.took_readValue depth
        (stops_blanks after (c := ',') (s := next.text ++ p) (by decide))
      rw [hv, ← v.skipSpace_text, ← skipSpace_blanks before] at hread
      obtain ⟨u, hu⟩ := rest.exists_cons
      rw [took_readMembers_more (took_readString name _)
        (skipSpace_blanks_cons colon (by decide)) hread (skipSpace_blanks_cons after (by decide)),
        skipSpace_cut next (by decide) (hu ▸ hp)]
      exact hover.map _

end

end Json

end ServerPages
