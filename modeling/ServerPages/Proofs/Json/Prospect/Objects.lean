import ServerPages.Proofs.Json.Prospect.Values

/-!
# Objects that go on

Only what begins with a brace is read as an object (`exists_brace`), so no object ends within a
number. Members can be put behind those of an object that stops within a constant
(`isContinuable_of_refused`).
-/

namespace ServerPages

namespace Json

variable {s t r : Text} {depth : Nat} {ms : List (List Letter × Json)}

/-! ### Objects -/

private theorem exists_of_map_eq_ok {α β : Type} {x : Except Refusal α} {f : α → β} {b : β}
    (h : x.map f = .ok b) : ∃ a, x = .ok a ∧ f a = b := by
  cases x with
  | error e => cases h
  | ok a => exact ⟨a, rfl, Except.ok.inj h⟩

private theorem readScalar_ne_object : took (readScalar s) ≠ .ok (.object ms, r) := by
  intro h
  cases hc : constant? s with
  | some p =>
    obtain ⟨v, rest⟩ := p
    rw [took_readScalar_constant hc] at h
    obtain ⟨name, hmem, -⟩ := constant?_eq_some_iff.mp hc
    cases h
    simp [constants] at hmem
  | none =>
    cases hn : (numeral? s).map (·.1) with
    | none =>
      rw [took_readScalar_none hc (Option.map_eq_none_iff.mp hn)] at h
      cases h
    | some p =>
      rw [took_readScalar_number hc hn, Numeral.value] at h
      split at h
      · split at h <;> cases h
      · cases h

/-- What is read as an object begins with a brace. -/
theorem exists_brace (h : took (readValue depth s) = .ok (.object ms, r)) :
    ∃ t, s = '\x7b' :: t := by
  by_cases hs : ∀ c ∈ s.head?, c ≠ '"' ∧ c ≠ '[' ∧ c ≠ '\x7b'
  · rw [readValue_scalar hs] at h
    exact absurd h readScalar_ne_object
  obtain ⟨c, t, rfl, rfl | rfl | rfl⟩ := exists_opening hs
  · rw [took_readValue_string] at h
    obtain ⟨p, -, hp⟩ := exists_of_map_eq_ok h
    cases hp
  · cases depth with
    | zero => cases h
    | succ depth =>
      by_cases hclose : ∃ t', skipSpace t = ']' :: t'
      · obtain ⟨t', ht'⟩ := hclose
        rw [took_readValue_emptyArray ht'] at h
        cases h
      · rw [took_readValue_array fun t' ht' => hclose ⟨t', ht'⟩] at h
        obtain ⟨p, -, hp⟩ := exists_of_map_eq_ok h
        cases hp
  · exact ⟨t, rfl⟩

private theorem not_isOpenNumber_brace : ¬ IsOpenNumber ('\x7b' :: s) := by
  rintro ⟨n, tail, hn, -⟩
  obtain ⟨c, u, hc, hd | rfl⟩ := n.exists_cons
  · rw [hc] at hn
    cases hn
    cases hd
  · rw [hc] at hn
    cases hn

private theorem map_eq_error {α β : Type} {x : Except Refusal α} {f : α → β} {e : Refusal} :
    x.map f = .error e ↔ x = .error e := by
  cases x <;> simp [Except.map]

/-- The members of an object that stops within a constant can be followed by others. -/
theorem isContinuable_of_refused {rest : Text} (hopen : ∀ t, skipSpace s ≠ '\x7d' :: t)
    (hr : read ('\x7b' :: s) = .error (.refused .expectingValue rest))
    (ha : Complaint.expectingValue.Awaits rest) : IsContinuable (spacedMembers innerLimit) s := by
  rw [read_object hopen, map_eq_error] at hr
  have hvalue := valueProspect_of_value (value_prospect innerLimit)
  cases members_prospect hvalue s with
  | taken _ h => cases hr.symm.trans (of_append_nil (h []))
  | @failed e h hnot =>
    have he := of_append_nil (h [])
    rw [e.extend_nil, hr] at he
    cases he
    exact absurd ha hnot
  | awaiting _ _ hm => exact hm
  | resuming h | overflowing h => cases hr.symm.trans h

/-- What more text can make of an object. -/
theorem brace_prospect (s : Text) :
    Prospect read ('\x7b' :: s) (IsClosable read ('\x7b' :: s)) :=
  (value_prospect nestingLimit ('\x7b' :: s)).resolve_left not_isOpenNumber_brace

/-! ### Objects with one member -/

/-- All characters stand for themselves in a string. -/
def IsPlainText (s : Text) : Prop := ∀ c ∈ s, c ≠ '"' ∧ c ≠ '\\' ∧ ¬ c.toNat < 0x20

instance (s : Text) : Decidable (IsPlainText s) := List.decidableBAll _ s

theorem took_readString_plainText {opening name : Text} (h : IsPlainText name) :
    took (readString opening (name ++ '"' :: t)) = .ok (Letter.ofText name, t) := by
  induction name with
  | nil => exact took_readString_quote
  | cons c name ih =>
    obtain ⟨⟨hq, hb, hc⟩, hname⟩ := List.forall_mem_cons.mp h
    rw [List.cons_append, took_readString_plain hq hb hc, ih hname]
    rfl

private theorem read_member_eq (s : Text) : read ('\x7b' :: '"' :: s) =
    (spacedMembers innerLimit ('"' :: s)).map fun p => (ofMembers p.1, p.2) :=
  read_object fun _ ht => absurd (List.cons_eq_cons.mp ht).1 (by decide)

theorem read_member_error (name value : Text) {e : Refusal} (hname : IsPlainText name)
    (h : spacedValue innerLimit value = .error e) :
    read ('\x7b' :: '"' :: (name ++ '"' :: ':' :: value)) = .error e := by
  have hmembers : spacedMembers innerLimit ('"' :: (name ++ '"' :: ':' :: value)) = .error e :=
    readMembers_value_error (took_readString_plainText hname) (skipSpace_cons (by decide)) h
  rw [read_member_eq, hmembers]
  rfl

theorem read_member (name value : Text) {j : Json} (hname : IsPlainText name)
    (h : spacedValue innerLimit value = .ok (j, ['\x7d'])) :
    read ('\x7b' :: '"' :: (name ++ '"' :: ':' :: value)) =
      .ok (.object [(Letter.ofText name, j)], []) := by
  have hmembers : spacedMembers innerLimit ('"' :: (name ++ '"' :: ':' :: value)) =
      .ok ([(Letter.ofText name, j)], []) :=
    took_readMembers_last (took_readString_plainText hname) (skipSpace_cons (by decide)) h
      (skipSpace_cons (by decide))
  rw [read_member_eq, hmembers]
  rfl

end Json

end ServerPages
