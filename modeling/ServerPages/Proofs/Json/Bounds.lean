import ServerPages.Proofs.Json.Places

/-!
# The bounds on reading

Reading is bounded in the nesting of containers and in the digits of integers. It stops at a bound
exactly where it comes to a place that exceeds it: a container that is opened within as many as may
be open (`Part.rest_eq_tooDeep_iff`), or an integer that is too long (`Part.rest_eq_tooManyDigits_iff`).
-/

namespace ServerPages

namespace Json

namespace Part

variable {p : Part} {c : Container} {s t u r x y : Text} {depth k : Nat} {e : Refusal}

/-! ### From what is read to what stands there -/

/-- What the result of reading a part says about the text. -/
inductive Outcome (p : Part) (depth : Nat) (s : Text) : Except Refusal Text → Prop
  | whole {r : Text} (h : (p = .value → Stops r) → Whole p s r) : Outcome p depth s (.ok r)
  | deep (h : p.NestsBeyond depth s) : Outcome p depth s (.error .tooDeep)
  | long {k : Nat} (h : p.HasOverlong s) : Outcome p depth s (.error (.tooManyDigits k))
  | refused {complaint : Complaint} {r : Text} :
    Outcome p depth s (.error (.refused complaint r))

/-- What stops reading a part stops reading the whole, if every place in the part is one in the
whole, within `j` more containers. -/
theorem Outcome.lift {p' : Part} {s' : Text} (j : Nat) (h : Outcome p depth s (.error e))
    (hreaches : ∀ {k y}, Reaches p k s y → Reaches p' (k + j) s' y) :
    Outcome p' (depth + j) s' (.error e) := by
  cases h with
  | deep h =>
    obtain ⟨c, t, h⟩ := h
    exact .deep ⟨c, t, hreaches h⟩
  | long h =>
    obtain ⟨k, n, r, h, hlong⟩ := h
    exact .long ⟨k + j, n, r, hreaches h, hlong⟩
  | refused => exact .refused

private theorem Outcome.of_string (s : Text) : Outcome .value depth ('"' :: s)
    (value.rest depth ('"' :: s)) := by
  rw [rest_string]
  cases h : took (readString ('"' :: s) s) with
  | error e =>
    obtain ⟨complaint, r, rfl⟩ := readString_refused h
    exact .refused
  | ok p =>
    obtain ⟨name, r⟩ := p
    obtain ⟨marks, rfl, -⟩ := exists_marks h
    exact .whole fun _ => .string

private theorem Outcome.of_scalar (hs : ∀ c ∈ s.head?, c ≠ '"' ∧ c ≠ '[' ∧ c ≠ '\x7b') :
    Outcome .value depth s (value.rest depth s) := by
  rw [rest, readValue_scalar hs]
  cases hc : constant? s with
  | some p =>
    obtain ⟨v, r⟩ := p
    obtain ⟨name, hmem, rfl⟩ := constant?_eq_some_iff.mp hc
    rw [took_readScalar_constant hc]
    exact .whole fun _ => .constant hmem
  | none =>
    cases hn : (numeral? s).map (·.1) with
    | none =>
      rw [took_readScalar_none hc (Option.map_eq_none_iff.mp hn)]
      exact .refused
    | some p =>
      obtain ⟨num, r⟩ := p
      rw [took_readScalar_number hc hn]
      obtain ⟨v, hv⟩ | ⟨k, hk⟩ := num.value_cases
      · rw [hv]
        refine .whole fun hstops => ?_
        obtain ⟨n, rfl, hs, -⟩ := numeral?_spec hn
        rw [hs]
        refine .number (fun hlong => ?_) (hstops rfl)
        obtain ⟨j, hj⟩ := n.value_iff_isOverlong.mpr hlong
        cases hv.symm.trans hj
      · rw [hk]
        obtain ⟨n, hs, hlong⟩ := exists_isOverlong hn hk
        exact .long ⟨0, n, r, hs ▸ .here s, hlong⟩

/-- What is left behind a value is shorter. -/
theorem length_lt_of_rest (h : value.rest depth s = .ok t) : t.length < s.length := by
  obtain ⟨v, hv⟩ := left_eq_ok.mp h
  obtain ⟨hlt, -⟩ := took_eq_ok.mp hv
  exact hlt

/-- The outcome of a row follows from those of the values in it. -/
theorem Outcome.of_row (hvalue : ∀ x, Outcome .value depth x (value.rest depth x)) (s : Text) :
    Outcome (.row c) depth s ((row c).rest depth s) := by
  induction hlen : s.length using Nat.strong_induction_on generalizing s with
  | _ n ih =>
  by_cases hbegins : ∀ x, ¬ c.Begins s x
  · obtain ⟨complaint, r, hr⟩ := rest_row_of_not_begins hbegins depth
    rw [hr]
    exact .refused
  obtain ⟨x, hx⟩ := not_forall_not.mp hbegins
  have hfirst := hvalue (skipSpace x)
  cases hv : value.rest depth (skipSpace x) with
  | error e =>
    rw [hv] at hfirst
    rw [rest_row_error hx hv]
    exact hfirst.lift 0 (.element hx)
  | ok t =>
    rw [hv] at hfirst
    obtain ⟨hwhole⟩ := hfirst
    -- behind a value the row ends, goes on, or is refused
    by_cases hclose : ∃ r, skipSpace t = c.closing :: r
    · obtain ⟨r, hr⟩ := hclose
      rw [rest_row_last hx hv hr]
      exact .whole fun _ => .last hx (hwhole fun _ => Container.stops_closing hr) hr
    by_cases hcomma : ∃ u, skipSpace t = ',' :: u
    · obtain ⟨u, hu⟩ := hcomma
      have hv' := hwhole fun _ => stops_of_skipSpace hu (by decide)
      have hlt : u.length < n := by
        obtain ⟨_, _, _, -, helement⟩ := exists_element hx depth
        have h₁ := (suffix_of_skipSpace hu).length_le
        have h₂ := length_lt_of_rest hv
        have h₃ := (skipSpace_suffix x).length_le
        have h₄ := helement.suffix.length_le
        omega
      have hrow := ih u.length hlt u rfl
      rw [rest_row_more hx hv hu]
      cases hrest : (row c).rest depth u with
      | ok r =>
        rw [hrest] at hrow
        obtain ⟨h⟩ := hrow
        exact .whole fun _ => .more hx hv' hu (h nofun)
      | error e =>
        rw [hrest] at hrow
        exact hrow.lift 0 (.behind hx hv' hu)
    · rw [rest_row_other hx hv (fun u hu => hclose ⟨u, hu⟩) fun u hu => hcomma ⟨u, hu⟩]
      exact .refused

private theorem Outcome.of_container (hrow : ∀ s, Outcome (.row c) depth s ((row c).rest depth s))
    (s : Text) : Outcome .value (depth + 1) (c.opening :: s)
      (value.rest (depth + 1) (c.opening :: s)) := by
  by_cases hclose : ∃ r, skipSpace s = c.closing :: r
  · obtain ⟨r, hr⟩ := hclose
    rw [rest_empty hr]
    exact .whole fun _ => .empty hr
  have hopen : ∀ t, skipSpace s ≠ c.closing :: t := fun t ht => hclose ⟨t, ht⟩
  have hinner := hrow s
  rw [rest_container hopen]
  cases hrest : (row c).rest depth s with
  | ok r =>
    rw [hrest] at hinner
    obtain ⟨h⟩ := hinner
    exact .whole fun _ => .container hopen (h nofun)
  | error e =>
    rw [hrest] at hinner
    exact hinner.lift 1 (.enter hopen)

private theorem exists_container (hs : ¬ ∀ c ∈ s.head?, c ≠ '"' ∧ c ≠ '[' ∧ c ≠ '\x7b') :
    (∃ t, s = '"' :: t) ∨ ∃ (c : Container) (t : Text), s = c.opening :: t := by
  obtain ⟨c, t, rfl, rfl | rfl | rfl⟩ := exists_opening hs
  · exact .inl ⟨t, rfl⟩
  · exact .inr ⟨.array, t, rfl⟩
  · exact .inr ⟨.object, t, rfl⟩

/-- **What is read stands there.** What is left of a text stands behind a whole part of it, and where
reading stops at a bound it has come to a place that exceeds it. -/
theorem outcome (p : Part) (depth : Nat) (s : Text) : Outcome p depth s (p.rest depth s) := by
  have hvalue : ∀ x, Outcome .value depth x (value.rest depth x) := by
    induction depth with
    | zero =>
      intro x
      by_cases hx : ∀ c ∈ x.head?, c ≠ '"' ∧ c ≠ '[' ∧ c ≠ '\x7b'
      · exact .of_scalar hx
      obtain ⟨t, rfl⟩ | ⟨c, t, rfl⟩ := exists_container hx
      · exact .of_string t
      · rw [rest_zero]
        exact .deep ⟨c, t, .here _⟩
    | succ depth ih =>
      intro x
      by_cases hx : ∀ c ∈ x.head?, c ≠ '"' ∧ c ≠ '[' ∧ c ≠ '\x7b'
      · exact .of_scalar hx
      obtain ⟨t, rfl⟩ | ⟨c, t, rfl⟩ := exists_container hx
      · exact .of_string t
      · exact .of_container (Outcome.of_row ih) t
  cases p with
  | value => exact hvalue s
  | row c => exact .of_row hvalue s

/-! ### From what stands there to what is read -/

/-- A whole part is read under every bound on the nesting that it keeps to. -/
theorem rest_of_whole (h : Whole p s r) (depth : Nat) :
    p.rest depth s = .ok r ∨ p.rest depth s = .error .tooDeep := by
  induction h generalizing depth with
  | @constant name r v h =>
    have hread : constant? (name ++ r) = some (v, r) :=
      constant?_eq_some_iff.mpr ⟨name, h, rfl⟩
    have hall : ∀ p ∈ constants, p.1 ≠ [] ∧ ∀ c ∈ p.1.head?, c ≠ '"' ∧ c ≠ '[' ∧ c ≠ '\x7b' := by
      simp [constants]
    have hhead : ∀ c ∈ (name ++ r).head?, c ≠ '"' ∧ c ≠ '[' ∧ c ≠ '\x7b' := by
      rw [List.head?_append_of_ne_nil _ (hall _ h).1]
      exact (hall _ h).2
    refine .inl ?_
    rw [rest, readValue_scalar hhead, took_readScalar_constant hread]
    rfl
  | @number n r h hr =>
    obtain ⟨v, hv⟩ := n.numeral.value_cases.resolve_right fun h' => h (n.value_iff_isOverlong.mp h')
    refine .inl ?_
    rw [rest, n.took_readValue hr, hv]
    rfl
  | @string marks r =>
    refine .inl ?_
    rw [rest_string, took_readString]
    rfl
  | empty h =>
    cases depth with
    | zero => exact .inr rest_zero
    | succ depth => exact .inl (rest_empty h)
  | container hopen _ ih =>
    cases depth with
    | zero => exact .inr rest_zero
    | succ depth =>
      rw [rest_container hopen]
      exact ih depth
  | last hx _ ht ih =>
    exact (ih depth).imp (fun h => rest_row_last hx h ht) (rest_row_error hx)
  | more hx _ ht _ ihv ih =>
    obtain hv | hv := ihv depth
    · rw [rest_row_more hx hv ht]
      exact ih depth
    · exact .inr (rest_row_error hx hv)

/-- What stops reading at a place stops reading all that comes to the place, unless the containers
around it are too many by themselves. -/
theorem rest_of_reaches (h : Reaches p k s y) (depth : Nat) :
    p.rest depth s = .error .tooDeep ∨ ∃ inner, depth = inner + k ∧
      ∀ e, value.rest inner y = .error e → p.rest depth s = .error e := by
  induction h generalizing depth with
  | here s => exact .inr ⟨depth, rfl, fun _ he => he⟩
  | enter hopen _ ih =>
    cases depth with
    | zero => exact .inl rest_zero
    | succ depth =>
      rw [rest_container hopen]
      refine (ih depth).imp_right ?_
      rintro ⟨inner, rfl, h⟩
      exact ⟨inner, rfl, h⟩
  | element hx _ ih =>
    refine (ih depth).imp (rest_row_error hx) ?_
    rintro ⟨inner, hinner, h⟩
    exact ⟨inner, hinner, fun e he => rest_row_error hx (h e he)⟩
  | behind hx hv ht _ ih =>
    obtain hv | hv := rest_of_whole hv depth
    · rw [rest_row_more hx hv ht]
      exact ih depth
    · exact .inl (rest_row_error hx hv)

/-- **The bound on nesting.** Reading stops for the nesting exactly where it comes to a container
that is opened within as many as may be open. -/
theorem rest_eq_tooDeep_iff : p.rest depth s = .error .tooDeep ↔ p.NestsBeyond depth s := by
  constructor
  · intro h
    have hout := outcome p depth s
    rw [h] at hout
    cases hout with
    | deep h => exact h
  · rintro ⟨c, t, h⟩
    obtain hdeep | ⟨inner, hinner, h⟩ := rest_of_reaches h depth
    · exact hdeep
    · obtain rfl : inner = 0 := by omega
      exact h _ rest_zero

/-- **The bound on digits.** Reading stops for the digits exactly where it comes to an integer that
is too long, unless it has stopped for the nesting. -/
theorem rest_eq_tooManyDigits_iff : (∃ j, p.rest depth s = .error (.tooManyDigits j)) ↔
    p.HasOverlong s ∧ ¬ p.NestsBeyond depth s := by
  constructor
  · rintro ⟨j, h⟩
    have hout := outcome p depth s
    rw [h] at hout
    cases hout with
    | long hlong =>
      refine ⟨hlong, fun hdeep => ?_⟩
      cases h.symm.trans (rest_eq_tooDeep_iff.mpr hdeep)
  · rintro ⟨⟨k, n, r, h, hlong, hr⟩, hdeep⟩
    obtain hdeep' | ⟨inner, -, h⟩ := rest_of_reaches h depth
    · exact absurd (rest_eq_tooDeep_iff.mp hdeep') hdeep
    · obtain ⟨j, hj⟩ := n.value_iff_isOverlong.mpr hlong
      refine ⟨j, h _ ?_⟩
      rw [rest, n.took_readValue hr, hj]
      rfl

end Part

end Json

end ServerPages
