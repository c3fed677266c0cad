import ServerPages.Proofs.Json.Numbers

/-!
# Reading values

A value that is written down is read as what it denotes, and reading stops where its text ends
(`Source.took_readValue`); so nesting and numbers beyond the bounds are the only things that can
go wrong with it.
-/

namespace ServerPages

namespace Json

open Decimal (isDigit)

variable {value : ValueReader} {depth : Nat} {s t r : Text}

/-! ### One step -/

theorem took_readItems_error {e : Refusal} (h : took (value s) = .error e) :
    took (readItems value s) = .error e := by
  rw [took_eq_error] at h
  rw [readItems, h]
  rfl

theorem took_eq_ok {α : Type} {s r : Text} {x : Except Refusal (Taken α s)} {a : α} :
    took x = .ok (a, r) ↔ ∃ h, x = .ok ⟨(a, r), h⟩ := by
  constructor
  · intro h
    cases x with
    | error e => cases h
    | ok p =>
      obtain ⟨⟨a', r'⟩, hlt⟩ := p
      cases h
      exact ⟨hlt, rfl⟩
  · rintro ⟨h, rfl⟩
    rfl

theorem took_readItems_last {v : Json} (h : took (value s) = .ok (v, r))
    (hr : skipSpace r = ']' :: t) : took (readItems value s) = .ok ([v], t) := by
  obtain ⟨hlt, hv⟩ := took_eq_ok.mp h
  rw [readItems, hv]
  dsimp only
  split
  · next hs =>
    rw [hr] at hs
    cases hs
    rfl
  · next hs =>
    rw [hr] at hs
    cases hs
  · next hne _ => exact absurd hr (hne t)

theorem took_readItems_more {v : Json} (h : took (value s) = .ok (v, r))
    (hr : skipSpace r = ',' :: t) :
    took (readItems value s) =
      (took (readItems value (skipSpace t))).map fun p => (v :: p.1, p.2) := by
  obtain ⟨hlt, hv⟩ := took_eq_ok.mp h
  rw [readItems, hv]
  dsimp only
  split
  · next hs =>
    rw [hr] at hs
    cases hs
  · next hs =>
    rw [hr] at hs
    cases hs
    cases readItems value (skipSpace t) <;> rfl
  · next hne => exact absurd hr (hne t)

theorem readItems_expectingComma {v : Json} (h : took (value s) = .ok (v, r))
    (hclose : ∀ t, skipSpace r ≠ ']' :: t) (hcomma : ∀ t, skipSpace r ≠ ',' :: t) :
    took (readItems value s) = .error (.refused .expectingComma (skipSpace r)) := by
  obtain ⟨hlt, hv⟩ := took_eq_ok.mp h
  rw [readItems, hv]
  dsimp only
  split
  · next hs => exact absurd hs (hclose _)
  · next hs => exact absurd hs (hcomma _)
  · rfl

section Members

variable {name : List Letter} {v : Json} {r₁ r₂ s₁ s₂ : Text}

theorem readMembers_name_error {e : Refusal}
    (h : took (readString ('"' :: s₁) s₁) = .error e) :
    took (readMembers value ('"' :: s₁)) = .error e := by
  rw [took_eq_error] at h
  rw [readMembers, h]
  rfl

theorem readMembers_expectingColon (h : took (readString ('"' :: s₁) s₁) = .ok (name, r₁))
    (hcolon : ∀ t, skipSpace r₁ ≠ ':' :: t) :
    took (readMembers value ('"' :: s₁)) = .error (.refused .expectingColon (skipSpace r₁)) := by
  obtain ⟨hlt, hname⟩ := took_eq_ok.mp h
  rw [readMembers, hname]
  dsimp only
  split
  · next hs => exact absurd hs (hcolon _)
  · rfl

variable (h : took (readString ('"' :: s₁) s₁) = .ok (name, r₁)) (hcolon : skipSpace r₁ = ':' :: s₂)
include h hcolon

theorem readMembers_value_error {e : Refusal} (hv : took (value (skipSpace s₂)) = .error e) :
    took (readMembers value ('"' :: s₁)) = .error e := by
  obtain ⟨hlt, hname⟩ := took_eq_ok.mp h
  rw [took_eq_error] at hv
  rw [readMembers, hname]
  dsimp only
  split
  · next hs =>
    rw [hcolon] at hs
    cases hs
    rw [hv]
    rfl
  · next hne => exact absurd hcolon (hne _)

variable (hv : took (value (skipSpace s₂)) = .ok (v, r₂))
include hv

theorem took_readMembers_last (hr : skipSpace r₂ = '\x7d' :: t) :
    took (readMembers value ('"' :: s₁)) = .ok ([(name, v)], t) := by
  obtain ⟨hlt, hname⟩ := took_eq_ok.mp h
  obtain ⟨hlt', hv⟩ := took_eq_ok.mp hv
  rw [readMembers, hname]
  dsimp only
  split
  · next hs =>
    rw [hcolon] at hs
    cases hs
    rw [hv]
    dsimp only
    split
    · next hd =>
      rw [hr] at hd
      cases hd
      rfl
    · next hd =>
      rw [hr] at hd
      cases hd
    · next hne _ => exact absurd hr (hne _)
  · next hne => exact absurd hcolon (hne _)

theorem took_readMembers_more (hr : skipSpace r₂ = ',' :: t) :
    took (readMembers value ('"' :: s₁)) =
      (took (readMembers value (skipSpace t))).map fun p => ((name, v) :: p.1, p.2) := by
  obtain ⟨hlt, hname⟩ := took_eq_ok.mp h
  obtain ⟨hlt', hv⟩ := took_eq_ok.mp hv
  rw [readMembers, hname]
  dsimp only
  split
  · next hs =>
    rw [hcolon] at hs
    cases hs
    rw [hv]
    dsimp only
    split
    · next hd =>
      rw [hr] at hd
      cases hd
    · next hd =>
      rw [hr] at hd
      cases hd
      cases readMembers value (skipSpace t) <;> rfl
    · next hne => exact absurd hr (hne _)
  · next hne => exact absurd hcolon (hne _)

theorem readMembers_expectingComma (hclose : ∀ t, skipSpace r₂ ≠ '\x7d' :: t)
    (hcomma : ∀ t, skipSpace r₂ ≠ ',' :: t) :
    took (readMembers value ('"' :: s₁)) =
      .error (.refused .expectingComma (skipSpace r₂)) := by
  obtain ⟨hlt, hname⟩ := took_eq_ok.mp h
  obtain ⟨hlt', hv⟩ := took_eq_ok.mp hv
  rw [readMembers, hname]
  dsimp only
  split
  · next hs =>
    rw [hcolon] at hs
    cases hs
    rw [hv]
    dsimp only
    split
    · next hd => exact absurd hd (hclose _)
    · next hd => exact absurd hd (hcomma _)
    · rfl
  · next hne => exact absurd hcolon (hne _)

end Members

theorem took_readValue_string :
    took (readValue depth ('"' :: s)) =
      (took (readString ('"' :: s) s)).map fun p => (.string p.1, p.2) := by
  rw [readValue]
  cases readString ('"' :: s) s <;> rfl

theorem took_readValue_emptyArray (h : skipSpace s = ']' :: t) :
    took (readValue (depth + 1) ('[' :: s)) = .ok (.array [], t) := by
  rw [readValue]
  split
  · next hs =>
    rw [h] at hs
    cases hs
    rfl
  · next hne => exact absurd h (hne _)

theorem took_readValue_array (h : ∀ t, skipSpace s ≠ ']' :: t) :
    took (readValue (depth + 1) ('[' :: s)) =
      (took (readItems (readValue depth) (skipSpace s))).map fun p => (.array p.1, p.2) := by
  rw [readValue]
  split
  · next hs => exact absurd hs (h _)
  · cases readItems (readValue depth) (skipSpace s) <;> rfl

theorem took_readValue_emptyObject (h : skipSpace s = '\x7d' :: t) :
    took (readValue (depth + 1) ('\x7b' :: s)) = .ok (.object [], t) := by
  rw [readValue]
  split
  · next hs =>
    rw [h] at hs
    cases hs
    rfl
  · next hne => exact absurd h (hne _)

theorem took_readValue_object (h : ∀ t, skipSpace s ≠ '\x7d' :: t) :
    took (readValue (depth + 1) ('\x7b' :: s)) =
      (took (readMembers (readValue depth) (skipSpace s))).map fun p => (ofMembers p.1, p.2) := by
  rw [readValue]
  split
  · next hs => exact absurd hs (h _)
  · cases readMembers (readValue depth) (skipSpace s) <;> rfl

/-- What begins neither a string nor a container is read as a constant or a number. -/
theorem readValue_scalar (hs : ∀ c ∈ s.head?, c ≠ '"' ∧ c ≠ '[' ∧ c ≠ '\x7b') :
    readValue depth s = readScalar s := by
  unfold readValue
  split
  · exact absurd rfl (hs _ rfl).1
  · exact absurd rfl (hs _ rfl).2.1
  · exact absurd rfl (hs _ rfl).2.2
  · exact absurd rfl (hs _ rfl).2.1
  · exact absurd rfl (hs _ rfl).2.2
  · rfl

/-! ### Blanks -/

theorem skipSpace_blanks (b : Blanks) : skipSpace (b.text ++ s) = skipSpace s :=
  List.dropWhile_append_of_pos b.all

theorem skipSpace_cons {c : Char} (h : isSpace c = false) : skipSpace (c :: s) = c :: s := by
  rw [skipSpace, List.dropWhile_cons_of_neg (by simp [h])]

theorem skipSpace_blanks_cons (b : Blanks) {c : Char} (h : isSpace c = false) :
    skipSpace (b.text ++ c :: s) = c :: s := by
  rw [skipSpace_blanks, skipSpace_cons h]

/-- What separates values continues no number. -/
theorem stops_cons {c : Char} (h : c ∈ " \t\n\r,:]\x7d".toList) : Stops (c :: s) := by
  have hall : (" \t\n\r,:]\x7d".toList.all fun c =>
      !isDigit c && c ≠ '.' && !(c = 'e' || c = 'E')) = true := by decide
  have hc : (isDigit c = false ∧ c ≠ '.') ∧ (c = 'e' || c = 'E') = false := by
    simpa only [Bool.and_eq_true, Bool.not_eq_true', decide_eq_true_eq] using
      List.all_eq_true.mp hall c h
  refine ⟨by simpa using hc.1.1, fractionPart_of_ne hc.1.2, ?_⟩
  rw [exponentPart, if_neg (by simp [hc.2])]

theorem mem_of_isSpace {c : Char} (h : isSpace c = true) : c ∈ " \t\n\r,:]\x7d".toList := by
  simp only [isSpace, Bool.or_eq_true, beq_iff_eq] at h
  rcases h with ((rfl | rfl) | rfl) | rfl <;> decide

theorem stops_blanks (b : Blanks) {c : Char} (h : c ∈ " \t\n\r,:]\x7d".toList) :
    Stops (b.text ++ c :: s) := by
  cases hb : b.text with
  | nil => exact stops_cons h
  | cons d u => exact stops_cons (mem_of_isSpace (b.all d (by simp [hb])))

/-! ### Whole values -/

/-- A value begins neither with a blank nor with what closes a container. -/
theorem Source.exists_cons (v : Source) :
    ∃ c u, v.text = c :: u ∧ isSpace c = false ∧ c ≠ ']' ∧ c ≠ '\x7d' := by
  cases v with
  | constant c => cases c <;> exact ⟨_, _, rfl, by decide⟩
  | number n =>
    obtain ⟨c, u, hc, hd | rfl⟩ := n.exists_cons
    · refine ⟨c, u, hc, ?_, ne_of_isDigit hd (by decide), ne_of_isDigit hd (by decide)⟩
      simp [isSpace, ne_of_isDigit (c := ' ') hd (by decide),
        ne_of_isDigit (c := '\t') hd (by decide), ne_of_isDigit (c := '\n') hd (by decide),
        ne_of_isDigit (c := '\r') hd (by decide)]
    · exact ⟨'-', u, hc, by decide⟩
  | string | emptyArray | array | emptyObject | object => exact ⟨_, _, rfl, by decide⟩

theorem Source.skipSpace_text (v : Source) : skipSpace (v.text ++ s) = v.text ++ s := by
  obtain ⟨c, u, hc, hspace, -⟩ := v.exists_cons
  rw [hc]
  exact skipSpace_cons hspace

theorem Items.exists_cons (items : Items) :
    ∃ c u, items.text = c :: u ∧ isSpace c = false ∧ c ≠ ']' := by
  cases items with
  | last v | more v =>
    obtain ⟨c, u, hv, hs, hb, -⟩ := v.exists_cons
    exact ⟨c, _, by rw [Items.text, hv]; rfl, hs, hb⟩

theorem Items.skipSpace_text (items : Items) : skipSpace (items.text ++ s) = items.text ++ s := by
  obtain ⟨c, u, hc, hspace, -⟩ := items.exists_cons
  rw [hc]
  exact skipSpace_cons hspace

theorem Members.exists_cons (members : Members) : ∃ u, members.text = '"' :: u := by
  cases members <;> exact ⟨_, rfl⟩

theorem Members.skipSpace_text (members : Members) :
    skipSpace (members.text ++ s) = members.text ++ s := by
  obtain ⟨u, hu⟩ := members.exists_cons
  rw [hu]
  exact skipSpace_cons (by decide)

theorem Constant.took_readScalar (c : Constant) (rest : Text) :
    took (readScalar (c.text ++ rest)) = .ok (c.json, rest) := by
  have hc : constant? (c.text ++ rest) = some (c.json, rest) := by
    cases c <;> simp [constant?, constants, Constant.text, Constant.json, Text.after?]
  have hlt : rest.length < (c.text ++ rest).length := by
    rw [List.length_append]
    cases c <;> exact Nat.lt_add_of_pos_left (by decide)
  rw [readScalar, hc]
  dsimp only
  rw [dif_pos hlt]
  rfl

/-- A number begins neither a string nor a container. -/
theorem NumberText.readValue_eq (n : NumberText) (rest : Text) :
    readValue depth (n.text ++ rest) = readScalar (n.text ++ rest) := by
  obtain ⟨c, u, hc, hd | rfl⟩ := n.exists_cons
  · refine readValue_scalar fun x hx => ?_
    obtain rfl : c = x := by simpa [hc] using hx
    exact ⟨ne_of_isDigit hd (by decide), ne_of_isDigit hd (by decide),
      ne_of_isDigit hd (by decide)⟩
  · refine readValue_scalar fun x hx => ?_
    obtain rfl : '-' = x := by simpa [hc] using hx
    decide

mutual

/-- **Values are read.** A value is read as what it denotes if nothing behind it continues a
number. -/
theorem Source.took_readValue (v : Source) (depth : Nat) {rest : Text} (h : Stops rest) :
    took (readValue depth (v.text ++ rest)) = (v.denote depth).map fun j => (j, rest) := by
  match v, depth with
  | .constant c, depth =>
    have hscalar : readValue depth (c.text ++ rest) = readScalar (c.text ++ rest) :=
      readValue_scalar (by cases c <;> simp [Constant.text])
    rw [Source.text, hscalar, c.took_readScalar, Source.denote]
    rfl
  | .number n, depth =>
    rw [Source.text, n.readValue_eq, n.took_readScalar h, Source.denote]
  | .string marks, depth =>
    rw [Source.text, List.cons_append, took_readValue_string, took_readString, Source.denote]
    rfl
  | .emptyArray _, 0 | .array _ _, 0 | .emptyObject _, 0 | .object _ _, 0 =>
    rw [Source.text, List.cons_append, readValue, Source.denote]
    rfl
  | .emptyArray inside, depth + 1 =>
    have hs : skipSpace (inside.text ++ [']'] ++ rest) = ']' :: rest := by
      rw [List.append_assoc]
      exact skipSpace_blanks_cons inside (by decide)
    rw [Source.text, List.cons_append, took_readValue_emptyArray hs, Source.denote]
    rfl
  | .array before items, depth + 1 =>
    have hs : skipSpace (before.text ++ items.text ++ rest) = items.text ++ rest := by
      rw [List.append_assoc, skipSpace_blanks, items.skipSpace_text]
    have hne : ∀ t, skipSpace (before.text ++ items.text ++ rest) ≠ ']' :: t := by
      obtain ⟨c, u, hc, -, hclose⟩ := items.exists_cons
      rw [hs, hc]
      exact fun t ht => hclose (List.cons_eq_cons.mp ht).1
    rw [Source.text, List.cons_append, took_readValue_array hne, hs, items.took_readItems,
      Source.denote]
    cases items.denote depth <;> rfl
  | .emptyObject inside, depth + 1 =>
    have hs : skipSpace (inside.text ++ ['\x7d'] ++ rest) = '\x7d' :: rest := by
      rw [List.append_assoc]
      exact skipSpace_blanks_cons inside (by decide)
    rw [Source.text, List.cons_append, took_readValue_emptyObject hs, Source.denote]
    rfl
  | .object before members, depth + 1 =>
    have hs : skipSpace (before.text ++ members.text ++ rest) = members.text ++ rest := by
      rw [List.append_assoc, skipSpace_blanks, members.skipSpace_text]
    have hne : ∀ t, skipSpace (before.text ++ members.text ++ rest) ≠ '\x7d' :: t := by
      obtain ⟨u, hu⟩ := members.exists_cons
      rw [hs, hu]
      exact fun t ht => absurd (List.cons_eq_cons.mp ht).1 (by decide)
    rw [Source.text, List.cons_append, took_readValue_object hne, hs, members.took_readMembers,
      Source.denote]
    cases members.denote depth <;> rfl

/-- The items of an array are read as what they denote. -/
theorem Items.took_readItems (items : Items) (depth : Nat) (rest : Text) :
    took (readItems (readValue depth) (items.text ++ rest)) =
      (items.denote depth).map fun js => (js, rest) := by
  match items with
  | .last v after =>
    have hv := v.took_readValue depth (stops_blanks after (c := ']') (s := rest) (by decide))
    rw [Items.text, Items.denote, List.append_assoc, List.append_assoc, List.singleton_append]
    cases hd : v.denote depth with
    | error e =>
      rw [hd] at hv
      exact took_readItems_error hv
    | ok j =>
      rw [hd] at hv
      exact took_readItems_last hv (skipSpace_blanks_cons after (by decide))
  | .more v after before items =>
    have hv := v.took_readValue depth
      (stops_blanks after (c := ',') (s := before.text ++ (items.text ++ rest)) (by decide))
    have hitems := items.took_readItems depth rest
    rw [Items.text, Items.denote, List.append_assoc, List.append_assoc, List.cons_append,
      List.append_assoc]
    cases hd : v.denote depth with
    | error e =>
      rw [hd] at hv
      exact took_readItems_error hv
    | ok j =>
      rw [hd] at hv
      rw [took_readItems_more hv (skipSpace_blanks_cons after (by decide)), skipSpace_blanks,
        items.skipSpace_text, hitems]
      cases items.denote depth <;> rfl

/-- The members of an object are read as what they denote. -/
theorem Members.took_readMembers (members : Members) (depth : Nat) (rest : Text) :
    took (readMembers (readValue depth) (members.text ++ rest)) =
      (members.denote depth).map fun ms => (ms, rest) := by
  match members with
  | .last name colon before v after =>
    have hv := v.took_readValue depth (stops_blanks after (c := '\x7d') (s := rest) (by decide))
    rw [← v.skipSpace_text, ← skipSpace_blanks before] at hv
    have htext : (Members.last name colon before v after).text ++ rest =
        '"' :: (closedText name ++ (colon.text ++ ':' :: (before.text ++
          (v.text ++ (after.text ++ '\x7d' :: rest))))) := by simp [Members.text]
    rw [htext, Members.denote]
    have hcolon := skipSpace_blanks_cons colon (c := ':')
      (s := before.text ++ (v.text ++ (after.text ++ '\x7d' :: rest))) (by decide)
    cases hd : v.denote depth with
    | error e =>
      rw [hd] at hv
      exact readMembers_value_error (took_readString name _) hcolon hv
    | ok j =>
      rw [hd] at hv
      exact took_readMembers_last (took_readString name _) hcolon hv
        (skipSpace_blanks_cons after (by decide))
  | .more name colon before v after next members =>
    have hv := v.took_readValue depth
      (stops_blanks after (c := ',') (s := next.text ++ (members.text ++ rest)) (by decide))
    rw [← v.skipSpace_text, ← skipSpace_blanks before] at hv
    have hmembers := members.took_readMembers depth rest
    have htext : (Members.more name colon before v after next members).text ++ rest =
        '"' :: (closedText name ++ (colon.text ++ ':' :: (before.text ++
          (v.text ++ (after.text ++ ',' :: (next.text ++ (members.text ++ rest))))))) := by
      simp [Members.text]
    rw [htext, Members.denote]
    have hcolon := skipSpace_blanks_cons colon (c := ':')
      (s := before.text ++ (v.text ++ (after.text ++ ',' :: (next.text ++ (members.text ++ rest)))))
      (by decide)
    cases hd : v.denote depth with
    | error e =>
      rw [hd] at hv
      exact readMembers_value_error (took_readString name _) hcolon hv
    | ok j =>
      rw [hd] at hv
      rw [took_readMembers_more (took_readString name _) hcolon hv
        (skipSpace_blanks_cons after (by decide)), skipSpace_blanks, members.skipSpace_text,
        hmembers]
      cases members.denote depth <;> rfl

end

end Json

end ServerPages
