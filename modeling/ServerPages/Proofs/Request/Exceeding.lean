import ServerPages.Proofs.Json.Bounds
import ServerPages.Proofs.Request.Refusing

/-!
# Messages beyond the bounds

Bytes are accepted as a message or refused as none, unless reading them comes to a container that is
opened within too many others, or to an integer that is too long (`Message.answered_iff`). Such bytes
are neither: what goes wrong with them is no decoding error (`Message.unanswered_tower`).
-/

namespace ServerPages

namespace Message

open Json (Part)

variable {d : Bytes} {t s : Text}

/-- Reading a text fails as reading a value does. -/
theorem read_eq_error_iff {e : Json.Refusal} :
    Json.read s = .error e ↔ Part.value.rest Json.nestingLimit s = .error e := by
  rw [read_eq]
  exact Json.left_eq_error.symm

private theorem decode_of_tooDeep (ht : Utf8.decode d = .ok t)
    (hr : Json.read (Text.trimLeft t) = .error .tooDeep) : decode d = .error .tooDeep := by
  rw [decode, ht]
  dsimp only
  rw [hr]

/-- What reading comes to decides on bytes that are text: they are answered if it is not stopped at
a bound. -/
theorem decode_cases (ht : Utf8.decode d = .ok t) :
    (decode d = .error .tooDeep ∧ Json.read (Text.trimLeft t) = .error .tooDeep) ∨
      (∃ k, decode d = .error (.tooManyDigits k) ∧
        Json.read (Text.trimLeft t) = .error (.tooManyDigits k)) ∨
      ((∀ f, decode d = .error f → f.isRefusal = true) ∧
        ∀ e, Json.read (Text.trimLeft t) = .error e → ∃ c r, e = .refused c r) := by
  cases hr : Json.read (Text.trimLeft t) with
  | error e =>
    cases e with
    | tooDeep => exact .inl ⟨decode_of_tooDeep ht hr, rfl⟩
    | tooManyDigits k => exact .inr (.inl ⟨k, decode_of_tooManyDigits ht hr, rfl⟩)
    | refused c r =>
      refine .inr (.inr ⟨fun f hf => ?_, fun e he => ⟨c, r, (Except.error.inj he).symm⟩⟩)
      rw [decode_of_refused ht hr] at hf
      rw [← Except.error.inj hf]
      split <;> rfl
  | ok p =>
    refine .inr (.inr ⟨fun f hf => ?_, nofun⟩)
    rw [decode_of_read ht hr] at hf
    cases hshape : (Shape.envelope p.1).toExcept with
    | ok env =>
      rw [hshape] at hf
      cases hf
    | error issues =>
      rw [hshape] at hf
      rw [← Except.error.inj hf]
      rfl

/-- Bytes that are no text are refused. -/
theorem isRefusal_of_fault {fault : Utf8.Fault} (h : Utf8.decode d = .error fault) :
    ∃ f, decode d = .error f ∧ f.isRefusal = true := by
  refine ⟨_, by rw [decode, h], ?_⟩
  split <;> rfl

/-- What fails without a decoding error is text. -/
theorem exists_text_of_not_isRefusal {f : Failure} (h : decode d = .error f)
    (hf : f.isRefusal = false) : ∃ t, Utf8.decode d = .ok t := by
  cases ht : Utf8.decode d with
  | ok t => exact ⟨t, rfl⟩
  | error fault =>
    obtain ⟨f', hf', hrefusal⟩ := isRefusal_of_fault ht
    rw [Except.error.inj (hf'.symm.trans h), hf] at hrefusal
    cases hrefusal

private theorem decode_eq_tooDeep_iff : decode d = .error .tooDeep ↔ ∃ t, Utf8.decode d = .ok t ∧
    Part.value.NestsBeyond Json.nestingLimit (Text.trimLeft t) := by
  simp_rw [← Part.rest_eq_tooDeep_iff, ← read_eq_error_iff]
  refine ⟨fun h => ?_, fun ⟨t, ht, hr⟩ => decode_of_tooDeep ht hr⟩
  obtain ⟨t, ht⟩ := exists_text_of_not_isRefusal h rfl
  obtain ⟨-, hr⟩ | ⟨k, hk, -⟩ | ⟨hall, -⟩ := decode_cases ht
  · exact ⟨t, ht, hr⟩
  · cases hk.symm.trans h
  · cases hall _ h

private theorem decode_eq_tooManyDigits_iff : (∃ k, decode d = .error (.tooManyDigits k)) ↔
    ∃ t, Utf8.decode d = .ok t ∧ Part.value.HasOverlong (Text.trimLeft t) ∧
      ¬ Part.value.NestsBeyond Json.nestingLimit (Text.trimLeft t) := by
  simp_rw [← Part.rest_eq_tooManyDigits_iff, ← read_eq_error_iff]
  refine ⟨fun ⟨k, h⟩ => ?_, fun ⟨t, ht, k, hr⟩ => ⟨k, decode_of_tooManyDigits ht hr⟩⟩
  obtain ⟨t, ht⟩ := exists_text_of_not_isRefusal h rfl
  obtain ⟨hdeep, -⟩ | ⟨k, -, hr⟩ | ⟨hall, -⟩ := decode_cases ht
  · cases hdeep.symm.trans h
  · exact ⟨t, ht, k, hr⟩
  · cases hall _ h

/-- **Which bytes are answered.** Bytes make a message or are refused with a decoding error exactly
if, where they are text, reading it comes neither to a container opened within as many as may be open
nor to an integer that is too long. Otherwise the first of these tells what goes wrong. -/
theorem answered_iff (d : Bytes) :
    (((∃ env, decode d = .ok env) ∨ ∃ f, decode d = .error f ∧ f.isRefusal = true) ↔
      ∀ t, Utf8.decode d = .ok t →
        ¬ Part.value.NestsBeyond Json.nestingLimit (Text.trimLeft t) ∧
        ¬ Part.value.HasOverlong (Text.trimLeft t)) ∧
    ∀ t, Utf8.decode d = .ok t →
      (decode d = .error .tooDeep ↔
        Part.value.NestsBeyond Json.nestingLimit (Text.trimLeft t)) ∧
      ((∃ k, decode d = .error (.tooManyDigits k)) ↔
        Part.value.HasOverlong (Text.trimLeft t) ∧
          ¬ Part.value.NestsBeyond Json.nestingLimit (Text.trimLeft t)) := by
  have hdeep : ∀ t, Utf8.decode d = .ok t → (decode d = .error .tooDeep ↔
      Part.value.NestsBeyond Json.nestingLimit (Text.trimLeft t)) := fun t ht => by
    rw [decode_eq_tooDeep_iff, ht]
    exact ⟨fun ⟨_, heq, h⟩ => Except.ok.inj heq ▸ h, fun h => ⟨t, rfl, h⟩⟩
  have hlong : ∀ t, Utf8.decode d = .ok t → ((∃ k, decode d = .error (.tooManyDigits k)) ↔
      Part.value.HasOverlong (Text.trimLeft t) ∧
        ¬ Part.value.NestsBeyond Json.nestingLimit (Text.trimLeft t)) := fun t ht => by
    rw [decode_eq_tooManyDigits_iff, ht]
    exact ⟨fun ⟨_, heq, h⟩ => Except.ok.inj heq ▸ h, fun h => ⟨t, rfl, h⟩⟩
  refine ⟨⟨fun hanswer t ht => ?_, fun hall => ?_⟩, fun t ht => ⟨hdeep t ht, hlong t ht⟩⟩
  · -- neither of the two faults is a refusal
    have hrefusal : ∀ f, decode d = .error f → f.isRefusal = true := fun f hf => by
      obtain ⟨env, henv⟩ | ⟨f', hf', h⟩ := hanswer
      · cases henv.symm.trans hf
      · exact Except.error.inj (hf'.symm.trans hf) ▸ h
    have hnest : ¬ Part.value.NestsBeyond Json.nestingLimit (Text.trimLeft t) := fun h => by
      cases hrefusal _ ((hdeep t ht).mpr h)
    refine ⟨hnest, fun h => ?_⟩
    obtain ⟨k, hk⟩ := (hlong t ht).mpr ⟨h, hnest⟩
    cases hrefusal _ hk
  · cases hd : decode d with
    | ok env => exact .inl ⟨env, rfl⟩
    | error f =>
      refine .inr ⟨f, rfl, ?_⟩
      cases ht : Utf8.decode d with
      | error fault =>
        obtain ⟨f', hf', h⟩ := isRefusal_of_fault ht
        exact Except.error.inj (hf'.symm.trans hd) ▸ h
      | ok t =>
        obtain ⟨h, -⟩ | ⟨k, hk, -⟩ | ⟨h, -⟩ := decode_cases ht
        · exact absurd ((hdeep t ht).mp h) (hall t ht).1
        · have := (hlong t ht).mp ⟨k, hk⟩
          exact absurd this.1 (hall t ht).2
        · exact h f hd

/-! ### A tower of arrays -/

/-- Arrays, each opened within the one before. -/
def tower (k : Nat) : Text := List.replicate k '['

private theorem nestsBeyond_tower (k m : Nat) : Part.value.NestsBeyond k (tower (m + k + 1)) := by
  induction k with
  | zero => exact ⟨.array, tower m, .here _⟩
  | succ k ih =>
    obtain ⟨c, t, h⟩ := ih
    have hskip : Json.skipSpace (tower (m + k + 1)) = tower (m + k + 1) :=
      Json.skipSpace_cons (by decide)
    have hopen : ∀ t, Json.skipSpace (tower (m + k + 1)) ≠ Json.Container.array.closing :: t :=
      fun t ht => absurd (List.cons_eq_cons.mp (hskip.symm.trans ht)).1 (by decide)
    exact ⟨c, t, .enter hopen (.element rfl (hskip.symm ▸ h))⟩

/-- **A message is not answered.** Arrays that nest deeper than they may are neither accepted nor
refused with a decoding error. -/
theorem unanswered_tower :
    let d := Utf8.encode (tower 2000)
    decode d = .error .tooDeep ∧ Failure.tooDeep.isRefusal = false := by
  intro d
  have htrim : Text.trimLeft (tower 2000) = tower 2000 := List.dropWhile_cons_of_neg (by decide)
  refine ⟨decode_eq_tooDeep_iff.mpr ⟨_, Utf8.decode_encode _, ?_⟩, rfl⟩
  rw [htrim]
  exact nestsBeyond_tower Json.nestingLimit 1009

end Message

end ServerPages
