import ServerPages.Proofs.Request.Completing
import ServerPages.Proofs.Request.Nulls
import ServerPages.Proofs.Request.Receiving

/-!
# Messages that are refused for good

A message that is refused for good is no beginning of an acceptable one, unless it stops within one
of the constants that stand beside JSON (`BreaksOff`): these are not waited for
(`Message.accepted_append_iff`).
-/

namespace ServerPages

namespace Message

variable {d e p : Bytes} {t s u : Text} {env : Envelope} {f : Failure}

/-- The constants that stand beside JSON. -/
def extraConstants : List Text := ["NaN".toList, "Infinity".toList, "-Infinity".toList]

/-- The bytes are an object that stops within one of the constants that stand beside JSON, behind
its first letter. -/
def BreaksOff (d : Bytes) : Prop :=
  ∃ t s rest, Utf8.decode d = .ok t ∧ Text.trimLeft t = '\x7b' :: s ∧
    Json.read (Text.trimLeft t) = .error (.refused .expectingValue rest) ∧
    (∃ c ∈ extraConstants, Cut rest c) ∧ rest ≠ [] ∧ rest ≠ ['-']

/-- A text that is read, as bytes. -/
theorem decode_of_read {j : Json} {r : Text} (ht : Utf8.decode d = .ok t)
    (hr : Json.read (Text.trimLeft t) = .ok (j, r)) :
    decode d = match (Shape.envelope j).toExcept with
      | .error issues => .error (.misshapen issues)
      | .ok env => .ok env := by
  cases hshape : (Shape.envelope j).toExcept with
  | _ =>
    rw [decode, ht]
    dsimp only
    rw [hr]
    dsimp only
    rw [hshape]

/-- An accepted message is an object with the shape of an envelope. -/
theorem exists_object (h : decode d = .ok env) : ∃ t s j r, Utf8.decode d = .ok t ∧
    Text.trimLeft t = '\x7b' :: s ∧ Json.read (Text.trimLeft t) = .ok (j, r) ∧
    (Shape.envelope j).toExcept = .ok env := by
  cases ht : Utf8.decode d with
  | error fault =>
    rw [decode, ht] at h
    cases h
  | ok t =>
    cases hr : Json.read (Text.trimLeft t) with
    | error e =>
      rw [decode, ht] at h
      dsimp only at h
      rw [hr] at h
      cases e <;> cases h
    | ok p =>
      obtain ⟨j, r⟩ := p
      rw [decode_of_read ht hr] at h
      cases hshape : (Shape.envelope j).toExcept with
      | error issues => rw [hshape] at h; cases h
      | ok env' =>
        rw [hshape] at h
        cases h
        -- nothing but an object has the shape of an envelope
        cases j with
        | object ms =>
          obtain ⟨s, hs⟩ := Json.exists_brace hr
          exact ⟨t, s, _, r, rfl, hs, hr, hshape⟩
        | _ => cases hshape

/-- More text behind an accepted message changes nothing. -/
theorem decode_append (h : decode d = .ok env) (ht : Utf8.decode (d ++ e) = .ok t) :
    decode (d ++ e) = .ok env := by
  obtain ⟨t₁, s, j, r, ht₁, hs, hr, hshape⟩ := exists_object h
  obtain rfl := Utf8.decode_eq_ok_iff.mp ht₁
  obtain ⟨u, rfl⟩ := Utf8.exists_append_of_decode ht
  have hread : Json.read (Text.trimLeft (t₁ ++ u)) = .ok (j, r ++ u) := by
    rw [Text.trimLeft_append_of_ne_nil (by rw [hs]; exact List.cons_ne_nil _ s)]
    rw [hs] at hr ⊢
    exact ((Json.brace_prospect s).of_ok hr).2 u
  rw [decode_of_read ht hread, hshape]

/-- Which beginnings of constants are not known as such. -/
theorem isTruncated_constant_eq_false_iff : ∀ n ∈ Json.constants.map (·.1), ∀ q ∈ n.inits, q ≠ n →
    (isTruncated .expectingValue q = false ↔
      (∃ n ∈ extraConstants, Cut q n) ∧ q ≠ [] ∧ q ≠ ['-']) := by
  decide

/-- What more text can mend but is not given as incomplete stops within one of the constants that
stand beside JSON. -/
theorem awaits_and_not_isTruncated_iff {c : Json.Complaint} {rest : Text} :
    c.Awaits rest ∧ isTruncated c rest = false ↔
      c = .expectingValue ∧ (∃ n ∈ extraConstants, Cut rest n) ∧ rest ≠ [] ∧ rest ≠ ['-'] := by
  constructor
  · rintro ⟨ha, ht⟩
    have hne : rest ≠ [] := by
      rintro rfl
      rw [Json.isTruncated_nil] at ht
      cases ht
    cases c with
    | expectingValue =>
      obtain ⟨n, hn, hcut⟩ := id ha
      have hinits := (List.mem_inits rest n).mpr hcut.isPrefix
      exact ⟨rfl, (isTruncated_constant_eq_false_iff n hn rest hinits hcut.ne).mp ht⟩
    | expectingName | expectingColon | expectingComma => exact absurd ha hne
    | openString => simp [isTruncated] at ht
    | badUnicodeEscape => simp [isTruncated, hne, ha.1.not_ge] at ht
    | controlCharacter | badEscape => exact absurd ha id
  · rintro ⟨rfl, ⟨n, hn, hcut⟩, hne, hsign⟩
    have hconstant : n ∈ Json.constants.map (·.1) :=
      (show ∀ n ∈ extraConstants, n ∈ Json.constants.map (·.1) by decide) n hn
    have hinits := (List.mem_inits rest n).mpr hcut.isPrefix
    exact ⟨⟨n, hconstant, hcut⟩, (isTruncated_constant_eq_false_iff n hconstant rest hinits
      hcut.ne).mpr ⟨⟨n, hn, hcut⟩, hne, hsign⟩⟩

/-- Bytes that more bytes complete to an accepted message encode a text, or stop within a
character. -/
theorem decode_beginning (h : decode (d ++ e) = .ok env) :
    (∃ t, Utf8.decode d = .ok t) ∨ IsIncomplete (decode d) := by
  obtain ⟨t, s, j, r, ht, -⟩ := exists_object h
  have he := Utf8.decode_eq_ok_iff.mp ht
  by_cases hcut : d = Utf8.encode t
  · exact .inl ⟨t, Utf8.decode_eq_ok_iff.mpr hcut⟩
  rcases Utf8.decode_cut ⟨⟨e, he⟩, hcut⟩ with ⟨t', -, ht'⟩ | ⟨fault, hfault, hend⟩
  · exact .inl ⟨t', ht'⟩
  · exact .inr (isIncomplete_of_unexpectedEnd hfault hend)

private theorem isIncomplete_of_refused {c : Json.Complaint} {rest : Text} (ht : Utf8.decode d = .ok t)
    (hr : Json.read (Text.trimLeft t) = .error (.refused c rest)) :
    IsIncomplete (decode d) ↔ isTruncated c rest = true := by
  rw [IsIncomplete, decode_of_refused ht hr]
  by_cases h : isTruncated c rest = true
  · exact iff_of_true ⟨_, by rw [if_pos h]⟩ h
  · refine iff_of_false (fun ⟨cause, hcause⟩ => ?_) h
    rw [if_neg h] at hcause
    cases hcause

/-- The text of a beginning of an accepted message begins an object, or nothing of it is there. -/
theorem trimLeft_beginning (hs : Text.trimLeft (t ++ u) = '\x7b' :: s) :
    Text.trimLeft t = [] ∨ ∃ s₁, Text.trimLeft t = '\x7b' :: s₁ ∧
      Text.trimLeft (t ++ u) = Text.trimLeft t ++ u := by
  by_cases hnil : Text.trimLeft t = []
  · exact .inl hnil
  · have happ := Text.trimLeft_append_of_ne_nil hnil u
    obtain ⟨c, s₁, hc⟩ := List.exists_cons_of_ne_nil hnil
    rw [happ, hc] at hs
    obtain rfl : c = '\x7b' := (List.cons_eq_cons.mp hs).1
    exact .inr ⟨s₁, hc, happ⟩

/-- A beginning of an accepted message that is given up breaks off, or ends in an integer that is
too long. -/
theorem breaksOff_of_accepted (hw : decode (d ++ e) = .ok env) (hd : decode d = .error f)
    (hf : ¬ IsIncomplete (decode d)) : BreaksOff d ∨ ∃ k, f = .tooManyDigits k := by
  obtain ⟨t₁, ht₁⟩ := (decode_beginning hw).resolve_right hf
  obtain ⟨t, s, j, r, ht, hs, hr, hshape⟩ := exists_object hw
  obtain rfl := Utf8.decode_eq_ok_iff.mp ht₁
  obtain ⟨u, rfl⟩ := Utf8.exists_append_of_decode ht
  rcases trimLeft_beginning hs with hnil | ⟨s₁, hs₁, happ⟩
  · have hread : Json.read (Text.trimLeft t₁) = .error (.refused .expectingValue []) := by
      rw [hnil]
      exact Json.spacedValue_nil (s := []) rfl
    exact absurd ((isIncomplete_of_refused ht₁ hread).mpr (Json.isTruncated_nil _)) hf
  have hprospect := Json.brace_prospect s₁
  rw [← hs₁] at hprospect
  rw [happ] at hr
  -- only where the object stops within a constant is it neither accepted nor waited for
  cases hprospect with
  | taken _ h =>
    have hread := Json.of_append_nil (h [])
    rw [decode_of_read ht₁ hread] at hd
    rw [h u] at hr
    cases hr
    rw [hshape] at hd
    cases hd
  | failed h =>
    rw [h u] at hr
    cases hr
  | @awaiting e h ha =>
    cases e with
    | refused c rest =>
      have htruncated : isTruncated c rest = false := by
        rw [Bool.eq_false_iff]
        exact fun htrue => hf ((isIncomplete_of_refused ht₁ h).mpr htrue)
      obtain ⟨rfl, hcut, hne, hsign⟩ := awaits_and_not_isTruncated_iff.mp ⟨ha, htruncated⟩
      exact .inl ⟨t₁, s₁, rest, ht₁, hs₁, h, hcut, hne, hsign⟩
    | tooDeep | tooManyDigits => exact absurd ha id
  | resuming h htail =>
    exact absurd ((isIncomplete_of_refused ht₁ h).mpr htail.isTruncated) hf
  | @overflowing k h =>
    exact .inr ⟨k, Except.error.inj (hd.symm.trans (decode_of_tooManyDigits ht₁ h))⟩

/-- Bytes that break off are given up. -/
theorem BreaksOff.exists_malformed (h : BreaksOff d) :
    ∃ cause, decode d = .error (.malformed cause) := by
  obtain ⟨t, s, rest, ht, hs, hr, hcut, hne, hsign⟩ := h
  have htruncated := (awaits_and_not_isTruncated_iff.mpr ⟨rfl, hcut, hne, hsign⟩).2
  exact ⟨_, by rw [decode_of_refused ht hr, if_neg (by simp [htruncated])]⟩

/-- More bytes make an acceptable message of bytes that break off. -/
theorem BreaksOff.exists_append (h : BreaksOff d) : ∃ e, decode (d ++ e) = .ok {} := by
  obtain ⟨t, s, rest, ht, hs, hr, hcut, hne, hsign⟩ := h
  obtain rfl := Utf8.decode_eq_ok_iff.mp ht
  have hawaits := (awaits_and_not_isTruncated_iff.mpr ⟨rfl, hcut, hne, hsign⟩).1
  rw [hs] at hr
  obtain ⟨u, ms, hu⟩ := Json.exists_read_nulls Shape.envelopeNames hr hawaits (by decide)
  have htrim : Text.trimLeft (t ++ u) = '\x7b' :: (s ++ u) := by
    rw [Text.trimLeft_append_of_ne_nil (by rw [hs]; exact List.cons_ne_nil _ s), hs]
    rfl
  refine ⟨Utf8.encode u, ?_⟩
  rw [← Utf8.encode_append, decode_of_read (Utf8.decode_encode (t ++ u)) (htrim ▸ hu),
    Shape.envelope_append_nulls]

/-! ### Final refusals -/

/-- The failure is a refusal that is not said to be mended by more bytes. -/
def Failure.IsFinal (f : Failure) : Prop := f.isRefusal = true ∧ ∀ cause, f ≠ .incomplete cause

/-- **Final refusals.** A message that is refused for good is a beginning of an acceptable one
exactly if it breaks off. -/
theorem accepted_append_iff (hd : decode d = .error f) (hf : f.IsFinal) :
    (∃ e env, decode (d ++ e) = .ok env) ↔ BreaksOff d := by
  constructor
  · rintro ⟨e, env, hw⟩
    have hinc : ¬ IsIncomplete (decode d) := fun ⟨cause, hcause⟩ => by
      rw [hd] at hcause
      exact hf.2 cause (Except.error.inj hcause)
    refine (breaksOff_of_accepted hw hd hinc).resolve_right fun ⟨k, hk⟩ => ?_
    rw [hk] at hf
    cases hf.1
  · intro h
    obtain ⟨e, he⟩ := h.exists_append
    exact ⟨e, {}, he⟩

end Message

end ServerPages
