import ServerPages.Proofs.Json.Cutting

/-!
# What more text can make of a reading

A text is read while it is still arriving, and the question is what more text behind it can change.
`Prospect` gives the answers for a reader and a text: something has been taken and is taken again,
a refusal stays, or the text stops where something may still come. `Complaint.Awaits` says of each
complaint which texts behind its place are beginnings of what was expected there.

The lemmas here carry a prospect from a part of a text to the whole.
-/

namespace ServerPages

instance {α : Type} [DecidableEq α] (p s : List α) : Decidable (Cut p s) :=
  decidable_of_iff (p <+: s ∧ p ≠ s) ⟨fun h => ⟨h.1, h.2⟩, fun h => ⟨h.isPrefix, h.ne⟩⟩

section DropWhile

variable {α : Type} {p : α → Bool} {s : List α}

theorem dropWhile_append_of_ne_nil (h : s.dropWhile p ≠ []) (u : List α) :
    (s ++ u).dropWhile p = s.dropWhile p ++ u := by
  rw [List.dropWhile_append, if_neg (by simpa using h)]

theorem dropWhile_append_of_eq_nil (h : s.dropWhile p = []) (u : List α) :
    (s ++ u).dropWhile p = u.dropWhile p := by
  rw [List.dropWhile_append, if_pos (by simpa using h)]

end DropWhile

namespace Json

/-- A reader: what it takes off a text, and the rest. -/
abbrev Reading (α : Type) := Text → Except Refusal (α × Text)

/-- What stands at the place of a complaint is a beginning of what was expected there, so that more
text can mend it: nothing at all, a part of a constant or a sign, an open string, or a code that
lacks digits or the character behind them. -/
def Complaint.Awaits : Complaint → Text → Prop
  | .expectingValue, rest => ∃ c ∈ constants.map (·.1), Cut rest c
  | .expectingName, rest | .expectingColon, rest | .expectingComma, rest => rest = []
  | .openString, _ => True
  | .badUnicodeEscape, rest => rest.length < 6 ∧ ∀ c ∈ rest.tail, (hexDigit? c).isSome
  | .controlCharacter, _ | .badEscape, _ => False

instance : ∀ (c : Complaint) (rest : Text), Decidable (c.Awaits rest)
  | .expectingValue, rest =>
    inferInstanceAs (Decidable (∃ c ∈ constants.map (·.1), Cut rest c))
  | .expectingName, rest | .expectingColon, rest | .expectingComma, rest =>
    inferInstanceAs (Decidable (rest = []))
  | .openString, _ => .isTrue trivial
  | .badUnicodeEscape, _ => inferInstanceAs (Decidable (_ ∧ _))
  | .controlCharacter, _ | .badEscape, _ => .isFalse id

/-- A refusal that more text can mend. -/
def Refusal.Awaits : Refusal → Prop
  | .refused c rest => c.Awaits rest
  | .tooDeep | .tooManyDigits _ => False

instance : ∀ e : Refusal, Decidable e.Awaits
  | .refused c rest => inferInstanceAs (Decidable (c.Awaits rest))
  | .tooDeep | .tooManyDigits _ => .isFalse id

/-- A refusal with more text behind the place it complains of. -/
def Refusal.extend (u : Text) : Refusal → Refusal
  | .refused c rest => .refused c (rest ++ u)
  | e => e

theorem Refusal.extend_nil (e : Refusal) : e.extend [] = e := by
  cases e with
  | refused c rest => rw [extend, List.append_nil]
  | tooDeep | tooManyDigits => rfl

/-- The characters that numbers are made of. -/
def isNumberChar (c : Char) : Bool := Decimal.isDigit c || c ∈ "+-.eE".toList

/-- What more text can make of a reading; `Mends` says how it can be brought to an end. -/
inductive Prospect {α : Type} (R : Reading α) (s : Text) (Mends : Prop) : Prop
  /-- Something has been taken, and nothing changes it. -/
  | taken {a : α} {rest : Text} (hsuffix : rest <:+ s) (h : ∀ u, R (s ++ u) = .ok (a, rest ++ u))
  /-- The text is refused, and nothing changes that. -/
  | failed {e : Refusal} (h : ∀ u, R (s ++ u) = .error (e.extend u)) (ha : ¬ e.Awaits)
  /-- What was expected has begun. -/
  | awaiting {e : Refusal} (h : R s = .error e) (ha : e.Awaits) (hm : Mends)
  /-- A number has come to its point or its exponent, which a digit will complete. -/
  | resuming {tail : Text} (h : R s = .error (.refused .expectingComma tail))
      (htail : NumberText.IsTail tail) (hne : tail ≠ [])
      (hd : R (s ++ ['0']) = .error (.refused .expectingComma [])) (hm : Mends)
  /-- A number at the end is too long for an integer. -/
  | overflowing {k : Nat} (h : R s = .error (.tooManyDigits k))
      (hlast : ∃ c ∈ s.getLast?, isNumberChar c = true)

variable {α β : Type} {R : Reading α} {R' : Reading β} {s s' : Text} {Mends Mends' : Prop}

theorem exists_getLast?_of_suffix {p : Char → Prop} (hs : s <:+ s') (h : ∃ c ∈ s.getLast?, p c) :
    ∃ c ∈ s'.getLast?, p c := by
  obtain ⟨x, rfl⟩ := hs
  obtain ⟨c, hc, hp⟩ := h
  exact ⟨c, List.mem_getLast?_append_of_mem_getLast? hc, hp⟩

/-- What holds with any text behind a text holds with none. -/
theorem of_append_nil {r : Except Refusal (α × Text)} (h : R (s ++ []) = r) : R s = r := by
  rwa [List.append_nil] at h

/-- What has been taken is taken again with more text behind it. -/
theorem Prospect.of_ok {a : α} {rest : Text} (h : Prospect R s Mends) (hs : R s = .ok (a, rest)) :
    rest <:+ s ∧ ∀ u, R (s ++ u) = .ok (a, rest ++ u) := by
  cases h with
  | taken hsuffix h =>
    have heq := of_append_nil (h [])
    rw [List.append_nil, hs] at heq
    cases heq
    exact ⟨hsuffix, h⟩
  | failed h => rw [of_append_nil (h [])] at hs; cases hs
  | awaiting h | resuming h | overflowing h => rw [h] at hs; cases hs

/-- A reader that hands on what a part is refused for has the part's prospect, if that is
refused. -/
theorem Prospect.lift_error {e : Refusal} (h : Prospect R s Mends) (hs : R s = .error e)
    (hsuffix : s <:+ s') (hR : ∀ u {e}, R (s ++ u) = .error e → R' (s' ++ u) = .error e)
    (hm : Mends → Mends') : Prospect R' s' Mends' := by
  have hR₀ : ∀ {e}, R s = .error e → R' s' = .error e := fun he =>
    of_append_nil (hR [] (by rwa [List.append_nil]))
  cases h with
  | taken _ h =>
    rw [of_append_nil (h [])] at hs
    cases hs
  | failed h ha => exact .failed (fun u => hR u (h u)) ha
  | awaiting h ha hmends => exact .awaiting (hR₀ h) ha (hm hmends)
  | resuming h htail hne hd hmends => exact .resuming (hR₀ h) htail hne (hR _ hd) (hm hmends)
  | overflowing h hlast => exact .overflowing (hR₀ h) (exists_getLast?_of_suffix hsuffix hlast)

/-- A reader that takes a part and hands its rest on has the part's prospect. -/
theorem Prospect.lift {f : α → β} (h : Prospect R s Mends) (hsuffix : s <:+ s')
    (hR : ∀ u, R' (s' ++ u) = (R (s ++ u)).map fun p => (f p.1, p.2))
    (hm : Mends → Mends') : Prospect R' s' Mends' := by
  cases hs : R s with
  | error e =>
    refine h.lift_error hs hsuffix (fun u e he => ?_) hm
    rw [hR, he]
    rfl
  | ok p =>
    obtain ⟨hrest, htaken⟩ := h.of_ok hs
    refine .taken (a := f p.1) (hrest.trans hsuffix) fun u => ?_
    rw [hR, htaken u]
    rfl

end Json

end ServerPages
