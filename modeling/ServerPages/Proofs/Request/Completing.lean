import ServerPages.Proofs.Json.Prospect.Values
import ServerPages.Proofs.Text.Decoding

/-!
# Messages that can be completed

A message that is given as incomplete may or may not be completed by more bytes. It can be exactly
if reading stands where something that was expected has begun (`Message.canComplete_iff`). Whether
a message is given as incomplete is told from the text behind the place of a complaint alone, so
there are messages of which it is said although nothing can complete them
(`Message.incomplete_wrongName`).
-/

namespace ServerPages

theorem Text.trimLeft_append_of_ne_nil {s : Text} (h : Text.trimLeft s ≠ []) (u : Text) :
    Text.trimLeft (s ++ u) = Text.trimLeft s ++ u := dropWhile_append_of_ne_nil h u

private theorem Text.trimLeft_append_of_eq_nil {s : Text} (h : Text.trimLeft s = []) (u : Text) :
    Text.trimLeft (s ++ u) = Text.trimLeft u := dropWhile_append_of_eq_nil h u

namespace Json

variable {s : Text}

/-- Reading has come to a value, or stands where something that was expected has begun: at a
beginning of it, or at the point or the exponent of a number, which a zero completes. -/
def Pends (s : Text) : Prop :=
  match read s with
  | .ok _ => True
  | .error (.refused c rest) =>
    c.Awaits rest ∨
      c = .expectingComma ∧ read (s ++ ['0']) = .error (.refused .expectingComma [])
  | .error _ => False

private theorem pends_of_ok {p : Json × Text} (h : read s = .ok p) : Pends s := by
  rw [Pends, h]
  trivial

/-- If a text is refused, it must be for something that has begun or for a number. -/
theorem pends_iff_of_error {e : Refusal} (h : read s = .error e) :
    Pends s ↔ e.Awaits ∨ ∃ tail, e = .refused .expectingComma tail ∧
      read (s ++ ['0']) = .error (.refused .expectingComma []) := by
  rw [Pends, h]
  cases e with
  | refused c rest =>
    refine or_congr_right ⟨?_, ?_⟩
    · rintro ⟨rfl, hzero⟩
      exact ⟨rest, rfl, hzero⟩
    · rintro ⟨tail, heq, hzero⟩
      cases heq
      exact ⟨rfl, hzero⟩
  | tooDeep | tooManyDigits => exact iff_of_false id (by rintro (h | ⟨_, h, -⟩) <;> cases h)

/-- **Values that go on.** More text can make a value of a text exactly if reading it stands so.
The text must not end in a number that is too long for an integer. -/
theorem exists_read_iff (h : (∀ k, read s ≠ .error (.tooManyDigits k)) ∨
      ∀ c ∈ s.getLast?, isNumberChar c = false) :
    (∃ u j r, read (s ++ u) = .ok (j, r)) ↔ Pends s := by
  have hover : ∀ {k}, read s = .error (.tooManyDigits k) →
      ¬ ∃ c ∈ s.getLast?, isNumberChar c = true := fun hk ⟨c, hc, hnum⟩ => by
    rcases h with h | h
    · exact h _ hk
    · rw [h c hc] at hnum
      cases hnum
  have hok : ∀ {p}, read s = .ok p → ((∃ u j r, read (s ++ u) = .ok (j, r)) ↔ Pends s) :=
    fun {p} hp => iff_of_true ⟨[], p.1, p.2, by rw [List.append_nil, hp]⟩ (pends_of_ok hp)
  have hclosable : IsClosable (valueReading nestingLimit) s →
      ∃ u j r, read (s ++ u) = .ok (j, r) := by
    rintro ⟨u, j, hu⟩
    refine ⟨u, j, [], ?_⟩
    have hread := hu [] NumberText.IsTail.nil.stops
    rwa [List.append_nil] at hread
  rcases value_prospect nestingLimit s with hopen | hs
  -- an open number has its value, unless it is too long for an integer
  · obtain ⟨n, tail, hn, ht⟩ := id hopen
    have hread : read (n.text ++ tail) = _ := n.took_readValue ht.isTail.stops
    rw [← hn] at hread
    rcases n.numeral.value_cases with ⟨j, hj⟩ | ⟨k, hk⟩
    · rw [hj] at hread
      exact hok hread
    · rw [hk] at hread
      exact absurd hopen.exists_last (hover hread)
  cases hs with
  | taken _ h => exact hok (of_append_nil (h []))
  | @failed e h ha =>
    have hs : read s = .error e := e.extend_nil ▸ of_append_nil (h [])
    rw [pends_iff_of_error hs]
    -- a zero is one of the texts that do not change the refusal
    refine iff_of_false ?_ ?_
    · rintro ⟨u, j, r, hu⟩
      cases (h u).symm.trans hu
    · rintro (hawaits | ⟨tail, rfl, hzero⟩)
      · exact ha hawaits
      · have heq := Except.error.inj ((h ['0']).symm.trans hzero)
        exact List.append_ne_nil_of_right_ne_nil tail (List.cons_ne_nil '0' [])
          (Refusal.refused.inj heq).2
  | awaiting h ha hm => exact iff_of_true (hclosable hm) ((pends_iff_of_error h).mpr (.inl ha))
  | resuming h htail hne hd hm =>
    exact iff_of_true (hclosable hm) ((pends_iff_of_error h).mpr (.inr ⟨_, rfl, hd⟩))
  | overflowing h hlast => exact absurd hlast (hover h)

end Json

namespace Message

variable {d : Bytes} {cause : Cause}

/-- More bytes can make the bytes UTF-8 that begins, behind white space, with a JSON value. -/
def CanComplete (d : Bytes) : Prop :=
  ∃ e t j r, Utf8.decode (d ++ e) = .ok t ∧ Json.read (Text.trimLeft t) = .ok (j, r)

/-- What the bytes say, if need be with their last character completed, is a text to which something
that is expected may still come. -/
def IsPending (d : Bytes) : Prop := ∃ t, Utf8.Begins d t ∧ Json.Pends (Text.trimLeft t)

private theorem pends_nil : Json.Pends [] :=
  (Json.pends_iff_of_error (Json.spacedValue_nil (s := []) rfl)).mpr (.inl (by decide))

/-- Numbers are written in ASCII. -/
theorem isNumberChar_eq_false {c : Char} (h : 0x80 ≤ c.val.toNat) :
    Json.isNumberChar c = false := by
  rw [Bool.eq_false_iff]
  intro hc
  rcases Bool.or_eq_true_iff.mp hc with hdigit | hmem
  · have hle : c.val ≤ '9'.val := of_decide_eq_true (Bool.and_eq_true_iff.mp hdigit).2
    have hle : c.val.toNat ≤ 0x39 := UInt32.le_iff_toNat_le.mp hle
    omega
  · have hall : "+-.eE".toList.all fun x => x.val.toNat < 0x80 := by decide
    have hlt := List.all_eq_true.mp hall c (of_decide_eq_true hmem)
    exact absurd (of_decide_eq_true hlt) (Nat.not_lt.mpr h)

/-- Bytes whose text ends in a number that is too long. -/
theorem decode_of_tooManyDigits {t : Text} {k : Nat} (ht : Utf8.decode d = .ok t)
    (hr : Json.read (Text.trimLeft t) = .error (.tooManyDigits k)) :
    decode d = .error (.tooManyDigits k) := by
  rw [decode, ht]
  dsimp only
  rw [hr]

/-- The text that bytes begin does not end in a number that is too long for an integer, if they are
not refused for one. -/
theorem not_overflowing (hd : ∀ k, decode d ≠ .error (.tooManyDigits k)) {t : Text}
    (ht : Utf8.Begins d t) :
    (∀ k, Json.read (Text.trimLeft t) ≠ .error (.tooManyDigits k)) ∨
      ∀ c ∈ (Text.trimLeft t).getLast?, Json.isNumberChar c = false := by
  cases ht with
  | whole h =>
    left
    exact fun k hk => hd k (decode_of_tooManyDigits (Utf8.decode_eq_ok_iff.mpr h) hk)
  | @broken s p c h hne hp hs =>
    right
    intro c' hc'
    obtain ⟨x, hx⟩ : Text.trimLeft t <:+ t := List.dropWhile_suffix _
    have hlast : c' ∈ (s ++ [c]).getLast? := by
      rw [← hs, ← hx]
      exact List.mem_getLast?_append_of_mem_getLast? hc'
    obtain rfl : c = c' := by simpa using hlast
    exact isNumberChar_eq_false (Utf8.le_of_cut_encodeChar hp hne)

private theorem canComplete_of_isPending (hd : ∀ k, decode d ≠ .error (.tooManyDigits k))
    (h : IsPending d) : CanComplete d := by
  obtain ⟨t, ht, hpends⟩ := h
  obtain ⟨e, he⟩ := ht.exists_append
  have hdecode : ∀ u, Utf8.decode (d ++ (e ++ Utf8.encode u)) = .ok (t ++ u) := fun u => by
    rw [← List.append_assoc, he, ← Utf8.encode_append, Utf8.decode_encode]
  by_cases hnil : Text.trimLeft t = []
  · refine ⟨_, _, .int 0, [], hdecode ['0'], ?_⟩
    rw [Text.trimLeft_append_of_eq_nil hnil]
    exact Json.spacedValue_zero Json.NumberText.IsTail.nil.stops
  · obtain ⟨u, j, r, hu⟩ := (Json.exists_read_iff (not_overflowing hd ht)).mpr hpends
    refine ⟨_, _, j, r, hdecode u, ?_⟩
    rw [Text.trimLeft_append_of_ne_nil hnil, hu]

private theorem isPending_of_canComplete (hd : ∀ k, decode d ≠ .error (.tooManyDigits k))
    (h : CanComplete d) : IsPending d := by
  obtain ⟨e, t, j, r, ht, hread⟩ := h
  -- the bytes may stop within a character, which is the last one of the text that they begin
  obtain ⟨s, u, rfl, hs⟩ := Utf8.exists_begins ⟨e, Utf8.decode_eq_ok_iff.mp ht⟩
  refine ⟨s, hs, ?_⟩
  by_cases hnil : Text.trimLeft s = []
  · rw [hnil]
    exact pends_nil
  · rw [Text.trimLeft_append_of_ne_nil hnil] at hread
    exact (Json.exists_read_iff (not_overflowing hd hs)).mp ⟨u, j, r, hread⟩

/-- **Messages that can be completed.** An incomplete message can be completed to UTF-8 that begins
with a JSON value exactly if reading it stands where something that was expected has begun. -/
theorem canComplete_iff (h : decode d = .error (.incomplete cause)) :
    CanComplete d ↔ IsPending d := by
  have hd : ∀ k, decode d ≠ .error (.tooManyDigits k) := fun k hk => by
    rw [h] at hk
    cases hk
  exact ⟨isPending_of_canComplete hd, canComplete_of_isPending hd⟩

/-- A text that is refused, as bytes. -/
theorem decode_of_refused {t : Text} {c : Json.Complaint} {rest : Text}
    (ht : Utf8.decode d = .ok t) (hr : Json.read (Text.trimLeft t) = .error (.refused c rest)) :
    decode d = .error (if isTruncated c rest then .incomplete (.json c (.of (Text.trimLeft t) rest))
      else .malformed (.json c (.of (Text.trimLeft t) rest))) := by
  rw [decode, ht]
  dsimp only
  rw [hr]

/-- A text that is refused as one that stops too early. -/
theorem incomplete_of_refused {t : Text} {c : Json.Complaint} {rest : Text}
    (ht : Text.trimLeft t = t) (hr : Json.read t = .error (.refused c rest))
    (h : isTruncated c rest = true) :
    decode (Utf8.encode t) = .error (.incomplete (.json c (.of t rest))) := by
  have hd := decode_of_refused (t := t) (Utf8.decode_encode t) (by rw [ht, hr])
  rwa [if_pos h, ht] at hd

/-- An array that ends behind its first item, or goes on with neither a comma nor a bracket. -/
theorem read_array_expectingComma (s rest : Text) {j : Json}
    (hopen : ∀ t, Json.skipSpace s ≠ ']' :: t)
    (h : Json.spacedValue Json.innerLimit s = .ok (j, rest))
    (hclose : ∀ t, Json.skipSpace rest ≠ ']' :: t) (hcomma : ∀ t, Json.skipSpace rest ≠ ',' :: t) :
    Json.read ('[' :: s) = .error (.refused .expectingComma (Json.skipSpace rest)) := by
  have hitems : Json.spacedItems Json.innerLimit s = _ :=
    Json.readItems_expectingComma h hclose hcomma
  rw [Json.read_array hopen, hitems]
  rfl

private theorem read_openNumber : Json.read "[1.".toList = .error (.refused .expectingComma ['.']) :=
  read_array_expectingComma "1.".toList ['.'] (fun _ => nofun) rfl (fun _ => nofun) fun _ => nofun

private theorem read_completedNumber : Json.read "[1.0".toList = .error (.refused .expectingComma []) :=
  read_array_expectingComma "1.0".toList [] (fun _ => nofun) rfl (fun _ => nofun) fun _ => nofun

/-- An array that stops at the point of a number is incomplete and can be completed. -/
theorem canComplete_openNumber :
    decode (Utf8.encode "[1.".toList) = .error (.incomplete (.json .expectingComma ⟨1, 3, 2⟩)) ∧
      CanComplete (Utf8.encode "[1.".toList) := by
  have hd := incomplete_of_refused rfl read_openNumber rfl
  refine ⟨hd, (canComplete_iff hd).mpr ⟨"[1.".toList, .whole rfl, ?_⟩⟩
  exact (Json.pends_iff_of_error read_openNumber).mpr (.inr ⟨_, rfl, read_completedNumber⟩)

private theorem read_wrongName (u : Text) :
    Json.read ('\x7b' :: 't' :: u) = .error (.refused .expectingName ('t' :: u)) := by
  have hopen : ∀ t, Json.skipSpace ('t' :: u) ≠ '\x7d' :: t := fun t ht =>
    absurd (List.cons_eq_cons.mp ht).1 (by decide)
  have hmembers : Json.spacedMembers Json.innerLimit ('t' :: u) =
      .error (.refused .expectingName ('t' :: u)) :=
    Json.readMembers_expectingName fun h => absurd (Option.some.inj h) (by decide)
  rw [Json.read_object hopen, hmembers]
  rfl

/-- **A message is waited for in vain.** An object that begins with a letter where its first name
must stand is given as incomplete, but nothing completes it. -/
theorem incomplete_wrongName :
    decode (Utf8.encode "\x7bt".toList) = .error (.incomplete (.json .expectingName ⟨1, 2, 1⟩)) ∧
      ¬ CanComplete (Utf8.encode "\x7bt".toList) := by
  refine ⟨incomplete_of_refused rfl (read_wrongName []) rfl, ?_⟩
  rintro ⟨e, t, j, r, ht, hread⟩
  obtain ⟨u, rfl⟩ := Utf8.exists_append_of_decode ht
  cases (read_wrongName u).symm.trans hread

end Message

end ServerPages
