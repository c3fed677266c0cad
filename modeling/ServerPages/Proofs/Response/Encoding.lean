import ServerPages.Response.Lines

/-!
# Headers that can be encoded

A header can be encoded if each of its lines can. In the structured form that asks of every signal
with a known key that its value be a text (`Header.isSome_encode?_structured`). The raw and the bare
form leave out what a report tells, so that a report never stands in their way
(`Header.isSome_encode?_failure`).
-/

namespace ServerPages

namespace Letter

variable {s t : List Letter}

/-- Letters can be encoded if they spell a text. -/
theorem isSome_encode?_iff : (encode? s).isSome ↔ ∃ t, s = ofText t := by
  rw [encode?, Option.isSome_map, Option.isSome_iff_exists]
  exact exists_congr fun t => text?_eq_some_iff

/-- Letters spell a text if each of them is a character. -/
theorem exists_ofText_iff : (∃ t, s = ofText t) ↔ ∀ l ∈ s, ∃ c, l = .char c := by
  constructor
  · rintro ⟨t, rfl⟩ l hl
    obtain ⟨c, -, rfl⟩ := List.mem_map.mp hl
    exact ⟨c, rfl⟩
  · intro h
    induction s with
    | nil => exact ⟨[], rfl⟩
    | cons l s ih =>
      obtain ⟨c, rfl⟩ := h l List.mem_cons_self
      obtain ⟨t, rfl⟩ := ih fun l hl => h l (List.mem_cons_of_mem _ hl)
      exact ⟨c :: t, rfl⟩

private theorem exists_ofText_append :
    (∃ u, s ++ t = ofText u) ↔ (∃ u, s = ofText u) ∧ ∃ u, t = ofText u := by
  simp only [exists_ofText_iff, List.forall_mem_append]

/-- White space does not matter for what can be encoded. -/
theorem exists_ofText_sanitize : (∃ t, sanitize s = ofText t) ↔ ∃ t, s = ofText t := by
  rw [exists_ofText_iff, exists_ofText_iff, sanitize, List.forall_mem_map]
  refine forall₂_congr fun l _ => ?_
  cases l with
  | char c => exact iff_of_true ⟨_, rfl⟩ ⟨c, rfl⟩
  | half unit => exact iff_of_false (by simp) (by simp)

end Letter

/-- All letters of a signal are characters. -/
def Signal.IsPlain (s : Signal) : Prop := ∃ e : Event, s = e.signal

private theorem Signal.isPlain_iff {s : Signal} :
    s.IsPlain ↔ (∃ key, s.key = Letter.ofText key) ∧ ∃ value, s.value = Letter.ofText value := by
  constructor
  · rintro ⟨e, rfl⟩
    exact ⟨⟨e.key, rfl⟩, e.value, rfl⟩
  · rintro ⟨⟨key, hkey⟩, value, hvalue⟩
    obtain ⟨k, v⟩ := s
    obtain rfl : k = _ := hkey
    obtain rfl : v = _ := hvalue
    exact ⟨⟨key, value⟩, rfl⟩

namespace Header

variable {signals : List Signal} {form : Format}

/-- Lines can be encoded if each of them can. -/
theorem isSome_encode?_iff {ls : List (List Letter)} :
    (encode? ls).isSome ↔ ∀ l ∈ ls, ∃ t, l = Letter.ofText t := by
  rw [encode?, Letter.isSome_encode?_iff]
  induction ls with
  | nil => exact iff_of_true ⟨[], rfl⟩ (List.forall_mem_nil _)
  | cons l ls ih =>
    rw [document, List.flatMap_cons, Letter.exists_ofText_append, Letter.exists_ofText_append,
      List.forall_mem_cons, ← ih]
    exact and_congr_left' (and_iff_left ⟨['\n'], rfl⟩)

private theorem isPlain_iff_of_isKnown {s : Signal} (h : isKnown s = true) :
    s.IsPlain ↔ ∃ value, s.value = Letter.ofText value := by
  obtain ⟨key, -, hkey⟩ := List.mem_map.mp (List.contains_iff_mem.mp h)
  rw [Signal.isPlain_iff]
  exact and_iff_right ⟨key, hkey.symm⟩

/-- The structured form can be encoded if all that a web server understands can be. -/
theorem isSome_encode?_structured : (encode? (linesOf .structured signals)).isSome ↔
    ∀ s ∈ signals, isKnown s = true → s.IsPlain := by
  have hone (s : Signal) : (∀ l ∈ linesAtOnce .structured s, ∃ t, l = Letter.ofText t) ↔
      (isKnown s = true → s.IsPlain) := by
    rw [linesAtOnce]
    by_cases hs : isKnown s = true
    · obtain ⟨key, -, hkey⟩ := List.mem_map.mp (List.contains_iff_mem.mp hs)
      have hblank : (Letter.char ' ' :: Letter.sanitize s.value) =
          [Letter.char ' '] ++ Letter.sanitize s.value := rfl
      rw [if_pos hs, List.forall_mem_singleton, isPlain_iff_of_isKnown hs, ← hkey, hblank,
        Letter.exists_ofText_append, Letter.exists_ofText_append, Letter.exists_ofText_sanitize,
        Letter.exists_ofText_sanitize]
      exact ⟨fun h _ => h.2.2, fun h => ⟨⟨key, rfl⟩, ⟨[' '], rfl⟩, h hs⟩⟩
    · rw [if_neg hs]
      exact iff_of_true (List.forall_mem_nil _) fun h => absurd h hs
  have hend : ∀ l ∈ linesAtEnd .structured signals, ∃ t, l = Letter.ofText t :=
    List.forall_mem_singleton.mpr ⟨_, rfl⟩
  rw [isSome_encode?_iff, linesOf, List.forall_mem_append, and_iff_left hend,
    List.forall_mem_flatMap]
  exact forall₂_congr fun s _ => hone s

/-! ### Reports -/

/-- A signal of which the raw form tells nothing: it says nothing of fields or of the body's type. -/
def IsSilent (s : Signal) : Prop :=
  isKnown s = true ∧ s.hasKey "mime-type" = false ∧ s.hasKey "header-field" = false

private theorem Draft.foldl_of_isSilent {later : List Signal} (h : ∀ s ∈ later, IsSilent s) (d : Draft) :
    later.foldl Draft.step d = d := by
  induction later with
  | nil => rfl
  | cons s later ih =>
    obtain ⟨hs, hlater⟩ := List.forall_mem_cons.mp h
    rw [List.foldl_cons, Draft.step, hs.2.1, hs.2.2, hs.1]
    exact ih hlater

/-- Only the structured form tells silent signals. -/
theorem linesOf_append_of_isSilent {later : List Signal} (hform : form ≠ .structured)
    (h : ∀ s ∈ later, IsSilent s) : linesOf form (signals ++ later) = linesOf form signals := by
  cases form with
  | structured => exact absurd rfl hform
  | raw =>
    rw [linesOf, linesOf, List.flatMap_append, linesAtEnd, linesAtEnd, List.foldl_append,
      Draft.foldl_of_isSilent h]
    exact congrArg (· ++ _) ((congrArg _ (List.flatMap_eq_nil_iff.mpr fun _ _ => rfl)).trans
      (List.append_nil _))
  | bare =>
    have hnothing : ∀ signals : List Signal, linesOf .bare signals = [] := fun signals =>
      List.append_eq_nil_iff.mpr ⟨List.flatMap_eq_nil_iff.mpr fun _ _ => rfl, rfl⟩
    rw [hnothing, hnothing]

private theorem isSilent_of_mem_failure {f : Fault} {text : List Letter} {s : Signal}
    (hs : s ∈ Signal.failure f text) : IsSilent s := by
  obtain rfl | hs := List.mem_cons.mp hs
  · exact ⟨by decide, by decide, by decide⟩
  · obtain ⟨line, -, rfl⟩ := List.mem_map.mp hs
    have hkey : IsSilent ⟨Letter.ofText "error-message".toList, []⟩ :=
      ⟨by decide, by decide, by decide⟩
    exact hkey

/-- A header of events with a report behind them can be encoded, if the report can be or nothing of
it is told. -/
theorem isSome_encode?_failure (form : Format) (events : List Event) (f : Fault)
    (text : List Letter) :
    (encode? (linesOf form (events.map Event.signal ++ Signal.failure f text))).isSome ↔
      (form = .structured → ∀ s ∈ Signal.failure f text, s.IsPlain) := by
  by_cases hform : form = .structured
  · subst hform
    rw [isSome_encode?_structured, List.forall_mem_append]
    have hevents : ∀ s ∈ events.map Event.signal, isKnown s = true → s.IsPlain := fun s hs _ => by
      obtain ⟨e, -, rfl⟩ := List.mem_map.mp hs
      exact ⟨e, rfl⟩
    rw [and_iff_right hevents]
    exact ⟨fun h _ s hs => h s hs (isSilent_of_mem_failure hs).1, fun h s hs _ => h rfl s hs⟩
  · rw [linesOf_append_of_isSilent hform fun s => isSilent_of_mem_failure, encode?_signals]
    exact iff_of_true rfl fun h => absurd h hform

end Header

end ServerPages
