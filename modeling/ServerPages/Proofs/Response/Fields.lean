import ServerPages.Proofs.Response.Block

/-!
# The fields of a header block

A header block is made event by event. An event may bring a field (`Event.field?`), and one that
replaces fields takes away those of its name, however their case is, that stand before it
(`Event.replaces`). So what stands in a block can be told without making it: a field stands if no
event behind its own replaces it (`Header.standing`, `Header.foldl_step_fields`), and the content
type is the last one set.

A `header-field` is written as a mark, a name and a value with spaces between them, and is read back
as it was meant where the name holds no space (`HeaderField.parse?_eq_some_iff`). The main statement
puts both together (`Header.lines_raw`).
-/

namespace ServerPages

/-! ### Written fields -/

namespace Text

variable {sep : Char} {s a b : Text}

private theorem cut_of_not_mem (h : sep ∉ s) : cut sep s = (s, none) := by
  induction s with
  | nil => rfl
  | cons c s ih =>
    rw [List.mem_cons, not_or] at h
    rw [cut, if_neg (Ne.symm h.1), ih h.2]

/-- A text is cut before the first separator. -/
theorem cut_eq_some_iff : cut sep s = (a, some b) ↔ s = a ++ sep :: b ∧ sep ∉ a := by
  constructor
  · intro h
    by_cases hs : sep ∈ s
    · obtain ⟨p, r, rfl, hp⟩ := List.eq_append_cons_of_mem hs
      rw [Header.cut_append_cons hp] at h
      cases h
      exact ⟨rfl, hp⟩
    · rw [cut_of_not_mem hs] at h
      cases h
  · rintro ⟨rfl, ha⟩
    exact Header.cut_append_cons ha b

private theorem cut_eq_none_iff : cut sep s = (a, none) ↔ s = a ∧ sep ∉ a := by
  constructor
  · intro h
    by_cases hs : sep ∈ s
    · obtain ⟨p, r, rfl, hp⟩ := List.eq_append_cons_of_mem hs
      rw [Header.cut_append_cons hp] at h
      cases h
    · rw [cut_of_not_mem hs] at h
      cases h
      exact ⟨rfl, hs⟩
  · rintro ⟨rfl, ha⟩
    exact cut_of_not_mem ha

end Text

namespace HeaderField

variable {s : Text} {f : HeaderField}

/-- A field as the value of an event: its mark, its name and its value. -/
def written (f : HeaderField) : Text :=
  Event.truthWord f.replace ++ ' ' :: f.name ++ ' ' :: f.value

private theorem not_mem_truthWord (b : Bool) : ' ' ∉ Event.truthWord b := by
  cases b <;> decide

/-- **A value describes the field that it writes**, and an empty value may be left out with the
space before it. -/
theorem parse?_eq_some_iff : parse? s = some f ↔ ' ' ∉ f.name ∧
    (s = f.written ∨ f.value = [] ∧ s = Event.truthWord f.replace ++ ' ' :: f.name) := by
  have hread : ∀ rest : Text, parse? (Event.truthWord f.replace ++ ' ' :: rest) =
      some ⟨f.replace, (Text.cut ' ' rest).1, (Text.cut ' ' rest).2.getD []⟩ := by
    intro rest
    rw [parse?, Header.cut_append_cons (not_mem_truthWord f.replace)]
    cases f.replace <;> rfl
  constructor
  · intro h
    have hmark : ∃ rest, s = Event.truthWord f.replace ++ ' ' :: rest := by
      unfold parse? at h
      split at h
      · cases h
      · next mark rest hcut =>
        obtain ⟨rfl, -⟩ := Text.cut_eq_some_iff.mp hcut
        dsimp only at h
        split at h
        · next hmark =>
          cases h
          exact ⟨rest, by rw [hmark]; rfl⟩
        · split at h
          · next hmark =>
            cases h
            exact ⟨rest, by rw [hmark]; rfl⟩
          · cases h
    obtain ⟨rest, rfl⟩ := hmark
    rw [hread, Option.some.injEq] at h
    -- what stands behind the mark is a name alone, or a name and a value
    cases hcut : Text.cut ' ' rest with
    | mk name value =>
      rw [hcut] at h
      cases value with
      | none =>
        obtain ⟨rfl, hname⟩ := Text.cut_eq_none_iff.mp hcut
        rw [← h]
        exact ⟨hname, .inr ⟨rfl, rfl⟩⟩
      | some value =>
        obtain ⟨rfl, hname⟩ := Text.cut_eq_some_iff.mp hcut
        rw [← h]
        exact ⟨hname, .inl (by simp [written])⟩
  · rintro ⟨hname, rfl | ⟨hvalue, rfl⟩⟩
    · rw [written, List.append_assoc, List.cons_append, hread, Header.cut_append_cons hname]
      rfl
    · rw [hread, Text.cut_of_not_mem hname]
      show some (⟨f.replace, f.name, []⟩ : HeaderField) = some f
      rw [← hvalue]

end HeaderField

/-! ### What an event does to a block -/

namespace Event

/-- The field that an event brings into a header block. A `header-field` that describes none is
taken as it is, without a name; any other key that is not known is the name of a field. -/
def field? (e : Event) : Option Header.RawField :=
  if e.key = "header-field".toList then
    match HeaderField.parse? e.value with
    | none => some ⟨[], e.value⟩
    | some f => some ⟨f.name, f.name ++ ": ".toList ++ f.value⟩
  else if Header.knownKeys.contains e.key then none
  else some ⟨e.key, e.key ++ ": ".toList ++ e.value⟩

/-- Whether an event replaces the fields of a name. -/
def replaces (e : Event) (name : Text) : Bool :=
  e.key = "header-field".toList && (HeaderField.parse? e.value).any fun f =>
    f.replace && Text.lower f.name = Text.lower name

variable {e : Event}

private theorem replaces_of_key (h : e.key = "header-field".toList) (name : Text) : e.replaces name =
    (HeaderField.parse? e.value).any fun f => f.replace && Text.lower f.name = Text.lower name := by
  rw [replaces, decide_eq_true h, Bool.true_and]

private theorem replaces_of_ne (h : e.key ≠ "header-field".toList) (name : Text) :
    e.replaces name = false := by
  rw [replaces, decide_eq_false h, Bool.false_and]

end Event

namespace Header

variable {b : Raw} {e : Event} {events : List Event}

/-- The fields that stand in a header block: those that no later event replaces. -/
def standing : List Event → List RawField
  | [] => []
  | e :: later =>
    (e.field?.filter fun f => !later.any (·.replaces f.name)).toList ++ standing later

/-- The last content type that is set. -/
def contentType (events : List Event) : Text :=
  ((events.filter (·.key = "mime-type".toList)).map Event.value).getLastD "text/html".toList

/-- One more event replaces some of the fields that stand there, and brings its own. -/
theorem step_fields (b : Raw) (e : Event) :
    (b.step e).fields = b.fields.filter (fun f => !e.replaces f.name) ++ e.field?.toList := by
  have hall : (∀ name, e.replaces name = false) →
      b.fields.filter (fun f => !e.replaces f.name) = b.fields := fun h =>
    List.filter_eq_self.mpr fun f _ => by rw [h f.name, Bool.not_false]
  unfold Raw.step
  by_cases hfield : e.key = "header-field".toList
  · have htype : ¬ e.key = "mime-type".toList := by
      rw [hfield]
      decide
    have hreplaces := Event.replaces_of_key hfield
    rw [if_neg htype, if_pos hfield, Event.field?, if_pos hfield]
    cases hparse : HeaderField.parse? e.value with
    | none =>
      rw [hall fun name => by rw [hreplaces, hparse, Option.any_none]]
      rfl
    | some f =>
      simp only [hparse, Option.any_some] at hreplaces
      refine congrArg (· ++ _) ?_
      cases hreplace : f.replace with
      | false =>
        rw [hall fun name => by rw [hreplaces, hreplace, Bool.false_and]]
        rfl
      | true =>
        refine List.filter_congr fun g _ => ?_
        rw [hreplaces, hreplace, Bool.true_and, ← decide_not]
        exact decide_eq_decide.mpr ne_comm
  · have hown : e.field? = if knownKeys.contains e.key then none
        else some ⟨e.key, e.key ++ ": ".toList ++ e.value⟩ := if_neg hfield
    rw [hall (Event.replaces_of_ne hfield), hown]
    by_cases htype : e.key = "mime-type".toList
    · have hknown : knownKeys.contains e.key = true := by
        rw [htype]
        decide
      rw [if_pos htype, if_pos hknown, Option.toList_none, List.append_nil]
    · rw [if_neg htype, if_neg hfield]
      split
      · exact (List.append_nil _).symm
      · rfl

private theorem step_contentType (b : Raw) (e : Event) : (b.step e).contentType =
    if e.key = "mime-type".toList then e.value else b.contentType := by
  unfold Raw.step
  split
  · rfl
  · split
    · split <;> rfl
    · split <;> rfl

/-- **All events.** Of the fields of a block those stay that no event replaces, and behind them come
those that stand among the events. -/
theorem foldl_step_fields (b : Raw) (events : List Event) : (events.foldl Raw.step b).fields =
    b.fields.filter (fun f => !events.any (·.replaces f.name)) ++ standing events := by
  induction events generalizing b with
  | nil => simp [standing]
  | cons e events ih =>
    have hown : (e.field?.toList).filter (fun f => !events.any (·.replaces f.name)) =
        (e.field?.filter fun f => !events.any (·.replaces f.name)).toList := by
      cases e.field? with
      | none => rfl
      | some f =>
        rw [Option.toList_some, List.filter_singleton, Option.filter_some]
        cases events.any (·.replaces f.name) <;> rfl
    rw [List.foldl_cons, ih, step_fields, List.filter_append, hown, List.filter_filter, standing,
      List.append_assoc]
    refine congrArg (· ++ _) (List.filter_congr fun f _ => ?_)
    rw [List.any_cons, Bool.not_or, Bool.and_comm]

private theorem foldl_step_contentType (b : Raw) (events : List Event) :
    (events.foldl Raw.step b).contentType =
      ((events.filter (·.key = "mime-type".toList)).map Event.value).getLastD b.contentType := by
  induction events generalizing b with
  | nil => rfl
  | cons e events ih =>
    rw [List.foldl_cons, ih, step_contentType]
    by_cases hkey : e.key = "mime-type".toList
    · simp only [List.filter_cons, decide_eq_true hkey, if_true, if_pos hkey, List.map_cons,
        List.getLastD_cons]
    · simp only [List.filter_cons, decide_eq_false hkey, if_neg hkey, Bool.false_eq_true, if_false]

end Header

/-! ### Fields that a page sets -/

/-- A header field that a page sets. -/
structure FieldCall where
  name : Value
  value : Value
  /-- Whether the field takes the place of those of its name. -/
  replace : Value

namespace FieldCall

variable {c : FieldCall}

/-- The event that is sent. -/
def event (c : FieldCall) : Event := Event.headerField c.name c.value c.replace

/-- The line that is meant. -/
def line (c : FieldCall) : Text := c.name.shown ++ ": ".toList ++ c.value.shown

/-- Whether a field takes the place of an earlier one. -/
def replaces (c earlier : FieldCall) : Bool :=
  c.replace.isTrue && Text.lower c.name.shown = Text.lower earlier.name.shown

/-- The fields of whose place no later one takes. -/
def standing : List FieldCall → List FieldCall
  | [] => []
  | c :: later => if later.any (·.replaces c) then standing later else c :: standing later

/-- A field whose name holds no space is read as it was set, whatever its value is. -/
theorem parse?_event (h : ' ' ∉ c.name.shown) :
    HeaderField.parse? c.event.value = some ⟨c.replace.isTrue, c.name.shown, c.value.shown⟩ :=
  HeaderField.parse?_eq_some_iff.mpr ⟨h, .inl rfl⟩

private theorem field?_event (h : ' ' ∉ c.name.shown) :
    c.event.field? = some ⟨c.name.shown, c.line⟩ := by
  have hkey : c.event.key = "header-field".toList := rfl
  rw [Event.field?, if_pos hkey, parse?_event h]
  rfl

private theorem replaces_event (h : ' ' ∉ c.name.shown) (earlier : FieldCall) :
    c.event.replaces earlier.name.shown = c.replaces earlier := by
  rw [Event.replaces_of_key rfl, parse?_event h]
  rfl

private theorem standing_event {calls : List FieldCall} (h : ∀ c ∈ calls, ' ' ∉ c.name.shown) :
    (Header.standing (calls.map event)).map Header.RawField.text = (standing calls).map line := by
  induction calls with
  | nil => rfl
  | cons c calls ih =>
    rw [List.forall_mem_cons] at h
    have hany : (calls.map event).any (·.replaces c.name.shown) = calls.any (·.replaces c) := by
      rw [List.any_map, Bool.eq_iff_iff, List.any_eq_true, List.any_eq_true]
      refine exists_congr fun later => and_congr_right fun hlater => ?_
      rw [Function.comp_apply, replaces_event (h.2 later hlater)]
    rw [List.map_cons, Header.standing, field?_event h.1, Option.filter_some, hany, standing,
      List.map_append, ih h.2]
    cases calls.any (·.replaces c) <;> rfl

end FieldCall

namespace Header

/-- **The lines of a header block.** For whatever events, behind the last content type come, in the
order of the events, the fields that no later event replaces, and an empty line. The fields that a
page sets are among them with exactly the names and values that it gives, as long as no name holds a
space. -/
theorem lines_raw (events : List Event) :
    lines .raw events = ("Content-type: ".toList ++ contentType events) ::
      (standing events).map RawField.text ++ [[]] ∧
    ∀ calls : List FieldCall, (∀ c ∈ calls, ' ' ∉ c.name.shown) →
      lines .raw (calls.map FieldCall.event) = "Content-type: text/html".toList ::
        (FieldCall.standing calls).map FieldCall.line ++ [[]] := by
  have hlines : ∀ events : List Event, lines .raw events =
      ("Content-type: ".toList ++ contentType events) ::
        (standing events).map RawField.text ++ [[]] := by
    intro events
    rw [lines, foldl_step_contentType, foldl_step_fields]
    rfl
  refine ⟨hlines events, fun calls hcalls => ?_⟩
  have hnone : (calls.map FieldCall.event).filter (·.key = "mime-type".toList) = [] := by
    rw [List.filter_eq_nil_iff, List.forall_mem_map]
    have hkey : "header-field".toList ≠ "mime-type".toList := by decide
    exact fun c _ => mt of_decide_eq_true hkey
  rw [hlines, contentType, hnone, FieldCall.standing_event hcalls]
  rfl

/-- Fields without a name or a value, values with spaces, and a name in two cases. -/
theorem lines_raw_cases :
    let calls : List FieldCall := [⟨.text "A".toList, .text "1".toList, .none⟩,
      ⟨.text [], .text " x  y ".toList, .bool false⟩, ⟨.text "a".toList, .int 2, .bool true⟩,
      ⟨.text "A".toList, .text [], .bool false⟩]
    (∀ c ∈ calls, ' ' ∉ c.name.shown) ∧ lines .raw (calls.map FieldCall.event) =
      ["Content-type: text/html", ":  x  y ", "a: 2", "A: ", ""].map String.toList := by
  intro calls
  have hcalls : ∀ c ∈ calls, ' ' ∉ c.name.shown := by
    simp only [calls, List.forall_mem_cons]
    refine ⟨by decide, by decide, by decide, by decide, by simp⟩
  refine ⟨hcalls, ((lines_raw []).2 calls hcalls).trans ?_⟩
  decide +kernel

end Header

end ServerPages
