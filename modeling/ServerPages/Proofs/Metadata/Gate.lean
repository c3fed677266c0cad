import ServerPages.Metadata.Channel

/-!
# Channels under a lock

Threads share a channel behind a lock. A call on the channel, which sends an event or closes it,
takes the lock, looks whether the channel is closed, waits for room if something is to be put,
and gives the lock back; so it holds the lock while it waits. Taking from the channel needs no
lock. A call that nothing interrupts does what the channel's own operations do
(`Channel.Call.run_emit`, `Channel.Call.run_close`).
-/

namespace ServerPages

namespace Channel

/-- What a thread asks of a channel. -/
inductive Call where
  | emit (e : Signal)
  | close
  deriving DecidableEq, Repr

/-- How far a thread is with a call. -/
inductive Place where
  /-- It does not hold the lock. -/
  | outside
  | entered
  /-- It waits for room. -/
  | putting (item : Item)
  /-- All is done but for giving the lock back. -/
  | leaving (refusal : Option Fault)
  deriving DecidableEq, Repr

/-- An empty channel has room, whatever its capacity. -/
theorem isFull_of_items_eq_nil {c : Channel} (h : c.items = []) : c.isFull = false := by
  rw [isFull, h]
  cases c.capacity <;> rfl

end Channel

/-- A channel, and the thread that holds its lock. -/
structure Gate (Thread : Type) where
  channel : Channel
  holder : Option Thread := none

namespace Channel

variable {Thread : Type} {who : Thread}

/-- One step of a call. Giving the lock back is left to the thread, which goes on from there. -/
inductive Call.Step (who : Thread) : Call → Gate Thread → Place → Gate Thread → Place → Prop
  | enter {call : Call} {g : Gate Thread} (h : g.holder = none) :
    Call.Step who call g .outside { g with holder := some who } .entered
  | refuse {e : Signal} {g : Gate Thread} (h : g.channel.closed = true) :
    Call.Step who (.emit e) g .entered g (.leaving (some (late e)))
  | accept {e : Signal} {g : Gate Thread} (h : g.channel.closed = false) :
    Call.Step who (.emit e) g .entered g (.putting (.event e))
  | again {g : Gate Thread} (h : g.channel.closed = true) :
    Call.Step who .close g .entered g (.leaving none)
  | shut {g : Gate Thread} (h : g.channel.closed = false) :
    Call.Step who .close g .entered { g with channel := { g.channel with closed := true } }
      (.putting .finish)
  | put {call : Call} {g : Gate Thread} {item : Item} (h : g.channel.isFull = false) :
    Call.Step who call g (.putting item)
      { g with channel := { g.channel with items := g.channel.items ++ [item] } } (.leaving none)

/-- A call that has not come to its end goes on, if the lock is free for a thread that is to
take it and there is room for an item that is to be put. -/
theorem Call.exists_step (call : Call) {g : Gate Thread} {place : Place}
    (hholder : place = .outside → g.holder = none)
    (hroom : ∀ item, place = .putting item → g.channel.isFull = false)
    (hplace : ∀ refusal, place ≠ .leaving refusal) :
    ∃ g' place', Call.Step who call g place g' place' := by
  cases place with
  | outside => exact ⟨_, _, .enter (hholder rfl)⟩
  | entered =>
    cases hc : g.channel.closed with
    | false =>
      cases call with
      | emit e => exact ⟨_, _, .accept hc⟩
      | close => exact ⟨_, _, .shut hc⟩
    | true =>
      cases call with
      | emit e => exact ⟨_, _, .refuse hc⟩
      | close => exact ⟨_, _, .again hc⟩
  | putting item => exact ⟨_, _, .put (hroom item rfl)⟩
  | leaving refusal => exact absurd rfl (hplace refusal)

/-- A thread that takes a step of a call holds the lock then. -/
theorem Call.Step.holder_eq {call : Call} {g g' : Gate Thread} {place place' : Place}
    (h : Call.Step who call g place g' place') (hg : place ≠ .outside → g.holder = some who) :
    g'.holder = some who ∧ place' ≠ .outside := by
  cases h with
  | enter h => exact ⟨rfl, nofun⟩
  | refuse | accept | again | shut | put => exact ⟨hg nofun, nofun⟩

/-! ### What a step keeps -/

/-- The item that a call puts into an open channel. -/
def Call.item : Call → Item
  | .emit e => .event e
  | .close => .finish

/-- Whether a call leaves the channel closed. -/
def Call.closes : Call → Bool
  | .emit _ => false
  | .close => true

/-- The items that a thread is still to put: `here` with the call that it is in, `after` behind
it. -/
def Place.items (place : Place) (here : List Item) (after : Option Fault → List Item) : List Item :=
  match place with
  | .outside | .entered => here
  | .putting item => item :: after none
  | .leaving refusal => after refusal

/-- **No step loses an item.** What waits and what is to be put stay the same in their order.
Both depend on whether the channel is closed, since a closed channel takes nothing. -/
theorem Call.Step.items_eq {call : Call} {g g' : Gate Thread} {place place' : Place}
    (h : Call.Step who call g place g' place') (here : Bool → List Item)
    (after : Bool → Option Fault → List Item)
    (hopen : here false = call.item :: after call.closes none)
    (hclosed : g.channel.closed = true → ∀ refusal, here true = after true refusal) :
    g'.channel.items ++ place'.items (here g'.channel.closed) (after g'.channel.closed) =
      g.channel.items ++ place.items (here g.channel.closed) (after g.channel.closed) := by
  cases h with
  | enter => rfl
  | refuse h | again h =>
    refine congrArg (g.channel.items ++ ·) ?_
    show after _ _ = here _
    rw [h]
    exact (hclosed h _).symm
  | accept h | shut h =>
    refine congrArg (g.channel.items ++ ·) ?_
    show _ :: after _ none = here _
    rw [h]
    exact hopen.symm
  | put h => exact List.append_assoc ..

/-- The end marker comes with the channel closed. -/
theorem Call.Step.finish_notMem {call : Call} {g g' : Gate Thread} {place place' : Place}
    (h : Call.Step who call g place g' place')
    (hg : g.channel.closed = false → .finish ∉ g.channel.items ∧ place ≠ .putting .finish)
    (hopen : g'.channel.closed = false) :
    .finish ∉ g'.channel.items ∧ place' ≠ .putting .finish := by
  cases h with
  | enter | refuse | accept | again => exact ⟨(hg hopen).1, nofun⟩
  | shut => cases hopen
  | @put item hroom =>
    obtain ⟨hitems, hplace⟩ := hg hopen
    refine ⟨fun hmem => ?_, nofun⟩
    rcases List.mem_append.mp hmem with hmem | hmem
    · exact hitems hmem
    · exact hplace (congrArg Place.putting (List.mem_singleton.mp hmem).symm)

/-- A bound on the steps that a thread is still to take: `here` with the call, `after` behind
it. -/
def Place.weight (place : Place) (here : Nat) (after : Option Fault → Nat) : Nat :=
  match place with
  | .outside => here
  | .entered => here - 1
  | .putting _ => after none + 4
  | .leaving refusal => after refusal + 1

/-- **Each step of a call leaves less to do**, also if an item in the channel counts for two
steps. -/
theorem Call.Step.weight_lt {call : Call} {g g' : Gate Thread} {place place' : Place}
    (h : Call.Step who call g place g' place') (here : Bool → Nat)
    (after : Bool → Option Fault → Nat) (hopen : after call.closes none + 6 ≤ here false)
    (hclosed : ∀ refusal, after true refusal + 6 ≤ here true) :
    2 * g'.channel.items.length +
        place'.weight (here g'.channel.closed) (after g'.channel.closed) <
      2 * g.channel.items.length +
        place.weight (here g.channel.closed) (after g.channel.closed) := by
  have hlate := hclosed none
  cases h with
  | @enter call g _ =>
    refine Nat.add_lt_add_left ?_ _
    show here g.channel.closed - 1 < here g.channel.closed
    cases g.channel.closed <;> omega
  | @refuse e g hc =>
    have hrefused := hclosed (some (late e))
    refine Nat.add_lt_add_left ?_ _
    show after g.channel.closed _ + 1 < here g.channel.closed - 1
    rw [hc]
    omega
  | @again g hc =>
    refine Nat.add_lt_add_left ?_ _
    show after g.channel.closed _ + 1 < here g.channel.closed - 1
    rw [hc]
    omega
  | @accept e g hc =>
    have hnext : after false none + 6 ≤ here false := hopen
    refine Nat.add_lt_add_left ?_ _
    show after g.channel.closed _ + 4 < here g.channel.closed - 1
    rw [hc]
    omega
  | @shut g hc =>
    have hnext : after true none + 6 ≤ here false := hopen
    refine Nat.add_lt_add_left ?_ _
    show after true _ + 4 < here g.channel.closed - 1
    rw [hc]
    omega
  | @put call g item _ =>
    show 2 * (g.channel.items ++ [item]).length + (after g.channel.closed none + 1) <
      2 * g.channel.items.length + (after g.channel.closed none + 4)
    rw [List.length_append, List.length_singleton]
    omega

/-- Only a call that closes the channel changes whether it is closed. -/
theorem Call.Step.closed_eq {call : Call} {g g' : Gate Thread} {place place' : Place}
    (h : Call.Step who call g place g' place') :
    g'.channel.closed = g.channel.closed ∨ call = .close ∧ g'.channel.closed = true := by
  cases h with
  | enter | refuse | accept | again | put => exact .inl rfl
  | shut => exact .inr ⟨rfl, rfl⟩

theorem Call.Step.closed_emit {e : Signal} {g g' : Gate Thread} {place place' : Place}
    (h : Call.Step who (.emit e) g place g' place') : g'.channel.closed = g.channel.closed :=
  h.closed_eq.resolve_right fun hclose => nomatch hclose.1

/-- A closed channel stays closed. -/
theorem Call.Step.closed_mono {call : Call} {g g' : Gate Thread} {place place' : Place}
    (h : Call.Step who call g place g' place') (hg : g.channel.closed = true) :
    g'.channel.closed = true := by
  rcases h.closed_eq with hsame | ⟨-, hclosed⟩
  · exact hsame.trans hg
  · exact hclosed

/-- An event is refused only by a closed channel. -/
theorem Call.Step.closed_of_refusal {call : Call} {g g' : Gate Thread} {place place' : Place}
    (h : Call.Step who call g place g' place')
    (hg : ∀ refusal, place = .leaving (some refusal) → g.channel.closed = true) :
    ∀ refusal, place' = .leaving (some refusal) → g'.channel.closed = true := by
  intro refusal hplace
  cases h with
  | refuse h => exact h
  | enter | accept | again | shut | put => cases hplace

/-- An item that is taken was the oldest one. -/
theorem items_of_take {c d : Channel} {item : Item} (h : c.take? = some (item, d)) :
    c.items = item :: d.items ∧ d.closed = c.closed := by
  unfold Channel.take? at h
  split at h
  · cases h
  · next hc =>
    cases h
    exact ⟨hc, rfl⟩

theorem capacity_of_take {c d : Channel} {item : Item} (h : c.take? = some (item, d)) :
    d.capacity = c.capacity := by
  unfold Channel.take? at h
  split at h
  · cases h
  · cases h
    rfl

theorem items_of_take_eq_none {c : Channel} (h : c.take? = none) : c.items = [] := by
  unfold Channel.take? at h
  split at h
  · assumption
  · cases h

/-! ### How many items wait -/

theorem isFull_eq_true_iff {c : Channel} :
    c.isFull = true ↔ 0 < c.capacity ∧ c.capacity ≤ c.items.length := by
  rw [isFull, Bool.and_eq_true, decide_eq_true_iff, decide_eq_true_iff]

theorem Call.Step.capacity_eq {call : Call} {g g' : Gate Thread} {place place' : Place}
    (h : Call.Step who call g place g' place') :
    g'.channel.capacity = g.channel.capacity := by
  cases h <;> rfl

/-- Something is put only where there is room. -/
theorem Call.Step.length_le {call : Call} {g g' : Gate Thread} {place place' : Place}
    (h : Call.Step who call g place g' place') (hlimit : 0 < g.channel.capacity)
    (hg : g.channel.items.length ≤ g.channel.capacity) :
    g'.channel.items.length ≤ g'.channel.capacity := by
  cases h with
  | enter | refuse | accept | again | shut => exact hg
  | put hroom =>
    rw [List.length_append, List.length_singleton]
    exact Nat.lt_of_not_le fun hfull =>
      Bool.eq_false_iff.mp hroom (isFull_eq_true_iff.mpr ⟨hlimit, hfull⟩)

/-! ### The end marker -/

/-- Where at most an end marker follows the events, it stands behind all of them and last. -/
theorem eq_of_append_finish {taken events : List Signal} {rest marker : List Item}
    (hmarker : marker.length ≤ 1)
    (h : taken.map Item.event ++ .finish :: rest = events.map Item.event ++ marker) :
    taken = events ∧ rest = [] := by
  induction taken generalizing events with
  | nil =>
    cases events with
    | nil =>
      have hlength := congrArg List.length h
      simp only [List.map_nil, List.nil_append, List.length_cons] at hlength
      exact ⟨rfl, List.length_eq_zero_iff.mp (by omega)⟩
    | cons e events => cases (List.cons.inj h).1
  | cons e taken ih =>
    cases events with
    | nil =>
      have hlength := congrArg List.length h
      simp only [List.map_cons, List.map_nil, List.cons_append, List.nil_append, List.length_cons,
        List.length_append] at hlength
      omega
    | cons e' events =>
      obtain ⟨he, h⟩ := List.cons.inj h
      obtain ⟨rfl, hrest⟩ := ih h
      exact ⟨congrArg (· :: taken) (Item.event.inj he), hrest⟩

/-! ### Calls that nothing interrupts -/

/-- Steps of a call without a step of another thread between them. -/
inductive Call.Run (who : Thread) (call : Call) (g : Gate Thread) (place : Place) :
    Gate Thread → Place → Prop
  | refl : Call.Run who call g place g place
  | tail {g₁ g₂ : Gate Thread} {place₁ place₂ : Place} (h : Call.Run who call g place g₁ place₁)
    (hstep : Call.Step who call g₁ place₁ g₂ place₂) : Call.Run who call g place g₂ place₂

/-- An event that is not refused is put behind what waits. -/
theorem Call.run_emit {c d : Channel} {e : Signal} (hroom : c.isFull = false)
    (h : c.put e = .ok d) :
    Call.Run who (.emit e) ⟨c, none⟩ .outside ⟨d, some who⟩ (.leaving none) := by
  obtain ⟨hclosed, rfl⟩ : c.closed = false ∧ { c with items := c.items ++ [.event e] } = d := by
    unfold Channel.put at h
    split at h
    · cases h
    · next hc => exact ⟨by simpa using hc, Except.ok.inj h⟩
  exact .tail (.tail (.tail .refl (.enter rfl)) (.accept hclosed)) (.put hroom)

/-- An event that is refused changes nothing. -/
theorem Call.run_emit_late {c : Channel} {e : Signal} {f : Fault} (h : c.put e = .error f) :
    Call.Run who (.emit e) ⟨c, none⟩ .outside ⟨c, some who⟩ (.leaving (some f)) := by
  obtain ⟨hclosed, rfl⟩ : c.closed = true ∧ late e = f := by
    unfold Channel.put at h
    split at h
    · next hc => exact ⟨hc, Except.error.inj h⟩
    · cases h
  exact .tail (.tail .refl (.enter rfl)) (.refuse hclosed)

/-- A channel is closed as by its own operation. -/
theorem Call.run_close {c : Channel} (hroom : c.isFull = false) :
    Call.Run who .close ⟨c, none⟩ .outside ⟨c.close, some who⟩ (.leaving none) := by
  unfold Channel.close
  split
  · next hc => exact .tail (.tail .refl (.enter rfl)) (.again hc)
  · next hc =>
    have hopen : c.closed = false := by simpa using hc
    exact .tail (.tail (.tail .refl (.enter rfl)) (.shut hopen)) (.put hroom)

end Channel

end ServerPages
