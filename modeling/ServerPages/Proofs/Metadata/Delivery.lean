import ServerPages.Proofs.Metadata.Producers

/-!
# Delivery over a channel

A channel neither loses nor duplicates nor reorders what its producers send, whatever their steps
and those of the consumer come one after the other (`Channel.Shared.Faithful`). Once it is closed
it takes nothing more than its end marker (`Channel.Shared.Shut`), and the consumer stops at that
marker, which is when it has got everything that was sent (`Channel.Shared.Exhaustive`). All three
hold in every state that comes about (`Channel.Shared.Reachable.delivery`).
-/

namespace ServerPages

namespace Channel

variable {Producer : Type} {who : Producer}

namespace Shared

variable {s s' : Shared Producer} {capacity : Int}

/-! ### In order and complete -/

/-- What the consumer has got and what waits is what was sent. -/
structure Faithful (s : Shared Producer) (capacity : Int) : Prop where
  order : s.received ++ s.waiting = s.accepted.map Prod.snd
  calls : s.accepted = s.returned ++ s.returning
  marker : s.delivered ++ s.queue =
    (s.accepted.map Prod.snd).map .event ++ if s.Sealed then [.finish] else []
  bound : 0 < capacity → (s.queue.length : Int) ≤ capacity

private theorem filterMap_event? (es : List Signal) : (es.map Item.event).filterMap Item.event? = es := by
  rw [List.filterMap_map]
  exact List.filterMap_some

private theorem filterMap_delivered (s : Shared Producer) :
    s.delivered.filterMap Item.event? = s.received := by
  rw [delivered, List.filterMap_append, filterMap_event?]
  cases s.ended <;> exact List.append_nil _

private theorem map_snd_accepted (s : Shared Producer) :
    s.accepted.map Prod.snd = (s.log.map Prod.snd).filterMap Item.event? := by
  rw [accepted, List.map_filterMap, List.filterMap_map]
  refine congrArg (List.filterMap · s.log) (funext fun x => ?_)
  show (x.2.event?.map (x.1, ·)).map Prod.snd = x.2.event?
  rw [Option.map_map]
  exact Option.map_id'

private theorem Sound.faithful (h : s.Sound capacity) : s.Faithful capacity where
  order := by
    rw [map_snd_accepted, ← h.flows.passed, List.filterMap_append, filterMap_delivered, waiting]
  calls := h.accounted
  marker := h.flows.passed.trans h.ending.marker
  bound hcapacity := by
    have hlimit := h.flows.capacity_eq
    have hbound := h.flows.bounded
    omega

/-! ### After the first close -/

section Closed

variable [DecidableEq Producer]

/-- Nothing is sent any more: the calls that come back have the outcome of a call on a closed
channel, and the only one that changes anything is the one whose end marker is still to come. -/
structure Shut (s : Shared Producer) : Prop where
  stays : ∀ s' : Shared Producer, Runs s s' → s'.closed = true ∧ s'.accepted = s.accepted ∧
    ∃ back, s'.finished = s.finished ++ back ∧ ∀ x ∈ back, x.2.2 = x.2.1.refusal
  inert : ∀ (who : Producer) (s' : Shared Producer), Step (some who) s s' →
    s.activity who ≠ .within .close (.putting .finish) →
    s'.gate.channel = s.gate.channel ∧ s'.log = s.log
  still : s.Sealed → ∀ who, s.activity who ≠ .within .close (.putting .finish)

private theorem Step.inert (h : Step (some who) s s') (hs : s.Placed) (hclosed : s.closed = true)
    (hnot : s.activity who ≠ .within .close (.putting .finish)) :
    s'.gate.channel = s.gate.channel ∧ s'.log = s.log := by
  cases h with
  | call call h | leave h | spoil f h hopen => exact ⟨rfl, rfl⟩
  | @go _ who call place place' g h hstep =>
    cases hstep with
    | enter hfree | refuse _ | again _ => exact ⟨rfl, List.append_nil _⟩
    | accept hopen | shut hopen => cases hopen.symm.trans hclosed
    | put hroom =>
      obtain ⟨rfl, hcloses⟩ := hs.fits h
      cases call with
      | emit e => cases hclosed.symm.trans hcloses
      | close => exact absurd h hnot

theorem Step.closed_mono {actor : Option Producer} (h : Step actor s s')
    (hclosed : s.closed = true) : s'.closed = true := by
  cases h with
  | call | spoil | leave => exact hclosed
  | go h hstep => exact hstep.closed_mono hclosed
  | take hon htake | takeEnd hon htake => exact (items_of_take htake).2.trans hclosed

private theorem Step.accepted_eq {actor : Option Producer} (h : Step actor s s') (hs : s.Placed)
    (hclosed : s.closed = true) : s'.accepted = s.accepted := by
  cases h with
  | call | spoil | leave | take | takeEnd => rfl
  | @go _ who call place place' g h hstep =>
    have hnothing : place.puts.filterMap Item.event? = [] := by
      cases place with
      | outside | entered | leaving => rfl
      | putting item =>
        obtain ⟨rfl, hcloses⟩ := hs.fits h
        cases call with
        | emit e => cases hclosed.symm.trans hcloses
        | close => rfl
    show (s.log ++ place.puts.map (who, ·)).filterMap _ = s.accepted
    rw [List.filterMap_append, filterMap_puts, hnothing]
    exact List.append_nil _

private theorem Step.finished_eq {actor : Option Producer} (h : Step actor s s') (hs : s.Placed)
    (hclosed : s.closed = true) :
    ∃ back, s'.finished = s.finished ++ back ∧ ∀ x ∈ back, x.2.2 = x.2.1.refusal := by
  cases h with
  | call | go | spoil | take | takeEnd => exact ⟨[], (List.append_nil _).symm, nofun⟩
  | @leave _ who call refusal h =>
    refine ⟨[(who, call, refusal)], rfl, fun x hx => ?_⟩
    obtain rfl := List.mem_singleton.mp hx
    exact hs.fits h hclosed

theorem Runs.shut (h : Runs s s') (hs : s.Sound capacity) (hclosed : s.closed = true) :
    s'.closed = true ∧ s'.accepted = s.accepted ∧
      ∃ back, s'.finished = s.finished ++ back ∧ ∀ x ∈ back, x.2.2 = x.2.1.refusal := by
  induction h with
  | refl => exact ⟨hclosed, rfl, [], (List.append_nil _).symm, nofun⟩
  | tail hruns hstep ih =>
    obtain ⟨actor, hstep⟩ := hstep
    obtain ⟨hstill, hsame, back, hback, hrefused⟩ := ih
    have hplaced := (Runs.sound hruns hs).placed
    obtain ⟨last, hlast, hrefused'⟩ := hstep.finished_eq hplaced hstill
    refine ⟨hstep.closed_mono hstill, (hstep.accepted_eq hplaced hstill).trans hsame, back ++ last,
      ?_, fun x hx => (List.mem_append.mp hx).elim (hrefused x) (hrefused' x)⟩
    rw [hlast, hback, List.append_assoc]

theorem Sound.shut (h : s.Sound capacity) (hclosed : s.closed = true) : s.Shut where
  stays _ hruns := hruns.shut h hclosed
  inert _ _ hstep hnot := hstep.inert h.placed hclosed hnot
  still hsealed _ := h.ending.still hsealed

end Closed

/-! ### The end of the iteration -/

section End

variable [DecidableEq Producer]

/-- The consumer ends where it has got every event that was sent, and only there. -/
structure Exhaustive (s : Shared Producer) : Prop where
  ends_iff : ∀ s', Step none s s' → (s'.ended = true ↔ s.received = s.accepted.map Prod.snd)
  complete : s.ended = true → s.queue = [] ∧ s.received = s.accepted.map Prod.snd
  goes_on : s.Sealed → s.ended = false → ∃ s', Step none s s'
  comes : s.closed = true → ∃ s', Runs s s' ∧ s'.ended = true

private theorem length_marker_le (p : Prop) [Decidable p] :
    (if p then [Item.finish] else []).length ≤ 1 := by
  split
  · exact Nat.le_refl 1
  · exact Nat.zero_le 1

omit [DecidableEq Producer] in
theorem Sound.complete (h : s.Sound capacity) (hended : s.ended = true) :
    s.queue = [] ∧ s.received = s.accepted.map Prod.snd := by
  have hmarker := h.faithful.marker
  rw [delivered, if_pos hended, List.append_assoc] at hmarker
  exact (eq_of_append_finish (length_marker_le _) hmarker).symm

private theorem Step.ended_iff (h : Step none s s') (hs : s.Sound capacity) :
    s'.ended = true ↔ s.received = s.accepted.map Prod.snd := by
  have horder := hs.faithful.order
  have hmarker := hs.faithful.marker
  cases h with
  | @take _ e c hon htake =>
    have hwaiting : s.waiting = e :: c.items.filterMap Item.event? :=
      congrArg (List.filterMap Item.event?) (items_of_take htake).1
    refine iff_of_false (fun hended => ?_) fun hall => ?_
    · cases hon.symm.trans hended
    · rw [← hall, hwaiting] at horder
      cases List.append_right_eq_self.mp horder
  | @takeEnd _ c hon htake =>
    have hqueue : s.queue = .finish :: c.items := (items_of_take htake).1
    rw [delivered, hon, if_neg Bool.false_ne_true, List.append_nil, hqueue] at hmarker
    exact iff_of_true rfl (eq_of_append_finish (length_marker_le _) hmarker).1

/-- The consumer takes an item wherever one waits. -/
theorem exists_take {item : Item} {rest : List Item} (hqueue : s.queue = item :: rest)
    (hon : s.ended = false) :
    ∃ s', Step none s s' ∧ s'.queue = rest ∧ (item = .finish → s'.ended = true) := by
  have htake : s.gate.channel.take? = some (item, { s.gate.channel with items := rest }) := by
    unfold Channel.take?
    rw [show s.gate.channel.items = item :: rest from hqueue]
  cases item with
  | event e => exact ⟨_, .take hon htake, rfl, nofun⟩
  | finish => exact ⟨_, .takeEnd hon htake, rfl, fun _ => rfl⟩

/-- An empty channel has room for the end marker. -/
theorem exists_putFinish (hwho : s.activity who = .within .close (.putting .finish))
    (hqueue : s.queue = []) :
    ∃ s', Step (some who) s s' ∧ s'.queue = [.finish] ∧ s'.ended = s.ended :=
  ⟨_, .go hwho (.put (isFull_of_items_eq_nil hqueue)), congrArg (· ++ [Item.finish]) hqueue, rfl⟩

omit [DecidableEq Producer] in
private theorem Sound.queue_ne_nil (h : s.Sound capacity) (hsealed : s.Sealed) (hon : s.ended = false) :
    s.queue ≠ [] := by
  intro hqueue
  have hmarker := h.faithful.marker
  rw [delivered, hon, if_neg Bool.false_ne_true, List.append_nil, hqueue, List.append_nil,
    if_pos hsealed] at hmarker
  have hmem : Item.finish ∈ s.received.map Item.event := by
    rw [hmarker]
    exact List.mem_append_right _ (List.mem_singleton_self _)
  obtain ⟨e, -, he⟩ := List.mem_map.mp hmem
  cases he

private theorem Sound.goes_on (h : s.Sound capacity) (hsealed : s.Sealed) (hon : s.ended = false) :
    ∃ s', Step none s s' := by
  obtain ⟨item, rest, hqueue⟩ := List.exists_cons_of_ne_nil (h.queue_ne_nil hsealed hon)
  obtain ⟨s', hstep, -, -⟩ := exists_take hqueue hon
  exact ⟨s', hstep⟩

/-- The consumer makes room for the end marker, and comes to it. -/
theorem Sound.comes (h : s.Sound capacity) (hclosed : s.closed = true) :
    ∃ s', Runs s s' ∧ s'.ended = true := by
  induction hn : s.queue.length generalizing s with
  | zero =>
    -- either the end has come, or the marker is still to be put and there is room for it
    have hqueue : s.queue = [] := List.length_eq_zero_iff.mp hn
    by_cases hended : s.ended = true
    · exact ⟨s, .refl, hended⟩
    · have hon : s.ended = false := by simpa using hended
      rcases h.ending.closing hclosed with hsealed | ⟨who, hwho⟩
      · exact absurd hqueue (h.queue_ne_nil hsealed hon)
      · obtain ⟨s₁, hput, hqueue₁, hon₁⟩ := exists_putFinish hwho hqueue
        obtain ⟨s₂, htake, -, hended₂⟩ := exists_take hqueue₁ (hon₁.trans hon)
        exact ⟨s₂, .tail (.single ⟨some who, hput⟩) ⟨none, htake⟩, hended₂ rfl⟩
  | succ n ih =>
    obtain ⟨item, rest, hqueue⟩ := List.exists_cons_of_length_eq_add_one hn
    have hon : s.ended = false := by
      by_contra hended
      have hnothing := (h.complete (by simpa using hended)).1
      cases hqueue.symm.trans hnothing
    obtain ⟨s₁, hstep, hrest, -⟩ := exists_take hqueue hon
    have hlength : s₁.queue.length = n := by
      rw [hrest]
      rw [hqueue] at hn
      exact Nat.succ.inj hn
    obtain ⟨s', hruns, hended⟩ := ih (hstep.sound h) (hstep.closed_mono hclosed) hlength
    exact ⟨s', .head ⟨none, hstep⟩ hruns, hended⟩

private theorem Sound.exhaustive (h : s.Sound capacity) : s.Exhaustive where
  ends_iff _ hstep := hstep.ended_iff h
  complete := h.complete
  goes_on := h.goes_on
  comes := h.comes

/-- **Channels deliver what is sent, in order and once.** In every state that comes about, of any
number of producers and for any capacity, what the consumer has got and what waits is what was
sent, with at most one end marker behind it; after the first close nothing more is sent; and the
consumer ends exactly where it has got everything. -/
theorem Reachable.delivery (h : Reachable capacity s) :
    s.Faithful capacity ∧ (s.closed = true → s.Shut) ∧ s.Exhaustive :=
  ⟨h.sound.faithful, h.sound.shut, h.sound.exhaustive⟩

/-- A producer closes a channel that is full, while another one waits for the lock. -/
theorem delivery_full : ∃ s : Shared Bool, Reachable 1 s ∧ s.closed = true ∧ ¬ s.Sealed ∧
    s.queue = [.event ⟨[], []⟩] ∧ s.activity false = .within (.emit ⟨[], []⟩) .outside ∧
    s.Faithful 1 ∧ s.Shut ∧ s.Exhaustive := by
  have hcall : Reachable 1 _ := .single ⟨some true, .call (.emit ⟨[], []⟩) rfl⟩
  have henter : Reachable 1 _ := .tail hcall ⟨some true, .go rfl (.enter rfl)⟩
  have haccept : Reachable 1 _ := .tail henter ⟨some true, .go rfl (.accept rfl)⟩
  have hput : Reachable 1 _ := .tail haccept ⟨some true, .go rfl (.put rfl)⟩
  have hleave : Reachable 1 _ := .tail hput ⟨some true, .leave rfl⟩
  have hclose : Reachable 1 _ := .tail hleave ⟨some true, .call .close rfl⟩
  have hagain : Reachable 1 _ := .tail hclose ⟨some true, .go rfl (.enter rfl)⟩
  have hshut : Reachable 1 _ := .tail hagain ⟨some true, .go rfl (.shut rfl)⟩
  have hlate : Reachable 1 _ := .tail hshut ⟨some false, .call (.emit ⟨[], []⟩) rfl⟩
  obtain ⟨hfaithful, hshut', hexhaustive⟩ := hlate.delivery
  exact ⟨_, hlate, rfl, by decide, rfl, rfl, hfaithful, hshut' rfl, hexhaustive⟩

end End

end Shared

end Channel

end ServerPages
