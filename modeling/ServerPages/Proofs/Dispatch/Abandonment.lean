import ServerPages.Proofs.Dispatch.Interleaving

/-!
# Dispatches that are given up

What is written to the web server may be refused, and what cannot be encoded is refused by the
dispatcher itself. The dispatcher gives up then and takes nothing more from the channel, while the thread of the page goes on alone (`Attempt.Step`). When the
dispatcher is through, be it that it has answered or given up, the page comes to its end exactly
if all that it is still to put finds room in the channel (`Attempt.canEnd_iff`). Otherwise it
comes to wait at the full channel, holds the lock, and no step is left
(`Attempt.Reachable.exists_deserted`).
-/

namespace ServerPages

open Channel (Call Item Place)
open Relation (ReflTransGen)

namespace Dispatching

variable {p : Setup} {s s' : State}

/-! ### How much waits in the channel -/

theorem Step.capacity_eq (h : Step p s s') :
    s'.gate.channel.capacity = s.gate.channel.capacity := by
  cases h with
  | announce _ h | call _ _ h => exact h.capacity_eq
  | take _ h | takeEnd _ h => exact Channel.capacity_of_take h
  | announced | start | leave | move | write | conclude | answer => rfl

theorem Step.length_le (h : Step p s s') (hlimit : 0 < s.gate.channel.capacity)
    (hs : s.gate.channel.items.length ≤ s.gate.channel.capacity) :
    s'.gate.channel.items.length ≤ s'.gate.channel.capacity := by
  cases h with
  | announce _ h | call _ _ h => exact h.length_le hlimit hs
  | take _ h | takeEnd _ h =>
    rw [(Channel.items_of_take h).1, List.length_cons] at hs
    rw [Channel.capacity_of_take h]
    exact Nat.le_of_succ_le hs
  | announced | start | leave | move | write | conclude | answer => exact hs

theorem Reachable.capacity_eq (h : Reachable p s) : s.gate.channel.capacity = p.capacity := by
  induction h with
  | initial => rfl
  | step _ h ih => exact h.capacity_eq.trans ih

/-- No more items wait than may. -/
theorem Reachable.length_le (h : Reachable p s) (hlimit : 0 < p.capacity) :
    s.gate.channel.items.length ≤ p.capacity := by
  rw [← h.capacity_eq]
  induction h with
  | initial => exact Nat.zero_le _
  | step hs h ih => exact h.length_le (hs.capacity_eq ▸ hlimit) ih

/-- The items are the events of the course between the event that names the request and the end
marker. -/
theorem State.Inv.length_eq (hs : s.Inv p) (hstarted : s.writer.hasStarted = true) :
    s.writer.delivered.length + (s.gate.channel.items.length + s.pending.length) =
      p.course.events.length + 2 := by
  have hlength := congrArg List.length hs.flows
  rw [Writer.pending_of_hasStarted hstarted, List.nil_append, List.length_append,
    List.length_append] at hlength
  rw [hlength, Setup.items, Setup.events]
  simp

/-! ### The page after the dispatcher -/

/-- The thread of the page waits for room, and there is none. -/
def State.PageWaits (s : State) : Prop :=
  (∃ item, s.place = .putting item) ∧ s.gate.channel.isFull = true

private theorem State.PageWaits.place_ne_outside (h : s.PageWaits) : s.place ≠ .outside := by
  obtain ⟨⟨item, hplace⟩, -⟩ := h
  rw [hplace]
  exact nofun

/-- All that is still to be put finds room in the channel, though nothing more is taken. -/
def State.FindsRoom (p : Setup) (s : State) : Prop :=
  p.capacity = 0 ∨ p.course.events.length + 2 ≤ s.writer.delivered.length + p.capacity

private theorem State.PageEnded.pending_eq (h : s.PageEnded) : s.pending = [] := by
  rw [State.pending, h.1, h.2]
  exact Duty.items_done _

/-- Where room is found, the page does not wait. -/
theorem Reachable.not_pageWaits (h : Reachable p s) (hstarted : s.writer.hasStarted = true)
    (hroom : s.FindsRoom p) : ¬ s.PageWaits := by
  rintro ⟨⟨item, hplace⟩, hfull⟩
  obtain ⟨hlimit, hfull⟩ := Channel.isFull_eq_true_iff.mp hfull
  rw [h.capacity_eq] at hlimit hfull
  have hlength := h.inv.length_eq hstarted
  -- the item that is to be put is one of those that find room
  have hpending : s.pending = item :: (s.duty.next none).items s.gate.channel.closed := by
    rw [State.pending, hplace]
    rfl
  rw [hpending, List.length_cons] at hlength
  rcases hroom with hzero | hroom <;> omega

/-- What a page has put when it has come to its end found room. -/
theorem Reachable.findsRoom (h : Reachable p s) (hstarted : s.writer.hasStarted = true)
    (hended : s.PageEnded) : s.FindsRoom p := by
  refine (Nat.eq_zero_or_pos p.capacity).imp_right fun hlimit => ?_
  have hlength := h.inv.length_eq hstarted
  have hbound := h.length_le hlimit
  rw [hended.pending_eq, List.length_nil] at hlength
  omega

/-- When the dispatcher has answered, nothing is left to be put. -/
theorem State.Inv.findsRoom_of_done {taken : List Signal} {status : List Letter} (hs : s.Inv p)
    (hw : s.writer = .done taken status) : s.FindsRoom p := by
  obtain ⟨rfl, -⟩ := hs.taken_eq taken (by rw [hw]; rfl)
  refine .inr ?_
  rw [hw, Writer.delivered, Setup.events]
  simp

/-! ### Attempts -/

/-- The dispatcher is about to write to the web server. Behind the body it flushes what it has
written. -/
def Writer.IsWriting (form : Format) : Writer → Prop
  | .writing _ e => Header.linesAtOnce form e ≠ []
  | .concluding taken => Header.linesAtEnd form taken ≠ []
  | .answering _ => True
  | .announcing _ | .starting | .reading _ | .done _ _ => False

theorem Writer.IsWriting.hasStarted {form : Format} {w : Writer} (h : w.IsWriting form) :
    w.hasStarted = true := by
  cases w with
  | announcing | starting => exact h.elim
  | reading | writing | concluding | answering | done => rfl

/-- A dispatch that may be given up. -/
structure Attempt where
  state : State
  /-- The dispatcher has given up. -/
  broken : Bool := false

namespace Attempt

variable {a b : Attempt}

/-- One step of one of the threads, or a refusal to write: the web server refuses what is written, or
it cannot be encoded. Each step of the dispatcher changes
what it is about to do, so once it has given up only those of the page are left. -/
inductive Step (p : Setup) : Attempt → Attempt → Prop
  | go {s s' : State} (h : Dispatching.Step p s s') : Step p ⟨s, false⟩ ⟨s', false⟩
  | refuse {s : State} (h : s.writer.IsWriting p.format) : Step p ⟨s, false⟩ ⟨s, true⟩
  | alone {s s' : State} (h : Dispatching.Step p s s') (hw : s'.writer = s.writer) :
    Step p ⟨s, true⟩ ⟨s', true⟩

/-- The attempts that come about in some order of the steps. -/
def Reachable (p : Setup) (a : Attempt) : Prop := ReflTransGen (Step p) ⟨p.initial, false⟩ a

/-- The dispatcher has answered or given up. -/
def IsOver (a : Attempt) : Prop :=
  a.broken = true ∨ ∃ taken status, a.state.writer = .done taken status

/-- The thread of the page can come to its end. -/
def CanEnd (p : Setup) (a : Attempt) : Prop :=
  ∃ b, ReflTransGen (Step p) a b ∧ b.state.PageEnded

private theorem Step.reachable (h : Step p a b) (ha : Dispatching.Reachable p a.state) :
    Dispatching.Reachable p b.state := by
  cases h with
  | go h | alone h => exact ha.step h
  | refuse => exact ha

/-- Giving up brings the two threads into no new state. -/
theorem Reachable.state (h : Reachable p a) : Dispatching.Reachable p a.state := by
  induction h with
  | refl => exact .initial
  | tail _ h ih => exact h.reachable ih

theorem Step.hasStarted (h : Step p a b) (ha : a.broken = true → a.state.writer.hasStarted = true)
    (hb : b.broken = true) : b.state.writer.hasStarted = true := by
  cases h with
  | go => cases hb
  | refuse h => exact h.hasStarted
  | alone h hw => exact (congrArg _ hw).trans (ha rfl)

/-- The page is started before the dispatcher answers or gives up. -/
theorem Reachable.hasStarted (h : Reachable p a) (hover : a.IsOver) :
    a.state.writer.hasStarted = true := by
  rcases hover with hbroken | ⟨taken, status, hw⟩
  · induction h with
    | refl => cases hbroken
    | tail _ h ih => exact h.hasStarted ih hbroken
  · rw [hw]
    rfl

/-- A dispatcher that has given up does nothing more. -/
theorem writer_eq (h : ReflTransGen (Step p) a b) (ha : a.broken = true) :
    b.broken = true ∧ b.state.writer = a.state.writer := by
  induction h with
  | refl => exact ⟨ha, rfl⟩
  | tail _ h ih =>
    cases h with
    | go | refuse => cases ih.1
    | alone h hw => exact ⟨rfl, hw.trans ih.2⟩

/-- When the dispatcher is through, the page goes on to its end or until it waits. -/
theorem exists_halt (broken : Bool) (hs : Dispatching.Reachable p s)
    (hstarted : s.writer.hasStarted = true) : ∃ s', Dispatching.Reachable p s' ∧
      s'.writer = s.writer ∧ ReflTransGen (Step p) ⟨s, broken⟩ ⟨s', broken⟩ ∧
      (s'.PageEnded ∨ s'.PageWaits) := by
  induction hn : s.weight using Nat.strongRecOn generalizing s with
  | ind n ih =>
    by_cases hhalt : s.PageEnded ∨ s.PageWaits
    · exact ⟨s, hs, rfl, .refl, hhalt⟩
    · obtain ⟨hended, hwaits⟩ := not_or.mp hhalt
      obtain ⟨t, hstep, hw⟩ := hs.inv.exists_step_of_page hstarted
        (fun item hplace => Bool.eq_false_iff.mpr fun hfull => hwaits ⟨⟨item, hplace⟩, hfull⟩)
        (fun hout hdone => hended ⟨hdone, hout⟩)
      have hlt := hstep.weight_lt hs.inv.locked
      obtain ⟨s', hs', hw', hrun, hend⟩ :=
        ih t.weight (hn ▸ hlt) (hs.step hstep) (hw ▸ hstarted) rfl
      refine ⟨s', hs', hw'.trans hw, .head ?_ hrun, hend⟩
      cases broken with
      | false => exact .go hstep
      | true => exact .alone hstep hw

/-- Where the dispatcher has given up, a page that waits has no step left. -/
theorem not_step_of_pageWaits (hs : Dispatching.Reachable p s)
    (hstarted : s.writer.hasStarted = true) (hwaits : s.PageWaits) : ¬ Step p ⟨s, true⟩ b := by
  obtain ⟨⟨item, hplace⟩, hfull⟩ := hwaits
  rintro (h | h | ⟨h, hw⟩)
  cases h with
  | announce hw' | announced hw' | start hw' =>
    rw [hw'] at hstarted
    cases hstarted
  | call _ _ h =>
    rw [hplace] at h
    cases h with
    | put hroom => cases hfull.symm.trans hroom
  | leave _ h => cases hplace.symm.trans h
  | move _ h => cases hplace.symm.trans (hs.inv.locked.outside_of_move h)
  | take hw' | takeEnd hw' | write hw' | conclude hw' | answer hw' => cases hw.trans hw'

/-- Once the dispatcher is through, the page can come to its end exactly where room is found. -/
theorem Reachable.canEnd_iff_findsRoom (h : Reachable p a) (hover : a.IsOver) :
    a.CanEnd p ↔ a.state.FindsRoom p := by
  have hstarted := h.hasStarted hover
  constructor
  · rintro ⟨b, hrun, hended⟩
    rcases hover with hbroken | ⟨taken, status, hw⟩
    · have hw := (writer_eq hrun hbroken).2
      have hroom := (Reachable.state (h.trans hrun)).findsRoom (hw ▸ hstarted) hended
      rwa [State.FindsRoom, hw] at hroom
    · exact h.state.inv.findsRoom_of_done hw
  · intro hroom
    obtain ⟨s', hs', hw, hrun, hended | hwaits⟩ := exists_halt a.broken h.state hstarted
    · exact ⟨_, hrun, hended⟩
    · have hroom' : s'.FindsRoom p := by rwa [State.FindsRoom, hw]
      exact absurd hwaits (hs'.not_pageWaits (hw ▸ hstarted) hroom')

/-- **A page may be deserted.** If what it is still to put finds no room when the dispatcher gives
up, it comes to wait at the full channel with the lock in its hands, and then no step is left. -/
theorem Reachable.exists_deserted (h : Reachable p a) (hbroken : a.broken = true)
    (hroom : ¬ a.state.FindsRoom p) :
    ∃ b, ReflTransGen (Step p) a b ∧ b.state.PageWaits ∧ b.state.gate.holder = some .page ∧
      ∀ c, ¬ Step p b c := by
  have hstarted := h.hasStarted (.inl hbroken)
  obtain ⟨s', hs', hw, hrun, hended | hwaits⟩ := exists_halt true h.state hstarted
  · have hroom' := hs'.findsRoom (hw ▸ hstarted) hended
    rw [State.FindsRoom, hw] at hroom'
    exact absurd hroom' hroom
  · obtain ⟨s, rfl⟩ : ∃ s, a = ⟨s, true⟩ := ⟨a.state, by rw [← hbroken]⟩
    refine ⟨_, hrun, hwaits, ?_, fun c => not_step_of_pageWaits hs' (hw ▸ hstarted) hwaits⟩
    have hholder := hs'.inv.locked.holder
    rw [occupant_of_hasStarted (hw ▸ hstarted), if_neg hwaits.place_ne_outside] at hholder
    exact hholder

/-- **When a page can come to its end.** Whatever the page does, whatever the capacity and in
whatever order the threads take their steps: when the dispatcher has answered, the page can always
come to its end; and when it is through in any way, that holds exactly if the capacity is unlimited
or the items that have not been taken fit into the channel. -/
theorem canEnd_iff (request : Option Request) (course : Course) (format : Format)
    (capacity : Int) :
    let p : Setup := ⟨request, course, format, capacity.toNat⟩
    ∀ a, Reachable p a → a.IsOver →
      (a.broken = false → a.CanEnd p) ∧
      (a.CanEnd p ↔ capacity ≤ 0 ∨
        course.events.length + 2 ≤ a.state.writer.delivered.length + capacity) := by
  intro p a h hover
  refine ⟨fun hwhole => ?_, (h.canEnd_iff_findsRoom hover).trans ?_⟩
  · obtain ⟨taken, status, hw⟩ := hover.resolve_left (by rw [hwhole]; nofun)
    exact (h.canEnd_iff_findsRoom hover).mpr (h.state.inv.findsRoom_of_done hw)
  · show capacity.toNat = 0 ∨ course.events.length + 2 ≤ _ + capacity.toNat ↔ _
    omega

/-! ### A header that is refused at once -/

/-- The dispatcher has given up when it was to write the event that names the request. -/
def refusedAtOnce (p : Setup) : Attempt :=
  ⟨{ p.initial with writer := .writing [] p.opening }, true⟩

private theorem reachable_refusedAtOnce (hp : p.format = .structured) : Reachable p (refusedAtOnce p) := by
  have hentered : Reachable p ⟨_, false⟩ :=
    (ReflTransGen.single (.go (.announce rfl (.enter rfl)))).tail
      (.go (.announce rfl (.accept rfl)))
  have hput : Reachable p ⟨_, false⟩ :=
    hentered.tail (.go (.announce rfl (.put (Channel.isFull_of_items_eq_nil rfl))))
  have htaken : Reachable p ⟨_, false⟩ :=
    ((hput.tail (.go (.announced rfl))).tail (.go (.start rfl))).tail (.go (.take rfl rfl))
  refine htaken.tail (.refuse ?_)
  show Header.linesAtOnce p.format p.opening ≠ []
  have hknown : Header.isKnown p.opening = true := rfl
  rw [hp, Header.linesAtOnce, if_pos hknown]
  exact List.cons_ne_nil _ _

/-- A page that sends two empty events and returns. -/
def sendingTwice : Course := ⟨[.send ⟨[], []⟩, .send ⟨[], []⟩], none⟩

/-- The two events and the end marker find room in a channel for three. -/
theorem canEnd_sendingTwice : ∃ a, Reachable ⟨none, sendingTwice, .structured, 3⟩ a ∧
    a.IsOver ∧ a.broken = true ∧ a.CanEnd ⟨none, sendingTwice, .structured, 3⟩ := by
  have h := reachable_refusedAtOnce (p := ⟨none, sendingTwice, .structured, 3⟩) rfl
  exact ⟨_, h, .inl rfl, rfl,
    ((canEnd_iff none sendingTwice .structured 3 _ h (.inl rfl)).2).mpr (by decide)⟩

/-- In a channel for one item the second event finds no room: the page waits for ever. -/
theorem deserted_sendingTwice : ∃ a, Reachable ⟨none, sendingTwice, .structured, 1⟩ a ∧
    a.IsOver ∧ ¬ a.CanEnd ⟨none, sendingTwice, .structured, 1⟩ ∧
    ∃ b, ReflTransGen (Step ⟨none, sendingTwice, .structured, 1⟩) a b ∧ b.state.PageWaits ∧
      b.state.gate.holder = some .page ∧
      ∀ c, ¬ Step ⟨none, sendingTwice, .structured, 1⟩ b c := by
  have h := reachable_refusedAtOnce (p := ⟨none, sendingTwice, .structured, 1⟩) rfl
  have hroom : ¬ (refusedAtOnce ⟨none, sendingTwice, .structured, 1⟩).state.FindsRoom
      ⟨none, sendingTwice, .structured, 1⟩ := by
    rw [State.FindsRoom]
    decide
  exact ⟨_, h, .inl rfl, mt (h.canEnd_iff_findsRoom (.inl rfl)).mp hroom,
    h.exists_deserted rfl hroom⟩

end Attempt

end Dispatching

end ServerPages
