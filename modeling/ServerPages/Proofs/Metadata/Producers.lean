import Mathlib.Logic.Function.Basic
import Mathlib.Logic.Relation
import ServerPages.Proofs.Metadata.Gate

/-!
# Channels with many producers

Any number of producers share a channel, each of which makes whatever calls it likes, and one
consumer takes items until it comes to the end marker. Their steps interleave in any order
(`Channel.Shared.Step`). Each step keeps that a producer holds the lock where it is past the
beginning of a call, and stands where the call can get to (`Channel.Shared.Placed`); that what has
been taken and what waits are what was put, within the capacity (`Channel.Shared.Flows`); that the
end marker is the last item (`Channel.Shared.Ending`); and that the events which were put are those
of the calls that came back without a fault (`Channel.Shared.Accounted`). So all of it holds
in every state that comes about (`Channel.Shared.Reachable.sound`).
-/

namespace ServerPages

namespace Channel

variable {Producer : Type}

/-- What a producer is doing. -/
inductive Activity where
  | idle
  | within (call : Call) (place : Place)
  deriving DecidableEq, Repr

/-- A channel, the producers that share it, and its consumer. -/
structure Shared (Producer : Type) where
  gate : Gate Producer
  activity : Producer → Activity := fun _ => .idle
  /-- What was put into the channel and by whom, the first item first. -/
  log : List (Producer × Item) := []
  /-- The calls that have come to their end, each with the fault it was refused with. -/
  finished : List (Producer × Call × Option Fault) := []
  /-- The events that the consumer has got. -/
  received : List Signal := []
  /-- Whether the consumer has come to the end marker. -/
  ended : Bool := false

/-- What a step of a call from a place puts into the channel. -/
def Place.puts : Place → List Item
  | .putting item => [item]
  | .outside | .entered | .leaving _ => []

namespace Shared

/-- A channel that nobody has used yet; no capacity above 0 means that there is no limit. -/
def initial (capacity : Int) : Shared Producer where
  gate := { channel := { capacity := capacity.toNat } }

section Steps

variable [DecidableEq Producer]

/-- One step: of a producer, or of the consumer if no producer is named. -/
inductive Step : Option Producer → Shared Producer → Shared Producer → Prop
  /-- An idle producer makes a call. -/
  | call {s : Shared Producer} {who : Producer} (call : Call) (h : s.activity who = .idle) :
    Step (some who) s { s with activity := Function.update s.activity who (.within call .outside) }
  | go {s : Shared Producer} {who : Producer} {call : Call} {place place' : Place}
      {g : Gate Producer} (h : s.activity who = .within call place)
      (hstep : Call.Step who call s.gate place g place') :
    Step (some who) s { s with
      gate := g
      activity := Function.update s.activity who (.within call place')
      log := s.log ++ place.puts.map (who, ·) }
  /-- The value of the event has no text, which comes out only when the channel is open. -/
  | spoil {s : Shared Producer} {who : Producer} {e : Signal} (f : Fault)
      (h : s.activity who = .within (.emit e) .entered) (hopen : s.gate.channel.closed = false) :
    Step (some who) s { s with
      activity := Function.update s.activity who (.within (.emit e) (.leaving (some f))) }
  | leave {s : Shared Producer} {who : Producer} {call : Call} {refusal : Option Fault}
      (h : s.activity who = .within call (.leaving refusal)) :
    Step (some who) s { s with
      gate := { s.gate with holder := none }
      activity := Function.update s.activity who .idle
      finished := s.finished ++ [(who, call, refusal)] }
  | take {s : Shared Producer} {e : Signal} {c : Channel} (hon : s.ended = false)
      (h : s.gate.channel.take? = some (.event e, c)) :
    Step none s { s with gate := { s.gate with channel := c }, received := s.received ++ [e] }
  | takeEnd {s : Shared Producer} {c : Channel} (hon : s.ended = false)
      (h : s.gate.channel.take? = some (.finish, c)) :
    Step none s { s with gate := { s.gate with channel := c }, ended := true }

/-- Some steps, of whomever. -/
def Runs : Shared Producer → Shared Producer → Prop :=
  Relation.ReflTransGen fun s s' => ∃ who, Step who s s'

/-- The states that come about in some order of the steps. -/
def Reachable (capacity : Int) (s : Shared Producer) : Prop := Runs (initial capacity) s

end Steps

/-! ### Views of a state -/

/-- The items that wait in the channel. -/
def queue (s : Shared Producer) : List Item := s.gate.channel.items

/-- Whether the channel has been closed. -/
def closed (s : Shared Producer) : Bool := s.gate.channel.closed

/-- The items that the consumer has taken. -/
def delivered (s : Shared Producer) : List Item :=
  s.received.map .event ++ if s.ended then [.finish] else []

/-- The end marker has been put. -/
def Sealed (s : Shared Producer) : Prop := .finish ∈ s.log.map Prod.snd

end Shared

/-- The event of an item that is none of the end markers. -/
def Item.event? : Item → Option Signal
  | .event e => some e
  | .finish => none

/-- The event that a call has sent when it comes back. -/
def Call.sent? : Call → Option Fault → Option Signal
  | .emit e, none => some e
  | .emit _, some _ | .close, _ => none

/-- The event that a producer has sent but has not come back from. -/
def Activity.sent? : Activity → Option Signal
  | .within call (.leaving refusal) => call.sent? refusal
  | .within _ .outside | .within _ .entered | .within _ (.putting _) | .idle => none

namespace Shared

/-- The events that wait in the channel. -/
def waiting (s : Shared Producer) : List Signal := s.queue.filterMap Item.event?

/-- The events that were put into the channel and by whom, the first one first. -/
def accepted (s : Shared Producer) : List (Producer × Signal) :=
  s.log.filterMap fun x => x.2.event?.map (x.1, ·)

/-- The events of the calls that came back without a fault, in the order in which they came
back. -/
def returned (s : Shared Producer) : List (Producer × Signal) :=
  s.finished.filterMap fun x => (x.2.1.sent? x.2.2).map (x.1, ·)

/-- The event of the call that is about to come back without a fault. -/
def returning (s : Shared Producer) : List (Producer × Signal) :=
  (s.gate.holder.bind fun who => (s.activity who).sent?.map (who, ·)).toList

end Shared

/-! ### Where producers are -/

/-- The fault with which a call on a closed channel is refused. -/
def Call.refusal : Call → Option Fault
  | .emit e => some (late e)
  | .close => none

/-- A place that a call can get to on an open or a closed channel. -/
def Place.Fits (place : Place) (call : Call) (closed : Bool) : Prop :=
  match place with
  | .outside | .entered => True
  | .putting item => item = call.item ∧ closed = call.closes
  | .leaving refusal => closed = true → refusal = call.refusal

theorem Call.Step.fits {call : Call} {g g' : Gate Producer} {who : Producer} {place place' : Place}
    (h : Call.Step who call g place g' place') (hg : place.Fits call g.channel.closed) :
    place'.Fits call g'.channel.closed := by
  cases h with
  | enter => trivial
  | refuse | again => exact fun _ => rfl
  | accept h => exact ⟨rfl, h⟩
  | shut => exact ⟨rfl, rfl⟩
  | put =>
    intro hclosed
    have hcloses : true = call.closes := hclosed.symm.trans hg.2
    cases call with
    | emit e => cases hcloses
    | close => rfl

/-- A thread that takes a step held the lock, or takes it now. -/
theorem Call.Step.holder_or {call : Call} {g g' : Gate Producer} {who : Producer}
    {place place' : Place} (h : Call.Step who call g place g' place') :
    place ≠ .outside ∨ g.holder = none := by
  cases h with
  | enter h => exact .inr h
  | refuse | accept | again | shut | put => exact .inl nofun

private theorem Call.Step.items_puts {call : Call} {g g' : Gate Producer} {who : Producer}
    {place place' : Place} (h : Call.Step who call g place g' place') :
    g'.channel.items = g.channel.items ++ place.puts := by
  cases h with
  | enter | refuse | accept | again | shut => exact (List.append_nil _).symm
  | put => rfl

namespace Shared

variable {s s' : Shared Producer} {who : Producer} {capacity : Int}

/-- Who is past the beginning of a call holds the lock, and stands where the call can get to. -/
structure Placed (s : Shared Producer) : Prop where
  holder : ∀ {who call place}, s.activity who = .within call place → place ≠ .outside →
    s.gate.holder = some who
  fits : ∀ {who call place}, s.activity who = .within call place → place.Fits call s.closed

theorem Placed.initial : (initial capacity : Shared Producer).Placed where
  holder h := nomatch h
  fits h := nomatch h

/-- Where one producer takes a step of a call, no other one is past the beginning of a call. -/
theorem Placed.eq_outside (h : s.Placed) {call call' : Call} {place place' : Place}
    {other : Producer} (hwho : s.activity who = .within call place)
    (hin : place ≠ .outside ∨ s.gate.holder = none)
    (hother : s.activity other = .within call' place') (hne : other ≠ who) :
    place' = .outside := by
  by_contra hout
  have hholds := h.holder hother hout
  rcases hin with hin | hfree
  · exact hne (Option.some.inj (hholds.symm.trans (h.holder hwho hin)))
  · cases hfree.symm.trans hholds

variable [DecidableEq Producer]

/-- Where the activity of one producer changes, who is past the beginning of a call is that one,
or another one who was there before. -/
theorem Placed.update {g : Gate Producer} {activity : Activity} {log : List (Producer × Item)}
    {finished : List (Producer × Call × Option Fault)}
    (hown : ∀ call place, activity = .within call place →
      (place ≠ .outside → g.holder = some who) ∧ place.Fits call g.channel.closed)
    (hothers : ∀ other call place, other ≠ who → s.activity other = .within call place →
      (place ≠ .outside → g.holder = some other) ∧ place.Fits call g.channel.closed) :
    Placed { s with
      gate := g, activity := Function.update s.activity who activity, log := log,
      finished := finished } := by
  have hall := (Function.forall_update_iff s.activity fun w a => ∀ call place,
    a = .within call place → (place ≠ .outside → g.holder = some w) ∧
      place.Fits call g.channel.closed).2 ⟨hown, fun w hw call place => hothers w call place hw⟩
  exact ⟨fun h => (hall _ _ _ h).1, fun h => (hall _ _ _ h).2⟩

theorem Step.placed {actor : Option Producer} (h : Step actor s s') (hs : s.Placed) :
    s'.Placed := by
  cases h with
  | @call _ who call h =>
    refine Placed.update (fun call' place hown => ?_) fun other call' place _ hother =>
      ⟨hs.holder hother, hs.fits hother⟩
    obtain ⟨rfl, rfl⟩ : call = call' ∧ .outside = place := by simpa using hown
    exact ⟨fun hout => absurd rfl hout, trivial⟩
  | @go _ who call place place' g h hstep =>
    refine Placed.update (fun call' place'' hown => ?_) fun other call' place'' hne hother => ?_
    · obtain ⟨rfl, rfl⟩ : call = call' ∧ place' = place'' := by simpa using hown
      exact ⟨fun _ => (hstep.holder_eq (hs.holder h)).1, hstep.fits (hs.fits h)⟩
    · obtain rfl := hs.eq_outside h hstep.holder_or hother hne
      exact ⟨fun hout => absurd rfl hout, trivial⟩
  | @spoil _ who e f h hopen =>
    refine Placed.update (fun call' place hown => ?_) fun other call' place _ hother =>
      ⟨hs.holder hother, hs.fits hother⟩
    obtain ⟨rfl, rfl⟩ : .emit e = call' ∧ .leaving (some f) = place := by simpa using hown
    exact ⟨fun _ => hs.holder h nofun, fun hclosed => absurd (hopen.symm.trans hclosed) nofun⟩
  | @leave _ who call refusal h =>
    refine Placed.update nofun fun other call' place hne hother => ?_
    obtain rfl := hs.eq_outside h (.inl nofun) hother hne
    exact ⟨fun hout => absurd rfl hout, trivial⟩
  | take hon htake | takeEnd hon htake =>
    refine ⟨hs.holder, fun {who call place} hwho => ?_⟩
    have hfits := hs.fits hwho
    rw [closed, ← (items_of_take htake).2] at hfits
    exact hfits

/-! ### What passes the channel -/

/-- What has been taken and what waits are what was put, and no more waits than may. -/
structure Flows (s : Shared Producer) (capacity : Int) : Prop where
  passed : s.delivered ++ s.queue = s.log.map Prod.snd
  capacity_eq : s.gate.channel.capacity = capacity.toNat
  bounded : 0 < s.gate.channel.capacity → s.queue.length ≤ s.gate.channel.capacity

omit [DecidableEq Producer] in
theorem Flows.initial : Flows (initial capacity : Shared Producer) capacity where
  passed := rfl
  capacity_eq := rfl
  bounded _ := Nat.zero_le _

omit [DecidableEq Producer] in
theorem Flows.taken {item : Item} {c : Channel} {received : List Signal} {ended : Bool}
    (hs : s.Flows capacity) (htake : s.gate.channel.take? = some (item, c))
    (hdelivered : delivered { s with
      gate := { s.gate with channel := c }, received := received, ended := ended } =
        s.delivered ++ [item]) :
    Flows { s with
      gate := { s.gate with channel := c }, received := received, ended := ended } capacity where
  passed := by
    have hitems : s.queue = item :: c.items := (items_of_take htake).1
    rw [hdelivered, List.append_assoc]
    exact (congrArg (s.delivered ++ ·) hitems).symm.trans hs.passed
  capacity_eq := (capacity_of_take htake).trans hs.capacity_eq
  bounded hlimit := by
    have hitems : s.queue = item :: c.items := (items_of_take htake).1
    have hcapacity := capacity_of_take htake
    have hbound := hs.bounded (hcapacity ▸ hlimit)
    rw [hitems, List.length_cons] at hbound
    show c.items.length ≤ c.capacity
    omega

theorem Step.flows {actor : Option Producer} (h : Step actor s s') (hs : s.Flows capacity) :
    s'.Flows capacity := by
  cases h with
  | call | spoil | leave => exact ⟨hs.passed, hs.capacity_eq, hs.bounded⟩
  | @go _ who call place place' g h hstep =>
    refine ⟨?_, hstep.capacity_eq.trans hs.capacity_eq, fun hlimit => ?_⟩
    · show s.delivered ++ g.channel.items = (s.log ++ place.puts.map (who, ·)).map Prod.snd
      have hputs : (place.puts.map (who, ·)).map Prod.snd = place.puts := by
        rw [List.map_map]
        exact List.map_id _
      rw [hstep.items_puts, List.map_append, hputs, ← hs.passed, List.append_assoc]
      rfl
    · rw [hstep.capacity_eq] at hlimit
      exact hstep.length_le hlimit (hs.bounded hlimit)
  | @take _ e c hon htake =>
    refine hs.taken htake ?_
    simp [delivered, hon]
  | @takeEnd _ c hon htake =>
    refine hs.taken htake ?_
    simp [delivered, hon]

/-! ### The end marker -/

instance (s : Shared Producer) : Decidable s.Sealed :=
  inferInstanceAs (Decidable (Item.finish ∈ s.log.map Prod.snd))

/-- The end marker comes with the channel closed, and nothing comes behind it. -/
structure Ending (s : Shared Producer) : Prop where
  closed_of_sealed : s.Sealed → s.closed = true
  still : s.Sealed → ∀ {who call item}, s.activity who ≠ .within call (.putting item)
  closing : s.closed = true → s.Sealed ∨ ∃ who, s.activity who = .within .close (.putting .finish)
  marker : s.log.map Prod.snd =
    (s.accepted.map Prod.snd).map .event ++ if s.Sealed then [.finish] else []

omit [DecidableEq Producer] in
theorem Ending.initial : Ending (initial capacity : Shared Producer) where
  closed_of_sealed h := nomatch h
  still h := nomatch h
  closing h := nomatch h
  marker := rfl

/-- The producer that puts the end marker goes on to do so where another one takes a step. -/
theorem exists_update {activity : Producer → Activity} {a b : Activity}
    (hne : activity who ≠ a) (h : ∃ w, activity w = a) :
    ∃ w, Function.update activity who b w = a := by
  obtain ⟨w, hw⟩ := h
  have hother : w ≠ who := by
    rintro rfl
    exact hne hw
  exact ⟨w, (Function.update_of_ne hother ..).trans hw⟩

omit [DecidableEq Producer] in
private theorem Ending.not_sealed (hs : s.Ending) (hopen : s.closed = false) : ¬ s.Sealed := fun h =>
  absurd (hopen.symm.trans (hs.closed_of_sealed h)) nofun

/-- Where nothing is put and nothing closed, what holds of the end marker stays so. -/
theorem Ending.update {g : Gate Producer} {activity : Activity} {log : List (Producer × Item)}
    {finished : List (Producer × Call × Option Fault)} (hs : s.Ending) (hlog : log = s.log)
    (hclosed : g.channel.closed = s.closed)
    (hnot : s.activity who ≠ .within .close (.putting .finish))
    (hput : s.closed = true → ∀ call item, activity ≠ .within call (.putting item)) :
    Ending { s with
      gate := g, activity := Function.update s.activity who activity, log := log,
      finished := finished } := by
  subst hlog
  refine ⟨fun h => hclosed.trans (hs.closed_of_sealed h), fun h {w call item} => ?_,
    fun h => (hs.closing (hclosed.symm.trans h)).imp_right (exists_update hnot), hs.marker⟩
  exact (Function.forall_update_iff s.activity fun _ a => a ≠ .within call (.putting item)).2
    ⟨hput (hs.closed_of_sealed h) call item, fun _ _ => hs.still h⟩ w

/-- Closing the channel, the end marker is still to be put. -/
theorem Ending.shut {g : Gate Producer} (hs : s.Ending) (hopen : s.closed = false) :
    Ending { s with
      gate := g, activity := Function.update s.activity who (.within .close (.putting .finish)),
      log := s.log ++ [] } := by
  rw [List.append_nil]
  have hnot := hs.not_sealed hopen
  exact ⟨fun h => absurd h hnot, fun h => absurd h hnot,
    fun _ => .inr ⟨who, Function.update_self ..⟩, hs.marker⟩

/-- Nothing has been put behind the end marker where a call puts its item. -/
theorem Ending.put {g : Gate Producer} {call : Call} (hs : s.Ending) (hplaced : s.Placed)
    (h : s.activity who = .within call (.putting call.item)) (hclosed : s.closed = call.closes)
    (hg : g.channel.closed = s.closed) :
    Ending { s with
      gate := g, activity := Function.update s.activity who (.within call (.leaving none)),
      log := s.log ++ [(who, call.item)] } := by
  have hnot : ¬ s.Sealed := fun hsealed => hs.still hsealed h
  have hitems : s.log.map Prod.snd = (s.accepted.map Prod.snd).map .event := by
    simpa [hnot] using hs.marker
  -- whoever else puts an item would hold the lock too
  have hstill : ∀ {w call' item}, Function.update s.activity who (.within call (.leaving none)) w ≠
      .within call' (.putting item) := by
    intro w call' item
    have hleaving : Activity.within call (.leaving none) ≠ .within call' (.putting item) := nofun
    refine (Function.forall_update_iff s.activity fun _ a => a ≠ .within call' (.putting item)).2
      ⟨hleaving, fun other hne hput => ?_⟩ w
    cases hplaced.eq_outside h (.inl nofun) hput hne
  cases call with
  | emit e =>
    have hopen : s.closed = false := hclosed
    have hnot' : Item.finish ∉ (s.log ++ [(who, Item.event e)]).map Prod.snd := by
      simpa [Sealed] using hnot
    refine ⟨fun h' => absurd h' hnot', fun h' => absurd h' hnot',
      fun h' => absurd (hopen.symm.trans (hg.symm.trans h')) nofun, ?_⟩
    refine Eq.trans ?_ (congrArg (_ ++ ·) (if_neg hnot').symm)
    simp [hitems, accepted, Call.item, Item.event?]
  | close =>
    have hsealed : Item.finish ∈ (s.log ++ [(who, Item.finish)]).map Prod.snd := by simp
    refine ⟨fun _ => hg.trans hclosed, fun _ => hstill, fun _ => .inl hsealed, ?_⟩
    refine Eq.trans ?_ (congrArg (_ ++ ·) (if_pos hsealed).symm)
    simp [hitems, accepted, Call.item, Item.event?]

theorem Step.ending {actor : Option Producer} (h : Step actor s s') (hplaced : s.Placed)
    (hs : s.Ending) : s'.Ending := by
  cases h with
  | call call h =>
    refine hs.update rfl rfl (fun hput => ?_) fun _ _ _ => nofun
    cases h.symm.trans hput
  | @go _ who call place place' g h hstep =>
    cases hstep with
    | enter hfree | refuse hclosed | again hclosed =>
      refine hs.update (List.append_nil _) rfl (fun hput => ?_) fun _ _ _ => nofun
      cases h.symm.trans hput
    | accept hopen =>
      refine hs.update (List.append_nil _) rfl (fun hput => ?_) fun hclosed => ?_
      · cases h.symm.trans hput
      · cases hopen.symm.trans hclosed
    | shut hopen => exact hs.shut hopen
    | put hroom =>
      obtain ⟨rfl, hclosed⟩ := hplaced.fits h
      exact hs.put hplaced h hclosed rfl
  | spoil f h hopen =>
    refine hs.update rfl rfl (fun hput => ?_) fun _ _ _ => nofun
    cases h.symm.trans hput
  | leave h =>
    refine hs.update rfl rfl (fun hput => ?_) fun _ _ _ => nofun
    cases h.symm.trans hput
  | take hon htake | takeEnd hon htake =>
    have hclosed := (items_of_take htake).2
    exact ⟨fun h => hclosed.trans (hs.closed_of_sealed h), hs.still,
      fun h => hs.closing (hclosed.symm.trans h), hs.marker⟩

/-! ### The calls that come back -/

/-- The events that were put are those of the calls that came back without a fault, and of the
one that is about to. -/
def Accounted (s : Shared Producer) : Prop := s.accepted = s.returned ++ s.returning

end Shared

variable {who : Producer}

/-- Nobody who takes a step of a call is about to come back. -/
theorem Call.Step.sent?_eq_none {call : Call} {g g' : Gate Producer} {place place' : Place}
    (h : Call.Step who call g place g' place') : (Activity.within call place).sent? = none := by
  cases h <;> rfl

/-- The event that a step puts is the one that the call is about to come back from. -/
theorem Call.Step.toList_sent? {call : Call} {g g' : Gate Producer} {place place' : Place}
    (h : Call.Step who call g place g' place') (hg : place.Fits call g.channel.closed) :
    (Activity.within call place').sent?.toList = place.puts.filterMap Item.event? := by
  cases h with
  | enter | refuse | accept | again | shut => rfl
  | put =>
    obtain ⟨rfl, -⟩ := hg
    cases call <;> rfl

namespace Shared

variable {s s' : Shared Producer} {capacity : Int}

private theorem returning_of_holder (h : s.gate.holder = some who) :
    s.returning = ((s.activity who).sent?.map (who, ·)).toList := by
  rw [returning, h]
  rfl

theorem filterMap_puts (who : Producer) (items : List Item) :
    (items.map (who, ·)).filterMap (fun x => x.2.event?.map (x.1, ·)) =
      (items.filterMap Item.event?).map (who, ·) := by
  rw [List.filterMap_map, List.map_filterMap]
  rfl

variable [DecidableEq Producer]

/-- What is about to come back stays so where only another producer's activity changes, or where
one neither was nor is about to come back from an event it sent. -/
theorem returning_update {activity : Activity} {log : List (Producer × Item)}
    (hwas : (s.activity who).sent? = none) (his : activity.sent? = none) :
    returning { s with activity := Function.update s.activity who activity, log := log } =
      s.returning := by
  refine congrArg Option.toList (congrArg (Option.bind s.gate.holder) (funext fun w => ?_))
  show ((Function.update s.activity who activity) w).sent?.map (w, ·) = _
  by_cases hw : w = who
  · subst hw
    rw [Function.update_self, hwas, his]
  · rw [Function.update_of_ne hw]

theorem Step.accounted {actor : Option Producer} (h : Step actor s s') (hplaced : s.Placed)
    (hs : s.Accounted) : s'.Accounted := by
  cases h with
  | @call _ who call h =>
    refine hs.trans (congrArg (s.returned ++ ·) (returning_update ?_ rfl).symm)
    rw [h]
    rfl
  | @go _ who call place place' g h hstep =>
    -- nobody else is about to come back while this producer has the lock or gets it
    have hwas : s.returning = [] := by
      rcases hstep.holder_or with hin | hfree
      · rw [returning_of_holder (hplaced.holder h hin), h, hstep.sent?_eq_none]
        rfl
      · rw [returning, hfree]
        rfl
    have hholder : g.holder = some who := (hstep.holder_eq (hplaced.holder h)).1
    show (s.log ++ place.puts.map (who, ·)).filterMap _ = s.returned ++
      (g.holder.bind fun w => (Function.update s.activity who _ w).sent?.map (w, ·)).toList
    rw [hholder, Option.bind_some, Function.update_self, Option.toList_map,
      hstep.toList_sent? (hplaced.fits h), List.filterMap_append, filterMap_puts]
    refine congrArg (· ++ _) (hs.trans ?_)
    rw [hwas, List.append_nil]
  | @spoil _ who e f h hopen =>
    refine hs.trans (congrArg (s.returned ++ ·) (returning_update ?_ rfl).symm)
    rw [h]
    rfl
  | @leave _ who call refusal h =>
    have hback : s.returning = ((call.sent? refusal).map (who, ·)).toList := by
      rw [returning_of_holder (hplaced.holder h nofun), h]
      rfl
    show s.accepted = (s.finished ++ [(who, call, refusal)]).filterMap _ ++ []
    rw [List.append_nil, List.filterMap_append, hs, hback]
    refine congrArg (s.returned ++ ·) ?_
    cases hsent : call.sent? refusal <;> simp [hsent]
  | take hon htake | takeEnd hon htake => exact hs

/-! ### Every state -/

/-- What holds of every state that comes about. -/
structure Sound (s : Shared Producer) (capacity : Int) : Prop where
  placed : s.Placed
  flows : s.Flows capacity
  ending : s.Ending
  accounted : s.Accounted

omit [DecidableEq Producer] in
theorem Sound.initial : Sound (initial capacity : Shared Producer) capacity :=
  ⟨.initial, .initial, .initial, rfl⟩

theorem Step.sound {actor : Option Producer} (h : Step actor s s') (hs : s.Sound capacity) :
    s'.Sound capacity :=
  ⟨h.placed hs.placed, h.flows hs.flows, h.ending hs.placed hs.ending,
    h.accounted hs.placed hs.accounted⟩

theorem Runs.sound (h : Runs s s') (hs : s.Sound capacity) : s'.Sound capacity := by
  induction h with
  | refl => exact hs
  | tail _ hstep ih =>
    obtain ⟨actor, hstep⟩ := hstep
    exact hstep.sound ih

/-- **Every state that comes about is sound.** -/
theorem Reachable.sound (h : Reachable capacity s) : s.Sound capacity := Runs.sound h .initial

end Shared

end Channel

end ServerPages
