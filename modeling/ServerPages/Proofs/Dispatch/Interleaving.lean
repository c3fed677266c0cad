import Mathlib.Logic.Relation
import ServerPages.Proofs.Dispatch.Invariant
import ServerPages.Proofs.Dispatch.Outcome

/-!
# Interleavings

What comes of a dispatch does not depend on the order in which its two threads take their steps.
Each step leaves less to do, so every run ends. If the lines of the header can be encoded, no state
is stuck before both threads have come to their end, and the dispatcher then has answered as the
page's performance does, whatever the capacity of the channel. If they cannot, some state is stuck:
in the structured form the dispatcher then leaves the channel before the end marker
(`interleavings`).
-/

namespace ServerPages

open Channel (Call Item Place)

namespace Dispatching

variable {p : Setup} {s s' : State}

/-! ### What is written -/

/-- The lines that the dispatcher is about to write. -/
def Writer.lines (form : Format) : Writer → List (List Letter)
  | .writing _ e => Header.linesAtOnce form e
  | .concluding taken => Header.linesAtEnd form taken
  | .announcing _ | .starting | .reading _ | .answering _ | .done _ _ => []

/-- A dispatcher that has taken the end marker ends the header, or has ended it. -/
theorem Writer.cases_of_finish_mem {w : Writer} (h : .finish ∈ w.delivered) :
    ∃ taken, w.delivered = taken.map .event ++ [.finish] ∧
      (w = .concluding taken ∨ w = .answering taken ∨ ∃ status, w = .done taken status) := by
  cases w with
  | announcing | starting => cases h
  | reading | writing =>
    obtain ⟨e, -, he⟩ := List.mem_map.mp h
    cases he
  | concluding taken => exact ⟨taken, rfl, .inl rfl⟩
  | answering taken => exact ⟨taken, rfl, .inr (.inl rfl)⟩
  | done taken status => exact ⟨taken, rfl, .inr (.inr ⟨status, rfl⟩)⟩

/-- Once the end marker is taken, all events are, and nothing waits in the channel. -/
theorem State.Inv.taken_eq (hs : s.Inv p) (taken : List Signal)
    (hw : s.writer.delivered = taken.map .event ++ [.finish]) :
    taken = p.events ∧ s.gate.channel.items = [] := by
  have hflows : s.writer.delivered ++ _ = p.events.map .event ++ [.finish] := hs.flows
  rw [hw, List.append_assoc, List.singleton_append] at hflows
  have hmarker : [Item.finish].length ≤ 1 := Nat.le_refl 1
  obtain ⟨htaken, hrest⟩ := Channel.eq_of_append_finish hmarker hflows
  exact ⟨htaken, (List.append_eq_nil_iff.mp hrest).1⟩

/-- The dispatcher writes lines of the header. -/
theorem State.Inv.lines_subset (hs : s.Inv p) :
    s.writer.lines p.format ⊆ Header.linesOf p.format p.events := by
  cases hw : s.writer with
  | announcing | starting | reading | answering | done => exact List.nil_subset _
  | writing taken e =>
    have hitem : Item.event e ∈ p.items := by
      rw [← hs.flows, hw]
      exact List.mem_append_left _ (List.mem_map_of_mem (List.mem_append_right _
        List.mem_cons_self))
    have he : e ∈ p.events := by
      obtain ⟨e', he', h⟩ | hfinish := (List.mem_append.mp hitem).imp_left List.mem_map.mp
      · exact Item.event.inj h ▸ he'
      · cases List.mem_singleton.mp hfinish
    exact fun l hl => List.mem_append_left _ (List.mem_flatMap.mpr ⟨e, he, hl⟩)
  | concluding taken =>
    obtain ⟨rfl, -⟩ := hs.taken_eq taken (by rw [hw]; rfl)
    exact List.subset_append_right _ _

/-- Behind the end marker, what is to be written for each event has been written. -/
theorem State.Inv.isSome_encode?_of_marked (hs : s.Inv p) (hend : .finish ∈ s.writer.delivered) :
    (Header.encode? (p.events.flatMap (Header.linesAtOnce p.format))).isSome := by
  have hall {b : Bytes} (h : Header.encode? (Header.linesOf p.format p.events) = some b) :
      (Header.encode? (p.events.flatMap (Header.linesAtOnce p.format))).isSome := by
    have hlines := Header.isSome_encode?_iff.mp (Option.isSome_of_mem h)
    exact Header.isSome_encode?_iff.mpr fun l hl => hlines l (List.mem_append_left _ hl)
  have hwritten := hs.written
  rw [State.Written] at hwritten
  obtain ⟨taken, htaken, hw⟩ := Writer.cases_of_finish_mem hend
  obtain ⟨rfl, -⟩ := hs.taken_eq taken htaken
  obtain hw | hw | ⟨status, hw⟩ := hw <;> rw [hw] at hwritten
  · exact Option.isSome_of_mem hwritten
  · exact hall hwritten
  · exact hall hwritten.1

/-- What cannot be written, but in the structured form, stands at the end of the header. -/
theorem Writer.finish_mem_of_stuck {form : Format} {w : Writer} (hform : form ≠ .structured)
    (h : ¬ (Header.encode? (w.lines form)).isSome) : .finish ∈ w.delivered := by
  cases w with
  | announcing | starting | reading | answering | done => exact absurd rfl h
  | writing taken e =>
    have hnothing : Header.linesAtOnce form e = [] := by
      cases form with
      | structured => exact absurd rfl hform
      | raw | bare => rfl
    rw [Writer.lines, hnothing] at h
    exact absurd rfl h
  | concluding taken => exact List.mem_append_right _ List.mem_cons_self

private theorem State.IsComplete.isThrough (h : s.IsComplete) : s.IsThrough := by
  obtain ⟨hended, taken, status, hw⟩ := h
  refine ⟨hended, ?_⟩
  rw [hw]
  exact List.mem_append_right _ List.mem_cons_self

/-! ### Progress -/

/-- The page goes on until its end, whatever the dispatcher does, while there is room for what it
puts. -/
theorem State.Inv.exists_step_of_page (hs : s.Inv p) (hstarted : s.writer.hasStarted = true)
    (hroom : ∀ item, s.place = .putting item → s.gate.channel.isFull = false)
    (hend : s.place = .outside → s.duty ≠ .done) : ∃ s', Step p s s' ∧ s'.writer = s.writer := by
  by_cases hleave : ∃ refusal, s.place = .leaving refusal
  · obtain ⟨refusal, hplace⟩ := hleave
    exact ⟨_, .leave hstarted hplace, rfl⟩
  · cases hcall : s.duty.call? with
    | some call =>
      have hholder := hs.locked.holder
      rw [occupant_of_hasStarted hstarted] at hholder
      obtain ⟨g, place, hstep⟩ := call.exists_step (fun hout => hholder.trans (if_pos hout)) hroom
        fun refusal hplace => hleave ⟨refusal, hplace⟩
      exact ⟨_, .call hstarted hcall hstep, rfl⟩
    | none =>
      have hout : s.place = .outside := by
        by_contra hin
        obtain ⟨call, hsome⟩ := hs.locked.call hin
        cases hcall.symm.trans hsome
      obtain ⟨b, d, hmove⟩ := Duty.exists_move s.gate.channel.closed hcall (hend hout)
      exact ⟨_, .move hstarted hmove, rfl⟩

/-- Until the first event is put, nothing waits in the channel. -/
theorem State.Inv.items_of_announcing {place : Place} (hs : s.Inv p)
    (hw : s.writer = .announcing place) (hplace : ∀ refusal, place ≠ .leaving refusal) :
    s.gate.channel.items = [] := by
  obtain ⟨hclosed, hduty, -, -⟩ := hs.fresh (by rw [hw]; rfl)
  have hpending : (s.writer.pending p).length = 1 := by
    rw [hw]
    cases place with
    | outside | entered | putting => rfl
    | leaving refusal => exact absurd rfl (hplace refusal)
  have hpage : s.pending = p.course.events.map .event ++ [.finish] := by
    rw [State.pending, hs.locked.place (by rw [hw]; rfl), hduty, hclosed]
    rfl
  have hall : p.items = .event p.opening :: (p.course.events.map .event ++ [.finish]) := rfl
  -- the page and the dispatcher are still to put as many items as there are at all
  have hlength := congrArg List.length hs.flows
  rw [List.length_append, List.length_append, List.length_append, hpending, hpage, hall,
    List.length_cons] at hlength
  exact List.eq_nil_of_length_eq_zero (by omega)

/-- The dispatcher sends the first event without waiting. -/
theorem State.Inv.exists_step_of_announcing {place : Place} (hs : s.Inv p)
    (hw : s.writer = .announcing place) : ∃ s', Step p s s' := by
  obtain ⟨-, -, -, hplace⟩ := hs.fresh (by rw [hw]; rfl)
  obtain ⟨-, hrefusal⟩ := hplace place hw
  by_cases hleave : ∃ refusal, place = .leaving refusal
  · obtain ⟨_ | f, rfl⟩ := hleave
    · exact ⟨_, .announced hw⟩
    · exact absurd rfl (hrefusal f)
  · have hinside : ∀ refusal, place ≠ .leaving refusal := fun refusal h => hleave ⟨refusal, h⟩
    have hroom := Channel.isFull_of_items_eq_nil (hs.items_of_announcing hw hinside)
    have hholder := hs.locked.holder
    rw [hw] at hholder
    obtain ⟨g, place', hstep⟩ := (Call.emit p.opening).exists_step
      (fun hout => hholder.trans (if_pos hout)) (fun _ _ => hroom) hinside
    exact ⟨_, .announce hw hstep⟩

/-- While the dispatcher waits for items, the page has not come to its end: the end marker would
have nowhere to come from. -/
theorem State.Inv.ne_done_of_reading {taken : List Signal} (hs : s.Inv p)
    (hw : s.writer = .reading taken) (hitems : s.gate.channel.items = [])
    (hout : s.place = .outside) : s.duty ≠ .done := by
  intro hdone
  have hpending : s.pending = [] := by
    rw [State.pending, hout, hdone]
    exact Duty.items_done _
  have hflows := hs.flows
  rw [State.Flows, hw, hitems, hpending] at hflows
  have htaken : taken.map Item.event = p.events.map .event ++ [.finish] :=
    (List.append_nil _).symm.trans hflows
  have hfinish : Item.finish ∈ taken.map Item.event := by
    rw [htaken]
    exact List.mem_append_right _ List.mem_cons_self
  obtain ⟨e, -, he⟩ := List.mem_map.mp hfinish
  cases he

/-- What the page still does behind the end marker finds room, since nothing waits there. -/
theorem State.Inv.exists_step_of_marked (hs : s.Inv p) (hend : .finish ∈ s.writer.delivered) :
    s.PageEnded ∨ ∃ s', Step p s s' := by
  obtain ⟨taken, htaken, hw⟩ := Writer.cases_of_finish_mem hend
  obtain ⟨-, hitems⟩ := hs.taken_eq taken htaken
  have hstarted : s.writer.hasStarted = true := by
    obtain hw | hw | ⟨status, hw⟩ := hw <;> rw [hw] <;> rfl
  by_cases hended : s.PageEnded
  · exact .inl hended
  · obtain ⟨s', hstep, -⟩ := hs.exists_step_of_page hstarted
      (fun _ _ => Channel.isFull_of_items_eq_nil hitems) fun hout hdone => hended ⟨hdone, hout⟩
    exact .inr ⟨s', hstep⟩

/-- A state is not stuck before both threads have come to their end, if what the dispatcher is about
to write can be encoded. -/
theorem State.Inv.exists_step (hs : s.Inv p)
    (hlines : (Header.encode? (s.writer.lines p.format)).isSome) :
    s.IsComplete ∨ ∃ s', Step p s s' := by
  obtain ⟨b, hb⟩ := Option.isSome_iff_exists.mp hlines
  cases hw : s.writer with
  | announcing place => exact .inr (hs.exists_step_of_announcing hw)
  | starting => exact .inr ⟨_, .start hw⟩
  | writing taken e => exact .inr ⟨_, .write hw (hw ▸ hb)⟩
  | concluding taken => exact .inr ⟨_, .conclude hw (hw ▸ hb)⟩
  | answering taken => exact .inr ⟨_, .answer hw⟩
  | reading taken =>
    cases htake : s.gate.channel.take? with
    | some front =>
      obtain ⟨e | _, c⟩ := front
      · exact .inr ⟨_, .take hw htake⟩
      · exact .inr ⟨_, .takeEnd hw htake⟩
    | none =>
      have hitems := Channel.items_of_take_eq_none htake
      obtain ⟨s', hstep, -⟩ := hs.exists_step_of_page (by rw [hw]; rfl)
        (fun _ _ => Channel.isFull_of_items_eq_nil hitems) (hs.ne_done_of_reading hw hitems)
      exact .inr ⟨s', hstep⟩
  | done taken status =>
    have hend : .finish ∈ s.writer.delivered := by
      rw [hw]
      exact List.mem_append_right _ List.mem_cons_self
    exact (hs.exists_step_of_marked hend).imp_left fun hended => ⟨hended, taken, status, hw⟩

/-! ### Every run ends -/

/-- A bound on what the thread of the page has still to do: six steps for a call, those by which
the dispatcher takes and writes the item included. On a closed channel no fault is reported. -/
def Duty.weight (d : Duty) (closed : Bool) : Nat :=
  match d with
  | .course c =>
    6 * c.deeds.length + 8 +
      if closed then 0 else 6 * ((c.ending.map Signal.report).getD []).length + 1
  | .report es => 6 * es.length + 7
  | .close => 6
  | .done => 0

/-- A bound on what the dispatcher has still to do with the items that it has taken. -/
def Writer.weight : Writer → Nat
  | .announcing place => place.weight 10 fun _ => 4
  | .starting | .writing _ _ => 4
  | .reading _ => 3
  | .concluding _ => 2
  | .answering _ => 1
  | .done _ _ => 0

/-- A bound on what is still to do. -/
def State.weight (s : State) : Nat :=
  s.writer.weight + (2 * s.gate.channel.items.length +
    s.place.weight (s.duty.weight s.gate.channel.closed)
      fun refusal => (s.duty.next refusal).weight s.gate.channel.closed)

private theorem Duty.weight_of_call {d : Duty} {call : Call} (h : d.call? = some call) :
    (d.next none).weight call.closes + 6 ≤ d.weight false ∧
      ∀ refusal, (d.next refusal).weight true + 6 ≤ d.weight true := by
  obtain ⟨e, ds, f, rfl, rfl⟩ | ⟨e, ds, f, rfl, rfl⟩ | ⟨e, es, rfl, rfl⟩ | ⟨ds, f, rfl, rfl⟩ |
    ⟨rfl, rfl⟩ := Duty.call?_cases h
  all_goals refine ⟨?_, fun refusal => ?_⟩
  all_goals try cases refusal
  all_goals simp [Duty.weight, Duty.next, Call.closes]
  all_goals omega

private theorem Duty.weight_of_move {d d' : Duty} {b : Bytes} {closed : Bool}
    (h : d.move? closed = some (b, d')) : d'.weight closed < d.weight closed := by
  obtain ⟨ds, f, rfl, rfl⟩ | ⟨-, ⟨rfl, rfl⟩ | ⟨f, rfl, rfl⟩ | ⟨rfl, rfl⟩⟩ := Duty.move?_cases h
  all_goals cases closed
  all_goals simp [Duty.weight]
  all_goals omega

/-- **Each step leaves less to do.** -/
theorem Step.weight_lt (h : Step p s s') (hl : s.Locked) : s'.weight < s.weight := by
  unfold State.weight
  cases h with
  | @announce g place place' hw h =>
    have hweight := h.weight_lt (fun _ => 10) (fun _ _ => 4) (by decide) fun _ => by decide
    rw [hw, h.closed_emit]
    show place'.weight 10 (fun _ => 4) + (2 * g.channel.items.length + _) <
      place.weight 10 (fun _ => 4) + (2 * s.gate.channel.items.length + _)
    rw [← Nat.add_assoc, ← Nat.add_assoc, Nat.add_comm (place'.weight _ _),
      Nat.add_comm (place.weight _ _)]
    exact Nat.add_lt_add_right hweight _
  | announced hw | start hw | write hw _ | conclude hw _ | answer hw =>
    rw [hw]
    exact Nat.add_lt_add_right (Nat.lt_succ_self _) _
  | call hstarted hcall h =>
    obtain ⟨hopen, hclosed⟩ := Duty.weight_of_call hcall
    exact Nat.add_lt_add_left (h.weight_lt s.duty.weight
      (fun c refusal => (s.duty.next refusal).weight c) hopen hclosed) _
  | leave hstarted h =>
    rw [h]
    exact Nat.lt_succ_self _
  | move hstarted h =>
    have hmove := Duty.weight_of_move h
    rw [hl.outside_of_move h]
    exact Nat.add_lt_add_left (Nat.add_lt_add_left hmove _) _
  | take hw h | takeEnd hw h =>
    obtain ⟨hitems, hclosed⟩ := Channel.items_of_take h
    rw [hw, hitems, hclosed, List.length_cons]
    simp only [Writer.weight]
    omega

/-- From every state that can be reached, the threads come to a state in which no step is left. -/
theorem Reachable.exists_halt (h : Reachable p s) :
    ∃ s', Reachable p s' ∧ ∀ t, ¬ Step p s' t := by
  induction hn : s.weight using Nat.strongRecOn generalizing s with
  | ind n ih =>
    by_cases hhalt : ∃ t, Step p s t
    · obtain ⟨t, hstep⟩ := hhalt
      have hlt := hstep.weight_lt h.inv.locked
      exact ih t.weight (hn ▸ hlt) (h.step hstep) rfl
    · exact ⟨s, h, not_exists.mp hhalt⟩

/-- No run goes on for ever. -/
theorem not_exists_infinite (p : Setup) :
    ¬ ∃ run : Nat → State, run 0 = p.initial ∧ ∀ n, Step p (run n) (run (n + 1)) := by
  rintro ⟨run, hzero, hrun⟩
  have hreach : ∀ n, Reachable p (run n) := by
    intro n
    induction n with
    | zero => exact hzero ▸ .initial
    | succ n ih => exact ih.step (hrun n)
  have hweight : ∀ n, (run n).weight + n ≤ p.initial.weight := by
    intro n
    induction n with
    | zero => rw [hzero]; exact Nat.le_refl _
    | succ n ih =>
      have hlt := (hrun n).weight_lt (hreach n).inv.locked
      omega
  have hlast := hweight (p.initial.weight + 1)
  omega

/-! ### Outcomes -/

/-- What the dispatcher has written and returns at its end. -/
theorem Reachable.done {taken : List Signal} {status : List Letter} (h : Reachable p s)
    (hw : s.writer = .done taken status) :
    Header.encode? (Header.linesOf p.format p.events) = some s.header ∧
      status = Header.statusOf p.events := by
  obtain ⟨rfl, -⟩ := h.inv.taken_eq taken (by rw [hw]; rfl)
  have hwritten := h.inv.written
  rw [State.Written, hw] at hwritten
  exact hwritten

/-- A header that cannot be encoded leaves some state stuck, in the structured form one in which the
end marker is not taken. -/
theorem exists_stuck (h : Header.encode? (Header.linesOf p.format p.events) = none) :
    ∃ s, Reachable p s ∧ ¬ s.IsComplete ∧ (p.format = .structured → ¬ s.IsThrough) ∧
      ∀ t, ¬ Step p s t := by
  obtain ⟨s, hs, hhalt⟩ := (Reachable.initial (p := p)).exists_halt
  refine ⟨s, hs, ?_, fun hform => ?_, hhalt⟩
  · rintro ⟨-, taken, status, hw⟩
    cases h.symm.trans (hs.done hw).1
  · rintro ⟨-, hend⟩
    obtain ⟨b, hb⟩ := Option.isSome_iff_exists.mp (hs.inv.isSome_encode?_of_marked hend)
    rw [Header.linesOf, Header.encode?_append, hb, hform] at h
    cases h

/-- **A dispatch comes out the same in every order of its steps.** Whatever the capacity of the
channel, no state is stuck before the page has come to its end and the dispatcher has taken the end
marker, exactly if the form is not the structured one or the lines of the header can be encoded; and
no state is stuck before the dispatcher has answered as well, exactly if they can be. Those of events
always can (`Header.encode?_signals`). No run goes on for ever. When the dispatcher has answered, the
header and the status are those of the page's performance, and so is the body if the page writes
nothing behind a close. -/
theorem interleavings (request : Option Request) (course : Course) (format : Format)
    (capacity : Nat) :
    let p : Setup := ⟨request, course, format, capacity⟩
    let response := Dispatcher.response format request (Performance.ofAct course.act)
    let header :=
      Header.encode? (Header.linesOf format ((Dispatcher.opening request).signal :: course.events))
    ((∀ s, Reachable p s → s.IsThrough ∨ ∃ s', Step p s s') ↔
        (format = .structured → header.isSome)) ∧
      ((∀ s, Reachable p s → s.IsComplete ∨ ∃ s', Step p s s') ↔ header.isSome) ∧
      (¬ ∃ run : Nat → State, run 0 = p.initial ∧ ∀ n, Step p (run n) (run (n + 1))) ∧
      ∀ s, Reachable p s → ∀ taken status, s.writer = .done taken status →
        header = some s.header ∧ status = response.status ∧
          (course.IsQuiet → s.header ++ s.sent = response.content) := by
  intro p response header
  have hstuck (hnone : ¬ header.isSome) :=
    exists_stuck (p := p) (Option.not_isSome_iff_eq_none.mp hnone)
  have hlines {s : State} (hs : s.Inv p) (hsome : header.isSome) :
      (Header.encode? (s.writer.lines p.format)).isSome :=
    Header.isSome_encode?_iff.mpr fun l hl =>
      Header.isSome_encode?_iff.mp hsome l (hs.lines_subset hl)
  refine ⟨⟨fun hgo hform => ?_, fun hsome s hs => ?_⟩, ⟨fun hgo => ?_, fun hsome s hs => ?_⟩,
    not_exists_infinite p, ?_⟩
  · by_contra hnone
    obtain ⟨s, hs, -, hthrough, hhalt⟩ := hstuck hnone
    obtain hend | ⟨s', hstep⟩ := hgo s hs
    · exact hthrough hform hend
    · exact hhalt s' hstep
  · by_cases hwriter : (Header.encode? (s.writer.lines p.format)).isSome
    · exact (hs.inv.exists_step hwriter).imp_left State.IsComplete.isThrough
    · -- only the end of the header cannot be written, and the page may go on behind the end marker
      have hend := Writer.finish_mem_of_stuck
        (fun hform => hwriter (hlines hs.inv (hsome hform))) hwriter
      exact (hs.inv.exists_step_of_marked hend).imp_left fun hended => ⟨hended, hend⟩
  · by_contra hnone
    obtain ⟨s, hs, hcomplete, -, hhalt⟩ := hstuck hnone
    obtain hend | ⟨s', hstep⟩ := hgo s hs
    · exact hcomplete hend
    · exact hhalt s' hstep
  · exact hs.inv.exists_step (hlines hs.inv hsome)
  · intro s hs taken status hw
    obtain ⟨hheader, hstatus⟩ := hs.done hw
    refine ⟨hheader, ?_, fun hquiet => ?_⟩
    · have hresponse : response.status =
          Header.statusOf (Dispatcher.signals request (Performance.ofAct course.act)) := rfl
      rw [hresponse, Dispatcher.signals_ofAct]
      exact hstatus
    · obtain ⟨notes, hresponse⟩ := Dispatcher.response_of_course hquiet hheader
      have hcontent : response.content = _ := congrArg Response.content hresponse
      have hsent := (hs.told hquiet).sent taken status hw
      obtain ⟨rfl, -⟩ := hs.inv.taken_eq taken (by rw [hw]; rfl)
      rw [hcontent, hsent]
      rfl

/-- A channel for a single item is full before the page starts. The page then waits for room
while it holds the lock, and still there is a step. -/
theorem interleavings_waiting : ∃ s,
    Reachable ⟨none, ⟨[.send ⟨[], []⟩], none⟩, .structured, 1⟩ s ∧
      s.place = .putting (.event ⟨[], []⟩) ∧ s.gate.channel.isFull = true ∧
      ∃ s', Step ⟨none, ⟨[.send ⟨[], []⟩], none⟩, .structured, 1⟩ s s' := by
  have hannounced := ((Reachable.initial (p := ⟨none, ⟨[.send ⟨[], []⟩], none⟩, .structured, 1⟩)).step
    (.announce rfl (.enter rfl))).step (.announce rfl (.accept rfl))
  have hstarted := ((hannounced.step (.announce rfl (.put rfl))).step (.announced rfl)).step
    (.start rfl)
  have hwaiting := (hstarted.step (.call rfl rfl (.enter rfl))).step (.call rfl rfl (.accept rfl))
  refine ⟨_, hwaiting, rfl, rfl, ?_⟩
  have hgo := (interleavings none ⟨[.send ⟨[], []⟩], none⟩ .structured 1).1.mpr fun _ => by decide
  obtain ⟨⟨-, hout⟩, -⟩ | hstep := hgo _ hwaiting
  · cases hout
  · exact hstep

/-- A page that reports half of a surrogate pair leaves the dispatch stuck: the line of the event
cannot be encoded, and the end marker is never taken. -/
theorem interleavings_halfPair :
    let halfPair : Signal := ⟨Letter.ofText "error-message".toList, [.half 0xd800]⟩
    ∃ s, Reachable ⟨none, ⟨[.send halfPair], none⟩, .structured, 5⟩ s ∧ ¬ s.IsThrough ∧
      ∀ t, ¬ Step ⟨none, ⟨[.send halfPair], none⟩, .structured, 5⟩ s t := by
  intro halfPair
  obtain ⟨s, hs, -, hthrough, hhalt⟩ :=
    exists_stuck (p := ⟨none, ⟨[.send halfPair], none⟩, .structured, 5⟩) (by decide)
  exact ⟨s, hs, hthrough rfl, hhalt⟩

end Dispatching

end ServerPages
