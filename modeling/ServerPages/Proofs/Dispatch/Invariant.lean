import Mathlib.Tactic.ByContra
import ServerPages.Proofs.Dispatch.Threads

/-!
# What the threads of a dispatch keep

The invariant that carries all that is known of the two threads is the flow of items
(`State.Flows`): what the dispatcher has taken, what waits in the channel and what is still to be
put are together always the events of the course and the end marker behind them. Beside it stand
who holds the lock (`State.Locked`), that the end marker comes with the channel closed
(`State.Marked`), and what has been written of the header (`State.Written`) and of the body
(`State.Told`). Each is kept by every step of either thread, and so holds in every state that can
be reached (`Reachable.inv`, `Reachable.told`).
-/

namespace ServerPages

open Channel (Call Item Place)

namespace Dispatching

variable {p : Setup} {s s' : State}

/-! ### What is still to be put -/

/-- The items that are to be put into the channel in the course of a duty. -/
def Duty.items (d : Duty) (closed : Bool) : List Item :=
  if closed then [] else
    match d with
    | .course c => c.events.map .event ++ [.finish]
    | .report es => es.map .event ++ [.finish]
    | .close => [.finish]
    | .done => []

theorem Duty.items_done (closed : Bool) : Duty.done.items closed = [] := by
  cases closed <;> rfl

/-- A call on an open channel puts the next item. -/
theorem Duty.items_of_call {d : Duty} {call : Call} (h : d.call? = some call) :
    d.items false = call.item :: (d.next none).items call.closes := by
  obtain ⟨e, ds, f, rfl, rfl⟩ | ⟨e, ds, f, rfl, rfl⟩ | ⟨e, es, rfl, rfl⟩ | ⟨ds, f, rfl, rfl⟩ |
    ⟨rfl, rfl⟩ := Duty.call?_cases h
  · show (⟨.send e :: ds, f⟩ : Course).events.map Item.event ++ [.finish] = _
    rw [Course.events_send]
    rfl
  · show (⟨.offer e :: ds, f⟩ : Course).events.map Item.event ++ [.finish] = _
    rw [Course.events_offer]
    rfl
  · rfl
  · show (⟨.close :: ds, f⟩ : Course).events.map Item.event ++ [.finish] = _
    rw [Course.events_close]
    rfl
  · rfl

/-- What is done without a call puts nothing. -/
theorem Duty.items_of_move {d d' : Duty} {b : Bytes} {closed : Bool}
    (h : d.move? closed = some (b, d')) : d'.items closed = d.items closed := by
  cases closed with
  | true => rfl
  | false =>
    obtain ⟨ds, f, rfl, rfl⟩ | ⟨-, ⟨rfl, rfl⟩ | ⟨f, rfl, rfl⟩ | ⟨rfl, rfl⟩⟩ := Duty.move?_cases h
    · show _ = (⟨.write b :: ds, f⟩ : Course).events.map Item.event ++ [.finish]
      rw [Course.events_write]
      rfl
    · rfl
    · show _ = (⟨[], some f⟩ : Course).events.map Item.event ++ [.finish]
      rw [Course.events_nil]
      rfl
    · rfl

/-- The items that the page is still to put. -/
def State.pending (s : State) : List Item :=
  Place.items s.place (s.duty.items s.gate.channel.closed)
    fun refusal => (s.duty.next refusal).items s.gate.channel.closed

/-- The items that the dispatcher is still to put. -/
def Writer.pending (p : Setup) : Writer → List Item
  | .announcing place => Place.items place [.event p.opening] fun _ => []
  | _ => []

theorem Writer.pending_of_hasStarted {w : Writer} (hs : w.hasStarted = true) :
    w.pending p = [] := by
  cases w with
  | announcing | starting => cases hs
  | reading | writing | concluding | answering | done => rfl

/-- All items that pass through the channel. -/
def Setup.items (p : Setup) : List Item := p.events.map .event ++ [.finish]

/-- What has been taken, what waits, and what is to be put make up all items. -/
def State.Flows (p : Setup) (s : State) : Prop :=
  s.writer.delivered ++ (s.gate.channel.items ++ (s.writer.pending p ++ s.pending)) = p.items

/-! ### The lock -/

/-- The thread that is within a call. -/
def occupant (writer : Writer) (place : Place) : Option User :=
  match writer with
  | .announcing place => if place = .outside then none else some .dispatcher
  | _ => if place = .outside then none else some .page

/-- The lock is held by the thread that is within a call. The page makes no call before it is
started. -/
structure State.Locked (s : State) : Prop where
  holder : s.gate.holder = occupant s.writer s.place
  place : s.writer.hasStarted = false → s.place = .outside
  call : s.place ≠ .outside → ∃ call, s.duty.call? = some call

theorem occupant_of_hasStarted {writer : Writer} (hs : writer.hasStarted = true) (place : Place) :
    occupant writer place = if place = .outside then none else some .page := by
  cases writer with
  | announcing | starting => cases hs
  | reading | writing | concluding | answering | done => rfl

private theorem Duty.call?_of_move {d d' : Duty} {b : Bytes} {closed : Bool}
    (h : d.move? closed = some (b, d')) : d.call? = none := by
  obtain ⟨ds, f, rfl, -⟩ | ⟨-, ⟨rfl, -⟩ | ⟨f, rfl, -⟩ | ⟨rfl, -⟩⟩ := Duty.move?_cases h <;> rfl

theorem State.Locked.outside_of_move {d : Duty} {b : Bytes} {closed : Bool} (hs : s.Locked)
    (h : s.duty.move? closed = some (b, d)) : s.place = .outside := by
  by_contra hin
  obtain ⟨call, hcall⟩ := hs.call hin
  rw [Duty.call?_of_move h] at hcall
  cases hcall

theorem Step.locked (h : Step p s s') (hs : s.Locked) : s'.Locked := by
  cases h with
  | announce hw h =>
    have hplace := hs.place (by rw [hw]; rfl)
    have hholder := hs.holder
    rw [hw] at hholder
    obtain ⟨hg, hin⟩ := h.holder_eq fun hout => hholder.trans (if_neg hout)
    exact ⟨hg.trans (if_neg hin).symm, fun _ => hplace, fun hout => absurd hplace hout⟩
  | announced hw =>
    have hplace := hs.place (by rw [hw]; rfl)
    exact ⟨(if_pos hplace).symm, fun _ => hplace, hs.call⟩
  | start hw =>
    have hplace := hs.place (by rw [hw]; rfl)
    have hholder := hs.holder
    rw [hw] at hholder
    exact ⟨hholder, fun _ => hplace, hs.call⟩
  | call hstarted hcall h =>
    have hholder := hs.holder
    rw [occupant_of_hasStarted hstarted] at hholder
    obtain ⟨hg, hin⟩ := h.holder_eq fun hout => hholder.trans (if_neg hout)
    refine ⟨hg.trans ?_, fun hw => absurd (hstarted.symm.trans hw) nofun, fun _ => ⟨_, hcall⟩⟩
    exact (if_neg hin).symm.trans (occupant_of_hasStarted hstarted _).symm
  | leave hstarted h =>
    exact ⟨(occupant_of_hasStarted hstarted .outside).symm, fun _ => rfl, fun h => absurd rfl h⟩
  | move hstarted h =>
    have hplace := hs.outside_of_move h
    exact ⟨hs.holder, hs.place, fun hin => absurd hplace hin⟩
  | take hw h | takeEnd hw h | write hw | conclude hw | answer hw =>
    have hholder := hs.holder
    rw [hw] at hholder
    exact ⟨hholder, nofun, hs.call⟩

/-! ### Before the page starts -/

/-- Until the page is started its channel is open and all of its course lies before it. -/
structure State.Fresh (p : Setup) (s : State) : Prop where
  closed : s.gate.channel.closed = false
  duty : s.duty = .course p.course
  body : s.body = []
  announcing : ∀ place, s.writer = .announcing place →
    place ≠ .putting .finish ∧ ∀ refusal, place ≠ .leaving (some refusal)

theorem Step.fresh (h : Step p s s') (hs : s.writer.hasStarted = false → s.Fresh p) :
    s'.writer.hasStarted = false → s'.Fresh p := by
  intro hstarted
  cases h with
  | announce hw h =>
    obtain ⟨hclosed, hduty, hbody, hplace⟩ := hs (by rw [hw]; rfl)
    have hplace := hplace _ hw
    cases h with
    | refuse hc => rw [hclosed] at hc; cases hc
    | enter | accept | put =>
      refine ⟨hclosed, hduty, hbody, fun place hw => ?_⟩
      obtain rfl := Writer.announcing.inj hw
      exact ⟨nofun, nofun⟩
  | announced hw =>
    obtain ⟨hclosed, hduty, hbody, -⟩ := hs (by rw [hw]; rfl)
    exact ⟨hclosed, hduty, hbody, nofun⟩
  | call hs _ _ | leave hs _ | move hs _ => cases hs.symm.trans hstarted
  | start | take | takeEnd | write | conclude | answer => cases hstarted

/-! ### The flow of items -/

theorem Step.flows (h : Step p s s') (hfresh : s.writer.hasStarted = false → s.Fresh p)
    (hlocked : s.Locked) (hs : s.Flows p) : s'.Flows p := by
  unfold State.Flows at hs ⊢
  rw [← hs]
  cases h with
  | @announce g place place' hw h =>
    obtain ⟨hclosed, -, -, -⟩ := hfresh (by rw [hw]; rfl)
    have hitems := h.items_eq (fun _ => [.event p.opening]) (fun _ _ => []) rfl
      fun hc => absurd (hclosed.symm.trans hc) nofun
    rw [hw, State.pending, h.closed_emit]
    show g.channel.items ++ (Writer.pending p (.announcing place') ++ s.pending) =
      s.gate.channel.items ++ (Writer.pending p (.announcing place) ++ s.pending)
    rw [← List.append_assoc, ← List.append_assoc]
    exact congrArg (· ++ s.pending) hitems
  | announced hw =>
    rw [hw]
    rfl
  | start hw =>
    rw [hw]
    rfl
  | @call call g place hstarted hcall h =>
    -- the step may close the channel, and then the duty behind the call puts nothing more
    have hitems := h.items_eq s.duty.items (fun c refusal => (s.duty.next refusal).items c)
      (Duty.items_of_call hcall) fun _ _ => rfl
    refine congrArg (s.writer.delivered ++ ·) ?_
    rw [Writer.pending_of_hasStarted hstarted]
    exact hitems
  | leave hstarted h =>
    rw [State.pending, State.pending, h]
    rfl
  | move hstarted h =>
    -- within a call there is no such step, so the items are those of the duty
    rw [State.pending, State.pending, hlocked.outside_of_move h]
    show _ ++ (_ ++ (_ ++ Duty.items _ _)) = _ ++ (_ ++ (_ ++ Duty.items _ _))
    rw [Duty.items_of_move h]
  | @take taken e c hw h =>
    obtain ⟨hitems, hclosed⟩ := Channel.items_of_take h
    rw [hw, hitems, State.pending, hclosed]
    show (taken ++ [e]).map Item.event ++ _ = taken.map Item.event ++ .event e :: _
    rw [List.map_append, List.append_assoc]
    rfl
  | @takeEnd taken c hw h =>
    obtain ⟨hitems, hclosed⟩ := Channel.items_of_take h
    rw [hw, hitems, State.pending, hclosed]
    show (taken.map Item.event ++ [.finish]) ++ _ = taken.map Item.event ++ .finish :: _
    rw [List.append_assoc]
    rfl
  | write hw =>
    rw [hw]
    rfl
  | conclude hw =>
    rw [hw]
    rfl
  | answer hw =>
    rw [hw]
    rfl

/-! ### The end marker -/

/-- The end marker comes with the channel closed. -/
def State.Marked (s : State) : Prop :=
  s.gate.channel.closed = false → .finish ∉ s.writer.delivered ∧
    .finish ∉ s.gate.channel.items ∧ s.place ≠ .putting .finish

theorem Step.marked (h : Step p s s') (hfresh : s.writer.hasStarted = false → s.Fresh p)
    (hs : s.Marked) : s'.Marked := by
  intro hclosed
  cases h with
  | @announce g place place' hw h =>
    obtain ⟨-, -, -, hplace⟩ := hfresh (by rw [hw]; rfl)
    have hopen : s.gate.channel.closed = false := h.closed_emit.symm.trans hclosed
    obtain ⟨-, hitems, hpage⟩ := hs hopen
    have hnot := h.finish_notMem (fun _ => ⟨hitems, (hplace place hw).1⟩) hclosed
    exact ⟨nofun, hnot.1, hpage⟩
  | announced hw | start hw =>
    obtain ⟨-, hitems, hpage⟩ := hs hclosed
    exact ⟨nofun, hitems, hpage⟩
  | call hstarted hcall h =>
    have hopen : s.gate.channel.closed = false := by
      by_contra hc
      cases hclosed.symm.trans (h.closed_mono (by simpa using hc))
    exact ⟨(hs hopen).1, h.finish_notMem (fun hc => (hs hc).2) hclosed⟩
  | leave => exact ⟨(hs hclosed).1, (hs hclosed).2.1, nofun⟩
  | move => exact hs hclosed
  | @take taken e c hw h =>
    obtain ⟨hitems, hc⟩ := Channel.items_of_take h
    obtain ⟨-, hnot, hpage⟩ := hs (hc.symm.trans hclosed)
    rw [hitems] at hnot
    refine ⟨?_, fun hmem => hnot (List.mem_cons_of_mem _ hmem), hpage⟩
    show Item.finish ∉ (taken ++ [e]).map Item.event
    simp
  | takeEnd hw h =>
    obtain ⟨hitems, hc⟩ := Channel.items_of_take h
    refine absurd ?_ (hs (hc.symm.trans hclosed)).2.1
    rw [hitems]
    exact List.mem_cons_self
  | @write taken e hw =>
    refine ⟨?_, (hs hclosed).2⟩
    show Item.finish ∉ (taken ++ [e]).map Item.event
    simp
  | conclude hw | answer hw =>
    have hnot := hs hclosed
    rw [hw] at hnot
    exact hnot

/-- A refusal comes from a closed channel. -/
def State.Refused (s : State) : Prop :=
  ∀ refusal, s.place = .leaving (some refusal) → s.gate.channel.closed = true

theorem Step.refused (h : Step p s s') (hl : s.Locked) (hs : s.Refused) : s'.Refused := by
  cases h with
  | announce hw h =>
    intro refusal hplace
    have hout := hl.place (by rw [hw]; rfl)
    cases hout.symm.trans hplace
  | call hstarted hcall h => exact h.closed_of_refusal hs
  | leave => exact nofun
  | take hw h | takeEnd hw h =>
    intro refusal hplace
    exact (Channel.items_of_take h).2.trans (hs refusal hplace)
  | announced | start | move | write | conclude | answer => exact hs

/-! ### What is written -/

/-- What has been written to the web server tells what has been taken. -/
def State.Written (p : Setup) (s : State) : Prop :=
  match s.writer with
  | .announcing _ | .starting => s.header = []
  | .reading taken | .writing taken _ | .concluding taken =>
    Header.encode? (taken.flatMap (Header.linesAtOnce p.format)) = some s.header
  | .answering taken => Header.encode? (Header.linesOf p.format taken) = some s.header
  | .done taken status =>
    Header.encode? (Header.linesOf p.format taken) = some s.header ∧ status = Header.statusOf taken

theorem Step.written (h : Step p s s') (hs : s.Written p) : s'.Written p := by
  unfold State.Written at hs ⊢
  cases h with
  | announce hw h | announced hw | take hw h | takeEnd hw h =>
    rw [hw] at hs
    exact hs
  | start hw =>
    rw [hw] at hs
    exact congrArg some hs.symm
  | call | leave | move => exact hs
  | @write taken e b hw h =>
    rw [hw] at hs
    show Header.encode? ((taken ++ [e]).flatMap _) = some (s.header ++ b)
    rw [List.flatMap_append, List.flatMap_singleton, Header.encode?_append, hs, h]
    rfl
  | @conclude taken b hw h =>
    rw [hw] at hs
    show Header.encode? (Header.linesOf p.format taken) = some (s.header ++ b)
    rw [Header.linesOf, Header.encode?_append, hs, h]
    rfl
  | answer hw =>
    rw [hw] at hs
    exact ⟨hs, rfl⟩

/-! ### The body -/

/-- The bytes that are still to be written to the body. -/
def Duty.bytes : Duty → Bytes
  | .course c => c.body
  | .report _ | .close | .done => []

/-- A duty writes nothing behind a close. -/
def Duty.IsQuiet : Duty → Prop
  | .course c => c.IsQuiet
  | .report _ | .close | .done => True

/-- The body of a quiet course is complete when the channel is closed. -/
structure State.Told (p : Setup) (s : State) : Prop where
  quiet : s.duty.IsQuiet
  body : s.body ++ s.duty.bytes = p.course.body
  closed : s.gate.channel.closed = true → s.duty.bytes = []
  sent : ∀ taken status, s.writer = .done taken status →
    s.sent = if Header.statusOf taken = Letter.ofText Event.statusOk then p.course.body else []

private theorem Duty.bytes_of_move {d d' : Duty} {b : Bytes} {closed : Bool}
    (h : d.move? closed = some (b, d')) (hd : d.IsQuiet) : b ++ d'.bytes = d.bytes ∧ d'.IsQuiet := by
  obtain ⟨ds, f, rfl, rfl⟩ | ⟨rfl, ⟨rfl, rfl⟩ | ⟨f, rfl, rfl⟩ | ⟨rfl, rfl⟩⟩ := Duty.move?_cases h
  · exact ⟨rfl, (Course.isQuiet_cons_iff.mp hd).2⟩
  · exact ⟨rfl, trivial⟩
  · cases closed <;> exact ⟨rfl, trivial⟩
  · exact ⟨rfl, trivial⟩

/-- A call writes nothing. A refusal ends the course, so nothing may be left to write then. -/
theorem Duty.bytes_of_call {d : Duty} {call : Call} (h : d.call? = some call) (hd : d.IsQuiet)
    {refusal : Option Fault} (hrefusal : refusal ≠ none → d.bytes = []) :
    (d.next refusal).bytes = d.bytes ∧ (d.next refusal).IsQuiet := by
  obtain ⟨e, ds, f, rfl, -⟩ | ⟨e, ds, f, rfl, -⟩ | ⟨e, es, rfl, -⟩ | ⟨ds, f, rfl, -⟩ |
    ⟨rfl, -⟩ := Duty.call?_cases h
  · cases refusal with
    | none => exact ⟨rfl, (Course.isQuiet_cons_iff.mp hd).2⟩
    | some refusal => exact ⟨(hrefusal nofun).symm, Course.isQuiet_nil⟩
  · exact ⟨rfl, (Course.isQuiet_cons_iff.mp hd).2⟩
  · cases refusal <;> exact ⟨rfl, trivial⟩
  · exact ⟨rfl, (Course.isQuiet_cons_iff.mp hd).2⟩
  · exact ⟨rfl, trivial⟩

private theorem Duty.bytes_of_close {d : Duty} (h : d.call? = some .close) (hd : d.IsQuiet) :
    d.bytes = [] := by
  obtain ⟨e, ds, f, -, he⟩ | ⟨e, ds, f, -, he⟩ | ⟨e, es, -, he⟩ | ⟨ds, f, rfl, -⟩ |
    ⟨rfl, -⟩ := Duty.call?_cases h
  · cases he
  · cases he
  · cases he
  · show [] ++ (⟨ds, f⟩ : Course).body = []
    exact Course.body_eq_nil ((Course.isQuiet_cons_iff.mp hd).1 rfl)
  · rfl

theorem Step.told (h : Step p s s') (hl : s.Locked) (hm : s.Marked) (hr : s.Refused)
    (hs : s.Told p) : s'.Told p := by
  obtain ⟨hquiet, hbody, hclosed, hsent⟩ := hs
  cases h with
  | announce hw h =>
    refine ⟨hquiet, hbody, fun hc => hclosed ?_, nofun⟩
    exact h.closed_emit.symm.trans hc
  | announced | start | write | conclude =>
    exact ⟨hquiet, hbody, hclosed, nofun⟩
  | take hw h | takeEnd hw h =>
    exact ⟨hquiet, hbody, fun hc => hclosed ((Channel.items_of_take h).2.symm.trans hc), nofun⟩
  | @call call g place hstarted hcall h =>
    refine ⟨hquiet, hbody, fun hc => ?_, hsent⟩
    rcases h.closed_eq with hsame | ⟨rfl, -⟩
    · exact hclosed (hsame.symm.trans hc)
    · exact Duty.bytes_of_close hcall hquiet
  | @leave refusal hstarted h =>
    obtain ⟨call, hcall⟩ := hl.call (by rw [h]; nofun)
    have hrefusal : refusal ≠ none → s.duty.bytes = [] := by
      cases refusal with
      | none => exact fun hne => absurd rfl hne
      | some f => exact fun _ => hclosed (hr f h)
    obtain ⟨hbytes, hnext⟩ := Duty.bytes_of_call hcall hquiet hrefusal
    exact ⟨hnext, by rw [← hbody]; exact congrArg (s.body ++ ·) hbytes,
      fun hc => hbytes.trans (hclosed hc), hsent⟩
  | @move b duty hstarted h =>
    obtain ⟨hbytes, hnext⟩ := Duty.bytes_of_move h hquiet
    refine ⟨hnext, ?_, fun hc => ?_, hsent⟩
    · show (s.body ++ b) ++ duty.bytes = _
      rw [List.append_assoc, hbytes, hbody]
    · have hnil := hclosed hc
      rw [← hbytes] at hnil
      exact (List.append_eq_nil_iff.mp hnil).2
  | @answer taken hw =>
    refine ⟨hquiet, hbody, hclosed, fun taken' status hdone => ?_⟩
    obtain ⟨rfl, rfl⟩ := Writer.done.inj hdone
    -- the end marker has been taken, so the channel is closed and the body complete
    have hc : s.gate.channel.closed = true := by
      by_contra hopen
      refine absurd ?_ (hm (by simpa using hopen)).1
      rw [hw]
      exact List.mem_append_right _ List.mem_cons_self
    rw [hclosed hc, List.append_nil] at hbody
    show (if _ then s.body else _) = _
    rw [hbody]

/-! ### All invariants -/

/-- What holds in every state that can be reached. -/
structure State.Inv (p : Setup) (s : State) : Prop where
  locked : s.Locked
  fresh : s.writer.hasStarted = false → s.Fresh p
  flows : s.Flows p
  marked : s.Marked
  refused : s.Refused
  written : s.Written p

private theorem Setup.inv_initial (p : Setup) : p.initial.Inv p where
  locked := ⟨rfl, fun _ => rfl, fun hin => absurd rfl hin⟩
  fresh := fun _ => by
    refine ⟨rfl, rfl, rfl, fun place hw => ?_⟩
    obtain rfl := Writer.announcing.inj hw
    exact ⟨nofun, nofun⟩
  flows := rfl
  marked := fun _ => ⟨nofun, nofun, nofun⟩
  refused := nofun
  written := rfl

theorem Step.inv (h : Step p s s') (hs : s.Inv p) : s'.Inv p where
  locked := h.locked hs.locked
  fresh := h.fresh hs.fresh
  flows := h.flows hs.fresh hs.locked hs.flows
  marked := h.marked hs.fresh hs.marked
  refused := h.refused hs.locked hs.refused
  written := h.written hs.written

theorem Reachable.inv (h : Reachable p s) : s.Inv p := by
  induction h with
  | initial => exact p.inv_initial
  | step _ h ih => exact h.inv ih

theorem Reachable.told (h : Reachable p s) (hquiet : p.course.IsQuiet) : s.Told p := by
  induction h with
  | initial => exact ⟨hquiet, rfl, nofun, nofun⟩
  | step hs h ih => exact h.told hs.inv.locked hs.inv.marked hs.inv.refused ih

end Dispatching

end ServerPages
