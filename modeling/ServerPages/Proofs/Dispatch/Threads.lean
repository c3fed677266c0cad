import ServerPages.Dispatch
import ServerPages.Proofs.Metadata.Gate
import ServerPages.Proofs.Page.Course

/-!
# The threads of a dispatch

Two threads answer a request. The dispatcher sends the event that names the request, starts the
thread of the page, and then writes the header from what it takes from the channel; behind the
end marker it writes the body, if the last status is that of success. What it cannot encode it
cannot write, and then it has no step left. The page's thread takes the course of the page, reports
the fault that escapes while the channel is open, and closes the channel. The steps of the two
interleave in any order (`Dispatching.Step`).
-/

namespace ServerPages

open Channel (Call Item Place)

namespace Dispatching

/-- What is to be dispatched, and how. -/
structure Setup where
  request : Option Request
  course : Course
  format : Format
  capacity : Nat

namespace Setup

/-- The event that names the request. -/
def opening (p : Setup) : Signal := (Dispatcher.opening p.request).signal

/-- All events that are to be written. -/
def events (p : Setup) : List Signal := p.opening :: p.course.events

end Setup

/-- The threads that use the channel. -/
inductive User where
  | dispatcher
  | page
  deriving DecidableEq, Repr

/-! ### The thread of the page -/

/-- What the thread of the page has still to do. -/
inductive Duty where
  /-- To take the rest of a course. -/
  | course (rest : Course)
  /-- To report a fault by the rest of some events. -/
  | report (events : List Signal)
  /-- To close the channel in any case. -/
  | close
  | done
  deriving DecidableEq, Repr

namespace Duty

/-- The call on the channel that comes next. -/
def call? : Duty → Option Call
  | .course ⟨.send e :: _, _⟩ | .course ⟨.offer e :: _, _⟩ | .report (e :: _) => some (.emit e)
  | .course ⟨.close :: _, _⟩ | .close => some .close
  | .course ⟨.write _ :: _, _⟩ | .course ⟨[], _⟩ | .report [] | .done => none

/-- What remains to do after a call; a refusal escapes the course unless the event was only
offered. -/
def next : Duty → Option Fault → Duty
  | .course ⟨.send _ :: _, _⟩, some refusal => .course ⟨[], some refusal⟩
  | .course ⟨_ :: ds, f⟩, _ => .course ⟨ds, f⟩
  | .report (_ :: es), none => .report es
  | .report (_ :: _), some _ => .close
  | .course ⟨[], _⟩, _ | .report [], _ | .close, _ | .done, _ => .done

/-- What is done next without a call on the channel: the bytes that are written, and what remains
to do. -/
def move? (closed : Bool) : Duty → Option (Bytes × Duty)
  | .course ⟨.write b :: ds, f⟩ => some (b, .course ⟨ds, f⟩)
  | .course ⟨[], none⟩ => some ([], .close)
  | .course ⟨[], some f⟩ => some ([], if closed then .close else .report (Signal.report f))
  | .report [] => some ([], .close)
  | .course ⟨_ :: _, _⟩ | .report (_ :: _) | .close | .done => none

variable {d d' : Duty} {call : Call} {b : Bytes} {closed : Bool}

/-- All calls that a duty may make. -/
theorem call?_cases (h : d.call? = some call) :
    (∃ e ds f, d = .course ⟨.send e :: ds, f⟩ ∧ call = .emit e) ∨
      (∃ e ds f, d = .course ⟨.offer e :: ds, f⟩ ∧ call = .emit e) ∨
      (∃ e es, d = .report (e :: es) ∧ call = .emit e) ∨
      (∃ ds f, d = .course ⟨.close :: ds, f⟩ ∧ call = .close) ∨ d = .close ∧ call = .close := by
  unfold call? at h
  split at h
  · cases h
    exact .inl ⟨_, _, _, rfl, rfl⟩
  · cases h
    exact .inr (.inl ⟨_, _, _, rfl, rfl⟩)
  · cases h
    exact .inr (.inr (.inl ⟨_, _, rfl, rfl⟩))
  · cases h
    exact .inr (.inr (.inr (.inl ⟨_, _, rfl, rfl⟩)))
  · cases h
    exact .inr (.inr (.inr (.inr ⟨rfl, rfl⟩)))
  all_goals cases h

/-- All that may be done without a call. -/
theorem move?_cases (h : d.move? closed = some (b, d')) :
    (∃ ds f, d = .course ⟨.write b :: ds, f⟩ ∧ d' = .course ⟨ds, f⟩) ∨
      b = [] ∧ (d = .course ⟨[], none⟩ ∧ d' = .close ∨
        (∃ f, d = .course ⟨[], some f⟩ ∧
          d' = if closed then .close else .report (Signal.report f)) ∨
        d = .report [] ∧ d' = .close) := by
  unfold move? at h
  split at h
  · cases h
    exact .inl ⟨_, _, rfl, rfl⟩
  · cases h
    exact .inr ⟨rfl, .inl ⟨rfl, rfl⟩⟩
  · cases h
    exact .inr ⟨rfl, .inr (.inl ⟨_, rfl, rfl⟩)⟩
  · cases h
    exact .inr ⟨rfl, .inr (.inr ⟨rfl, rfl⟩)⟩
  all_goals cases h

/-- A duty that is not done makes a call, or does something without one. -/
theorem exists_move (closed : Bool) (hcall : d.call? = none) (hd : d ≠ .done) :
    ∃ b d', d.move? closed = some (b, d') := by
  unfold call? at hcall
  split at hcall
  all_goals try cases hcall
  · exact ⟨_, _, rfl⟩
  · next f => cases f <;> exact ⟨_, _, rfl⟩
  · exact ⟨_, _, rfl⟩
  · exact absurd rfl hd

end Duty

/-! ### The dispatcher -/

/-- What the dispatcher is about to do. -/
inductive Writer where
  /-- To send the event that names the request. -/
  | announcing (place : Place)
  /-- To start the thread of the page. -/
  | starting
  /-- To take the next item from the channel. -/
  | reading (taken : List Signal)
  /-- To write what an event adds to the header. -/
  | writing (taken : List Signal) (e : Signal)
  /-- To conclude the header. -/
  | concluding (taken : List Signal)
  /-- To write the body if the last status is that of success. -/
  | answering (taken : List Signal)
  | done (taken : List Signal) (status : List Letter)
  deriving DecidableEq, Repr

namespace Writer

/-- Whether the thread of the page has been started. -/
def hasStarted : Writer → Bool
  | .announcing _ | .starting => false
  | .reading _ | .writing _ _ | .concluding _ | .answering _ | .done _ _ => true

/-- The items that have been taken from the channel. -/
def delivered : Writer → List Item
  | .announcing _ | .starting => []
  | .reading taken => taken.map .event
  | .writing taken e => (taken ++ [e]).map .event
  | .concluding taken | .answering taken | .done taken _ => taken.map .event ++ [.finish]

end Writer

/-! ### The two threads together -/

/-- A state of a dispatch. -/
structure State where
  gate : Gate User
  /-- The body that the page has written so far. -/
  body : Bytes := []
  duty : Duty
  /-- How far the thread of the page is with a call. -/
  place : Place := .outside
  writer : Writer := .announcing .outside
  /-- What has been written to the web server of the header. -/
  header : Bytes := []
  /-- What has been written to the web server of the body. -/
  sent : Bytes := []

/-- The state in which a dispatch begins. -/
def Setup.initial (p : Setup) : State where
  gate := { channel := { capacity := p.capacity } }
  duty := .course p.course

/-- One step of one of the threads. A dispatcher that is to write lines which cannot be encoded has no
step left: it leaves with a fault, and nothing takes from the channel after it. -/
inductive Step (p : Setup) : State → State → Prop
  | announce {s : State} {g : Gate User} {place place' : Place}
      (hw : s.writer = .announcing place)
      (h : Call.Step .dispatcher (.emit p.opening) s.gate place g place') :
    Step p s { s with gate := g, writer := .announcing place' }
  | announced {s : State} (hw : s.writer = .announcing (.leaving none)) :
    Step p s { s with gate := { s.gate with holder := none }, writer := .starting }
  | start {s : State} (hw : s.writer = .starting) : Step p s { s with writer := .reading [] }
  | call {s : State} {call : Call} {g : Gate User} {place : Place}
      (hs : s.writer.hasStarted = true) (hcall : s.duty.call? = some call)
      (h : Call.Step .page call s.gate s.place g place) :
    Step p s { s with gate := g, place }
  | leave {s : State} {refusal : Option Fault} (hs : s.writer.hasStarted = true)
      (h : s.place = .leaving refusal) :
    Step p s { s with
      gate := { s.gate with holder := none }, place := .outside, duty := s.duty.next refusal }
  | move {s : State} {b : Bytes} {duty : Duty} (hs : s.writer.hasStarted = true)
      (h : s.duty.move? s.gate.channel.closed = some (b, duty)) :
    Step p s { s with body := s.body ++ b, duty }
  | take {s : State} {taken : List Signal} {e : Signal} {c : Channel}
      (hw : s.writer = .reading taken) (h : s.gate.channel.take? = some (.event e, c)) :
    Step p s { s with gate := { s.gate with channel := c }, writer := .writing taken e }
  | takeEnd {s : State} {taken : List Signal} {c : Channel}
      (hw : s.writer = .reading taken) (h : s.gate.channel.take? = some (.finish, c)) :
    Step p s { s with gate := { s.gate with channel := c }, writer := .concluding taken }
  | write {s : State} {taken : List Signal} {e : Signal} {b : Bytes}
      (hw : s.writer = .writing taken e)
      (h : Header.encode? (Header.linesAtOnce p.format e) = some b) :
    Step p s { s with header := s.header ++ b, writer := .reading (taken ++ [e]) }
  | conclude {s : State} {taken : List Signal} {b : Bytes} (hw : s.writer = .concluding taken)
      (h : Header.encode? (Header.linesAtEnd p.format taken) = some b) :
    Step p s { s with header := s.header ++ b, writer := .answering taken }
  | answer {s : State} {taken : List Signal} (hw : s.writer = .answering taken) :
    Step p s { s with
      sent := if Header.statusOf taken = Letter.ofText Event.statusOk then s.body else [],
      writer := .done taken (Header.statusOf taken) }

/-- The states that come about in some order of the steps. -/
inductive Reachable (p : Setup) : State → Prop
  | initial : Reachable p p.initial
  | step {s s' : State} (hs : Reachable p s) (h : Step p s s') : Reachable p s'

/-- The thread of the page has come to its end. -/
def State.PageEnded (s : State) : Prop := s.duty = .done ∧ s.place = .outside

/-- The page has come to its end, and the dispatcher has taken the end marker. -/
def State.IsThrough (s : State) : Prop := s.PageEnded ∧ .finish ∈ s.writer.delivered

/-- Both threads have come to their end. -/
def State.IsComplete (s : State) : Prop :=
  s.PageEnded ∧ ∃ taken status, s.writer = .done taken status

end Dispatching

end ServerPages
