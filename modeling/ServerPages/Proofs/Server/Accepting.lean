import Mathlib.Logic.Function.Basic
import Mathlib.Logic.Relation
import ServerPages.Server.Connection

/-!
# The accept loop and its workers

A server accepts one connection after the other and hands each to a worker of its own. The loop
looks twice whether the server is to end: before it waits for a connection, and again behind each
one that it accepts. It keeps a list of the workers, from which it drops those that have ended
whenever it adds one, and when it is through it waits for all workers on the list. A worker
handles its connection, and if it was asked to exit it tells the server and knocks at its socket.
The steps of the loop (`Serving.LoopStep`), of the workers (`Serving.WorkerStep`) and of the
clients interleave in any order (`Serving.Step`).
-/

namespace ServerPages

open Connection (Chunk Outcome WayBack)

namespace Serving

/-! ### Clients -/

/-- A client that connects to the server. -/
structure Client where
  /-- What it sends, and what else comes of receiving from it. -/
  chunks : List Chunk
  /-- Whether it is received from at all before the time is up. -/
  patient : Bool := true
  back : WayBack := .clear

/-- A client that says nothing, as the server itself does when it knocks. -/
def Client.silent : Client := { chunks := [] }

/-- What comes of handling the connection of a client. -/
def Client.outcome (d : Dispatcher) (pid : Text) (around : Surroundings) (c : Client) : Outcome :=
  Connection.handle d pid around c.patient c.chunks c.back

/-! ### Workers -/

/-- How far a worker is. -/
inductive Worker where
  /-- It has not been started. -/
  | created
  | handling
  /-- The connection has been handled; the server is to be told to end. -/
  | telling (o : Outcome)
  /-- The server has been told; the worker is to knock at its socket. -/
  | knocking (o : Outcome)
  /-- The connection is to be closed. -/
  | closing (o : Outcome)
  | leaving (o : Outcome)
  | ended (o : Outcome)

namespace Worker

/-- Whether a worker has been started and has not ended. -/
def isRunning : Worker → Bool
  | .created | .ended _ => false
  | .handling | .telling _ | .knocking _ | .closing _ | .leaving _ => true

/-- What has come of the connection. -/
def outcome? : Worker → Option Outcome
  | .created | .handling => none
  | .telling o | .knocking o | .closing o | .leaving o | .ended o => some o

/-- Whether the connection has been closed. -/
def hasClosed : Worker → Bool
  | .created | .handling | .telling _ | .knocking _ | .closing _ => false
  | .leaving _ | .ended _ => true

/-- A worker that has handled its connection. -/
def handled (o : Outcome) : Worker := if o.exit then .telling o else .closing o

end Worker

/-! ### The server -/

/-- What the accept loop is about to do. Connections go by their numbers, and so do workers. -/
inductive Loop where
  /-- To look whether the server is to end. -/
  | checking
  /-- To wait for a connection, until the time is up. -/
  | selecting
  | accepting
  /-- To look again, now that a connection has been accepted. -/
  | deciding (n : Nat)
  /-- To close a connection that is not handled. -/
  | dismissing (n : Nat)
  /-- To look which workers run: some are `kept`, and others are `left` to be looked at. -/
  | pruning (n : Nat) (kept left : List Nat)
  /-- To put a worker on the list. -/
  | enlisting (n : Nat)
  | starting (n : Nat)
  /-- To wait for the workers that are `left`, one after the other. -/
  | joining (left : List Nat)
  | returned

/-- A state of the server. -/
structure State where
  loop : Loop := .checking
  /-- Whether the server is to end. -/
  flag : Bool := false
  /-- The clients that have connected, in their order. -/
  clients : List Client := []
  /-- The connections that have been accepted, in the same order: whether the server was to end
  by then. -/
  accepted : List Bool := []
  worker : Nat → Option Worker := fun _ => none
  /-- The list of the workers that the server keeps. -/
  workers : List Nat := []
  /-- The connections that have been closed. -/
  closed : List Nat := []

namespace State

variable (s : State)

/-- The worker of a connection gets on. -/
def put (n : Nat) (w : Worker) : State :=
  { s with worker := Function.update s.worker n (some w) }

/-- A worker runs. -/
def IsRunning (n : Nat) : Prop := ∃ w, s.worker n = some w ∧ w.isRunning = true

end State

/-- One step of the accept loop. -/
inductive LoopStep : State → State → Prop
  | look {s : State} (hl : s.loop = .checking) (hf : s.flag = false) :
    LoopStep s { s with loop := .selecting }
  | leave {s : State} (hl : s.loop = .checking) (hf : s.flag = true) :
    LoopStep s { s with loop := .joining s.workers }
  /-- The time is up. -/
  | pause {s : State} (hl : s.loop = .selecting) : LoopStep s { s with loop := .checking }
  | select {s : State} (hl : s.loop = .selecting) (h : s.accepted.length < s.clients.length) :
    LoopStep s { s with loop := .accepting }
  | accept {s : State} (hl : s.loop = .accepting) (h : s.accepted.length < s.clients.length) :
    LoopStep s { s with
      loop := .deciding s.accepted.length, accepted := s.accepted ++ [s.flag] }
  | refuse {s : State} {n : Nat} (hl : s.loop = .deciding n) (hf : s.flag = true) :
    LoopStep s { s with loop := .dismissing n }
  | dismiss {s : State} {n : Nat} (hl : s.loop = .dismissing n) :
    LoopStep s { s with loop := .joining s.workers, closed := n :: s.closed }
  | create {s : State} {n : Nat} (hl : s.loop = .deciding n) (hf : s.flag = false) :
    LoopStep s { s.put n .created with loop := .pruning n [] s.workers }
  | keep {s : State} {n m : Nat} {kept left : List Nat} (hl : s.loop = .pruning n kept (m :: left))
    (h : s.IsRunning m) : LoopStep s { s with loop := .pruning n (kept ++ [m]) left }
  | drop {s : State} {n m : Nat} {kept left : List Nat} (hl : s.loop = .pruning n kept (m :: left))
    (h : ¬ s.IsRunning m) : LoopStep s { s with loop := .pruning n kept left }
  | replace {s : State} {n : Nat} {kept : List Nat} (hl : s.loop = .pruning n kept []) :
    LoopStep s { s with loop := .enlisting n, workers := kept }
  | enlist {s : State} {n : Nat} (hl : s.loop = .enlisting n) :
    LoopStep s { s with loop := .starting n, workers := s.workers ++ [n] }
  | start {s : State} {n : Nat} (hl : s.loop = .starting n) :
    LoopStep s { s.put n .handling with loop := .checking }
  | join {s : State} {m : Nat} {left : List Nat} {o : Outcome}
    (hl : s.loop = .joining (m :: left)) (h : s.worker m = some (.ended o)) :
    LoopStep s { s with loop := .joining left }
  | finish {s : State} (hl : s.loop = .joining []) : LoopStep s { s with loop := .returned }

section Steps

variable (d : Dispatcher) (pid : Text)

/-- One step of the worker of a connection. -/
inductive WorkerStep (n : Nat) : State → State → Prop
  /-- The connection is handled in what surroundings there are by then. -/
  | handle {s : State} {c : Client} (around : Surroundings) (hw : s.worker n = some .handling)
    (hc : s.clients[n]? = some c) :
    WorkerStep n s (s.put n (.handled (c.outcome d pid around)))
  | tell {s : State} {o : Outcome} (hw : s.worker n = some (.telling o)) :
    WorkerStep n s { s.put n (.knocking o) with flag := true }
  | knock {s : State} {o : Outcome} (hw : s.worker n = some (.knocking o)) :
    WorkerStep n s { s.put n (.closing o) with clients := s.clients ++ [.silent] }
  /-- Nobody listens any more. -/
  | knockInVain {s : State} {o : Outcome} (hw : s.worker n = some (.knocking o)) :
    WorkerStep n s (s.put n (.closing o))
  | close {s : State} {o : Outcome} (hw : s.worker n = some (.closing o)) :
    WorkerStep n s { s.put n (.leaving o) with closed := n :: s.closed }
  | finish {s : State} {o : Outcome} (hw : s.worker n = some (.leaving o)) :
    WorkerStep n s (s.put n (.ended o))

/-- One step of the server, of a client, or of who asks it to end from outside. -/
inductive Step : State → State → Prop
  | loop {s s' : State} (h : LoopStep s s') : Step s s'
  | worker {s s' : State} (n : Nat) (h : WorkerStep d pid n s s') : Step s s'
  | connect {s : State} (c : Client) : Step s { s with clients := s.clients ++ [c] }
  | stop {s : State} : Step s { s with flag := true }

/-- The states that come about in some order of the steps. -/
def Reachable (s : State) : Prop := Relation.ReflTransGen (Step d pid) {} s

end Steps

end Serving

end ServerPages
