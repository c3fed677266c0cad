import ServerPages.Proofs.Server.Exit
import ServerPages.Proofs.Server.Invariant

/-!
# Ending a server

A server that is to end can return from every state (`Serving.Reachable.exists_returned`): the loop
has few steps left, and the workers that it waits for come to their ends. When it returns, it leaves
no connection behind that it has handed to a worker (`Serving.shutdown`).
-/

namespace ServerPages

open Connection (Outcome)
open Relation (ReflTransGen)

namespace Serving

variable {d : Dispatcher} {pid : Text} {s s' : State} {n : Nat}

/-! ### That the server can return -/

/-- The steps that a worker has still to take. -/
def Worker.weight : Worker → Nat
  | .handling => 5
  | .telling _ => 4
  | .knocking _ => 3
  | .closing _ => 2
  | .leaving _ => 1
  | .created | .ended _ => 0

private theorem Worker.weight_handled_lt (o : Outcome) :
    (handled o).weight < Worker.handling.weight ∧ handled o ≠ .created := by
  refine ⟨?_, handled_ne_created o⟩
  unfold handled
  split <;> simp [weight]

section Progress

variable (d : Dispatcher) (pid : Text)

/-- A worker that runs gets on. -/
theorem exists_workerStep {w : Worker} (hw : s.worker n = some w) (hrunning : w.isRunning = true)
    (hn : n < s.clients.length) : ∃ s' w', WorkerStep d pid n s s' ∧
      s'.worker n = some w' ∧ w'.weight < w.weight ∧ w' ≠ .created := by
  have hput : ∀ v : Worker, Function.update s.worker n (some v) n = some v := fun v =>
    Function.update_self ..
  cases w with
  | created | ended => cases hrunning
  | handling =>
    obtain ⟨hlt, hne⟩ := Worker.weight_handled_lt (s.clients[n].outcome d pid ⟨{}, []⟩)
    exact ⟨_, _, .handle ⟨{}, []⟩ hw (List.getElem?_eq_getElem hn), hput _, hlt, hne⟩
  | telling o => exact ⟨_, .knocking o, .tell hw, hput _, Nat.lt_succ_self _, nofun⟩
  | knocking o => exact ⟨_, .closing o, .knock hw, hput _, Nat.lt_succ_self _, nofun⟩
  | closing o => exact ⟨_, .leaving o, .close hw, hput _, Nat.lt_succ_self _, nofun⟩
  | leaving o => exact ⟨_, .ended o, .finish hw, hput _, Nat.lt_succ_self _, nofun⟩

/-- A worker that runs can come to its end while the loop stands still. -/
theorem exists_ended {w : Worker} (hw : s.worker n = some w) (hne : w ≠ .created)
    (hn : n < s.clients.length) : ∃ s' o, ReflTransGen (Step d pid) s s' ∧
      s'.worker n = some (.ended o) ∧ s'.loop = s.loop := by
  induction hweight : w.weight using Nat.strongRecOn generalizing s w with
  | ind k ih =>
    by_cases hrunning : w.isRunning = true
    · obtain ⟨t, w', hstep, hw', hlt, hne'⟩ := exists_workerStep d pid hw hrunning hn
      obtain ⟨s', o, hrun, hended, hloop⟩ := ih w'.weight (hweight ▸ hlt) hw' hne'
        (hn.trans_le hstep.grows.clients.length_le) rfl
      exact ⟨s', o, .head (.worker n hstep) hrun, hended, hloop.trans hstep.apart.loop⟩
    · cases w with
      | created => exact absurd rfl hne
      | ended o => exact ⟨s, o, .refl, hw, rfl⟩
      | handling | telling | knocking | closing | leaving => exact absurd rfl hrunning

end Progress

/-- A bound on the steps that the loop has still to take when the server is to end, with so many
workers on the list. -/
def Loop.weight (workers : Nat) : Loop → Nat
  | .returned => 0
  | .joining left => left.length + 1
  | .checking | .dismissing _ => workers + 2
  | .selecting | .deciding _ | .starting _ => workers + 3
  | .accepting => workers + 4
  | .enlisting _ => workers + 5
  | .pruning _ kept left => kept.length + 2 * left.length + 6

/-- When the server is to end, the loop gets on unless it waits for a worker. -/
theorem exists_loopStep (hs : s.Handed) (hflag : s.flag = true) :
    s.loop = .returned ∨ (∃ m left, s.loop = .joining (m :: left)) ∨
      ∃ s', LoopStep s s' ∧
        s'.loop.weight s'.workers.length < s.loop.weight s.workers.length := by
  cases hl : s.loop with
  | returned => exact .inl rfl
  | joining left =>
    cases left with
    | cons m left => exact .inr (.inl ⟨m, left, rfl⟩)
    | nil => exact .inr (.inr ⟨_, .finish hl, Nat.lt_succ_self _⟩)
  | checking => exact .inr (.inr ⟨_, .leave hl hflag, Nat.lt_succ_self _⟩)
  | selecting => exact .inr (.inr ⟨_, .pause hl, Nat.lt_succ_self _⟩)
  | accepting => exact .inr (.inr ⟨_, .accept hl (hs.accepting hl), Nat.lt_succ_self _⟩)
  | deciding n => exact .inr (.inr ⟨_, .refuse hl hflag, Nat.lt_succ_self _⟩)
  | dismissing n => exact .inr (.inr ⟨_, .dismiss hl, Nat.lt_succ_self _⟩)
  | starting n => exact .inr (.inr ⟨_, .start hl, Nat.lt_succ_self _⟩)
  | enlisting n =>
    refine .inr (.inr ⟨_, .enlist hl, ?_⟩)
    show (s.workers ++ [n]).length + 3 < s.workers.length + 5
    simp
  | pruning n kept left =>
    refine .inr (.inr ?_)
    cases left with
    | nil => exact ⟨_, .replace hl, Nat.lt_succ_self _⟩
    | cons m left =>
      by_cases hm : s.IsRunning m
      · refine ⟨_, .keep hl hm, ?_⟩
        show (kept ++ [m]).length + 2 * left.length + 6 < kept.length + 2 * (m :: left).length + 6
        simp
        omega
      · refine ⟨_, .drop hl hm, ?_⟩
        show kept.length + 2 * left.length + 6 < kept.length + 2 * (m :: left).length + 6
        simp

/-- **A server that is to end can return**, whatever it and its workers are about to do. -/
theorem Reachable.exists_returned (h : Reachable d pid s) (hflag : s.flag = true) :
    ∃ s', ReflTransGen (Step d pid) s s' ∧ s'.loop = .returned := by
  induction hweight : s.loop.weight s.workers.length using Nat.strongRecOn generalizing s with
  | ind k ih =>
    obtain hend | ⟨m, left, hl⟩ | ⟨t, hstep, hlt⟩ := exists_loopStep h.handed hflag
    · exact ⟨s, .refl, hend⟩
    · -- the loop waits for a worker, which comes to its end first
      obtain ⟨w, hw⟩ := Option.ne_none_iff_exists'.mp
        (h.watched.held m (by rw [hl]; exact List.mem_cons_self))
      have hne : w ≠ .created := by
        rintro rfl
        have hnew := h.handed.created m hw
        rw [hl] at hnew
        cases hnew
      have haccepted := (List.getElem?_eq_some_iff.mp (h.handed.early m w hw)).1
      obtain ⟨t, o, hrun, hended, hloop⟩ := exists_ended d pid hw hne
        (haccepted.trans_le h.handed.length_le)
      have hjoin : Step d pid t { t with loop := .joining left } :=
        .loop (.join (hloop.trans hl) hended)
      have hjoined := hrun.tail hjoin
      have hlt : left.length + 1 < k := by
        rw [← hweight, hl]
        exact Nat.lt_succ_self _
      obtain ⟨s', hrest, hend⟩ :=
        ih _ hlt (h.trans hjoined) ((grows_of_runs hjoined).flag hflag) rfl
      exact ⟨s', hjoined.trans hrest, hend⟩
    · obtain ⟨s', hrest, hend⟩ :=
        ih _ (hweight ▸ hlt) (h.tail (.loop hstep)) (hstep.grows.flag hflag) rfl
      exact ⟨s', .head (.loop hstep) hrest, hend⟩

/-! ### When the server returns -/

/-- A connection has been handled to the end: its worker has ended, has told the server to end if
it was asked to, and has closed the connection. -/
def State.IsServed (d : Dispatcher) (pid : Text) (s : State) (n : Nat) : Prop :=
  n ∈ s.closed ∧ ∃ o c around, s.worker n = some (.ended o) ∧ s.clients[n]? = some c ∧
    o = c.outcome d pid around ∧ (o.exit = true → s.flag = true)

/-- A worker that does not run has ended, or the loop is about to start it. -/
theorem Reachable.ended_or_newcomer {w : Worker} (h : Reachable d pid s) (hw : s.worker n = some w)
    (hrunning : ¬ s.IsRunning n) : (∃ o, w = .ended o) ∨ s.loop.newcomer = some n := by
  cases w with
  | created => exact .inr (h.handed.created n hw)
  | ended o => exact .inl ⟨o, rfl⟩
  | handling | telling | knocking | closing | leaving => exact absurd ⟨_, hw, rfl⟩ hrunning

/-- **Shutdown abandons no connection.** In whatever order the steps of the accept loop, of the
workers and of the clients are taken: when the server returns, every connection that was handed to
a worker has been handled to the end; every worker that runs is on the server's list; and no
connection that was accepted when the server was to end is handed to a worker. -/
theorem shutdown (d : Dispatcher) (pid : Text) : ∀ s, Reachable d pid s →
    (s.loop = .returned → ∀ n, s.worker n ≠ none → s.IsServed d pid n) ∧
    (∀ n, s.IsRunning n → n ∈ s.workers) ∧
    ∀ n, s.accepted[n]? = some true → s.worker n = none := by
  intro s h
  refine ⟨fun hl n hn => ?_, fun n hn => (h.watched.running n hn).1, fun n hn => ?_⟩
  · obtain ⟨w, hw⟩ := Option.ne_none_iff_exists'.mp hn
    have hrunning : ¬ s.IsRunning n := fun hrunning => by
      have hview := (h.watched.running n hrunning).2
      rw [hl] at hview
      cases hview
    obtain ⟨o, rfl⟩ | hnew := h.ended_or_newcomer hw hrunning
    · have hattended := h.attended n _ hw
      obtain ⟨c, around, hc, ho⟩ := hattended.outcome o rfl
      exact ⟨hattended.closed rfl, o, c, around, hw, hc, ho,
        fun hexit => (hattended.told o rfl hexit).resolve_left nofun⟩
    · rw [hl] at hnew
      cases hnew
  · by_contra hne
    obtain ⟨w, hw⟩ := Option.ne_none_iff_exists'.mp hne
    cases hn.symm.trans (h.handed.early n w hw)

/-! ### A server that is asked to exit -/

/-- A client that asks the server to exit. -/
def Client.exiting : Client := { chunks := [.data (Utf8.encode Connection.exitRequest)] }

private theorem Client.exit_exiting :
    (exiting.outcome Connection.idle ['1'] ⟨{}, []⟩).exit = true := by
  have hreceived : (Connection.receive true exiting.chunks).result = .ok { exitNow := true } := by
    rw [exiting, Connection.receive_whole (by decide) Connection.decode_exitRequest]
  exact (Connection.exit_of_received hreceived rfl).mpr rfl

/-- The first client has been accepted, and its worker has been started. -/
theorem exists_started (d : Dispatcher) (pid : Text) : ∃ s, Reachable d pid s ∧
    s.loop = .checking ∧ s.flag = false ∧ s.clients = [.exiting] ∧ s.accepted = [false] ∧
      s.worker 0 = some .handling := by
  have hconnected : Reachable d pid { clients := [.exiting] } := .single (.connect .exiting)
  have haccepted : Reachable d pid
      { loop := .deciding 0, clients := [.exiting], accepted := [false] } :=
    ((hconnected.tail (.loop (.look rfl rfl))).tail
      (.loop (.select rfl Nat.zero_lt_one))).tail (.loop (.accept rfl Nat.zero_lt_one))
  have hcreated : Reachable d pid
      { State.put { clients := [.exiting], accepted := [false] } 0 .created with
        loop := .enlisting 0 } :=
    (haccepted.tail (.loop (.create rfl rfl))).tail (.loop (.replace rfl))
  have hstarted := (hcreated.tail (.loop (.enlist rfl))).tail (.loop (.start rfl))
  exact ⟨_, hstarted, rfl, rfl, rfl, rfl, rfl⟩

/-- The first worker is asked to exit and tells the server while the loop waits. The connection by
which it knocks is accepted then and is not handled, and the server can return. -/
theorem shutdown_exiting : ∃ s, Reachable Connection.idle ['1'] s ∧ s.loop = .returned ∧
    s.IsServed Connection.idle ['1'] 0 ∧ s.accepted[1]? = some true ∧ s.worker 1 = none := by
  obtain ⟨s, hs, hl, hf, hclients, haccepted, hw⟩ := exists_started Connection.idle ['1']
  have hhandled := (hs.tail (.loop (.look hl hf))).tail
    (.worker 0 (.handle ⟨{}, []⟩ hw (by rw [hclients]; rfl)))
  rw [Worker.handled, if_pos Client.exit_exiting] at hhandled
  have hknocked := (hhandled.tail (.worker 0 (.tell rfl))).tail (.worker 0 (.knock rfl))
  have hpending : s.accepted.length < (s.clients ++ [Client.silent]).length := by
    rw [haccepted, hclients]
    decide
  have hlate : Reachable Connection.idle ['1'] _ :=
    (hknocked.tail (.loop (.select rfl hpending))).tail (.loop (.accept rfl hpending))
  obtain ⟨t, hrun, hend⟩ := hlate.exists_returned rfl
  have hgrows := grows_of_runs hrun
  have ht : Reachable Connection.idle ['1'] t := hlate.trans hrun
  obtain ⟨hserved, -, hnone⟩ := shutdown Connection.idle ['1'] t ht
  have hone : t.accepted[1]? = some true := by
    obtain ⟨more, hmore⟩ := hgrows.accepted
    rw [← hmore]
    show ((s.accepted ++ [true]) ++ more)[1]? = some true
    rw [haccepted]
    rfl
  exact ⟨t, ht, hend, hserved hend 0 (hgrows.worker 0 nofun), hone, hnone 1 hone⟩

end Serving

end ServerPages
