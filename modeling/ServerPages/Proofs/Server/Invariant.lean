import ServerPages.Proofs.Server.Accepting

/-!
# What the accept loop and its workers keep

Four things are known of every state of the server that comes about. A server that is to end stays
so, and nothing that has happened is forgotten (`Serving.State.Grows`). A worker is created only for
a connection that was accepted before the server was to end (`Serving.State.Handed`). A worker that
runs is on the server's list, and the loop has it in view while it rebuilds the list and while it
waits for those on it (`Serving.State.Watched`). And a worker that has handled its connection has
done what comes behind that in its order (`Serving.State.Attended`). Each is kept by every step.
-/

namespace ServerPages

open Connection (Outcome)
open Relation (ReflTransGen)

namespace Serving

variable {d : Dispatcher} {pid : Text} {s s' : State} {n : Nat}

/-! ### What only grows -/

/-- A server that is to end stays so, and no client, accepted connection, worker or closed
connection is forgotten. -/
structure State.Grows (s s' : State) : Prop where
  flag : s.flag = true → s'.flag = true
  clients : s.clients <+: s'.clients
  accepted : s.accepted <+: s'.accepted
  closed : s.closed ⊆ s'.closed
  worker : ∀ n, s.worker n ≠ none → s'.worker n ≠ none

private theorem State.worker_put_ne_none {w : Worker} (m : Nat) (h : s.worker m ≠ none) :
    (s.put n w).worker m ≠ none := by
  rcases eq_or_ne m n with rfl | hne
  · exact ne_of_eq_of_ne (Function.update_self ..) (Option.some_ne_none w)
  · exact ne_of_eq_of_ne (Function.update_of_ne hne ..) h

theorem LoopStep.grows (h : LoopStep s s') : s.Grows s' := by
  cases h with
  | accept => exact ⟨id, List.prefix_rfl, List.prefix_append .., List.Subset.refl _, fun _ => id⟩
  | dismiss =>
    exact ⟨id, List.prefix_rfl, List.prefix_rfl, List.subset_cons_self .., fun _ => id⟩
  | create | start =>
    exact ⟨id, List.prefix_rfl, List.prefix_rfl, List.Subset.refl _, State.worker_put_ne_none⟩
  | look | leave | pause | select | refuse | keep | drop | replace | enlist | join | finish =>
    exact ⟨id, List.prefix_rfl, List.prefix_rfl, List.Subset.refl _, fun _ => id⟩

theorem WorkerStep.grows (h : WorkerStep d pid n s s') : s.Grows s' := by
  have hput := fun w => State.worker_put_ne_none (s := s) (n := n) (w := w)
  cases h with
  | tell =>
    exact ⟨fun _ => rfl, List.prefix_rfl, List.prefix_rfl, List.Subset.refl _, hput _⟩
  | knock => exact ⟨id, List.prefix_append .., List.prefix_rfl, List.Subset.refl _, hput _⟩
  | close => exact ⟨id, List.prefix_rfl, List.prefix_rfl, List.subset_cons_self .., hput _⟩
  | handle | knockInVain | finish =>
    exact ⟨id, List.prefix_rfl, List.prefix_rfl, List.Subset.refl _, hput _⟩

theorem Step.grows (h : Step d pid s s') : s.Grows s' := by
  cases h with
  | loop h => exact h.grows
  | worker n h => exact h.grows
  | connect c => exact ⟨id, List.prefix_append .., List.prefix_rfl, List.Subset.refl _, fun _ => id⟩
  | stop => exact ⟨fun _ => rfl, List.prefix_rfl, List.prefix_rfl, List.Subset.refl _, fun _ => id⟩

theorem State.Grows.refl : s.Grows s :=
  ⟨id, List.prefix_rfl, List.prefix_rfl, List.Subset.refl _, fun _ => id⟩

theorem State.Grows.trans {t : State} (h : s.Grows t) (h' : t.Grows s') : s.Grows s' where
  flag hs := h'.flag (h.flag hs)
  clients := h.clients.trans h'.clients
  accepted := h.accepted.trans h'.accepted
  closed := List.Subset.trans h.closed h'.closed
  worker n hn := h'.worker n (h.worker n hn)

theorem grows_of_runs (h : ReflTransGen (Step d pid) s s') : s.Grows s' := by
  induction h with
  | refl => exact .refl
  | tail _ h ih => exact ih.trans h.grows

/-! ### What a worker does to the rest -/

/-- What a step of a worker leaves alone. It is one that runs, and does not become a new one. -/
structure WorkerStep.Apart (n : Nat) (s s' : State) : Prop where
  loop : s'.loop = s.loop
  workers : s'.workers = s.workers
  accepted : s'.accepted = s.accepted
  worker : ∃ w w', s.worker n = some w ∧ w.isRunning = true ∧
    s'.worker = Function.update s.worker n (some w') ∧ w' ≠ .created

theorem Worker.handled_ne_created (o : Outcome) : Worker.handled o ≠ .created := by
  unfold handled
  split <;> nofun

theorem WorkerStep.apart (h : WorkerStep d pid n s s') : WorkerStep.Apart n s s' := by
  cases h with
  | handle around hw hc =>
    exact ⟨rfl, rfl, rfl, _, _, hw, rfl, rfl, Worker.handled_ne_created _⟩
  | tell hw | knock hw | knockInVain hw | close hw | finish hw =>
    exact ⟨rfl, rfl, rfl, _, _, hw, rfl, rfl, nofun⟩

/-- Where one worker gets on, each worker is that one or as it was. -/
theorem eq_or_of_update {worker : Nat → Option Worker} {w v : Worker} {m : Nat}
    (h : Function.update worker n (some w) m = some v) :
    m = n ∧ v = w ∨ m ≠ n ∧ worker m = some v := by
  rcases eq_or_ne m n with rfl | hne
  · rw [Function.update_self] at h
    exact .inl ⟨rfl, (Option.some.inj h).symm⟩
  · rw [Function.update_of_ne hne] at h
    exact .inr ⟨hne, h⟩

/-! ### Which connections are handed over -/

/-- The worker that the loop has created and is to start. -/
def Loop.newcomer : Loop → Option Nat
  | .pruning n _ _ | .enlisting n | .starting n => some n
  | .checking | .selecting | .accepting | .deciding _ | .dismissing _ | .joining _ | .returned =>
    none

/-- A worker has been created for a connection that was accepted before the server was to end. -/
structure State.Handed (s : State) : Prop where
  length_le : s.accepted.length ≤ s.clients.length
  accepting : s.loop = .accepting → s.accepted.length < s.clients.length
  deciding : ∀ n, s.loop = .deciding n →
    ∃ late, s.accepted[n]? = some late ∧ (late = true → s.flag = true)
  newcomer : ∀ n, s.loop.newcomer = some n → s.worker n = some .created
  created : ∀ n, s.worker n = some .created → s.loop.newcomer = some n
  early : ∀ n w, s.worker n = some w → s.accepted[n]? = some false

theorem State.Handed.initial : ({} : State).Handed where
  length_le := Nat.le_refl _
  accepting := nofun
  deciding := nofun
  newcomer := nofun
  created := nofun
  early := nofun

/-- Where the loop goes on, the worker that it is to start stays the same in most of its steps. -/
theorem State.Handed.move {l : Loop} {workers closed : List Nat} (hs : s.Handed)
    (hnew : l.newcomer = s.loop.newcomer)
    (haccepting : l = .accepting → s.accepted.length < s.clients.length)
    (hdeciding : ∀ n, l ≠ .deciding n) :
    State.Handed { s with loop := l, workers := workers, closed := closed } where
  length_le := hs.length_le
  accepting := haccepting
  deciding n hl := absurd hl (hdeciding n)
  newcomer n hn := hs.newcomer n (hnew.symm.trans hn)
  created n hn := hnew.trans (hs.created n hn)
  early := hs.early

theorem LoopStep.handed (h : LoopStep s s') (hs : s.Handed) : s'.Handed := by
  cases h with
  | look hl | leave hl | pause hl | refuse hl | dismiss hl | keep hl | drop hl | replace hl
  | enlist hl | join hl | finish hl => exact hs.move (by rw [hl]; rfl) nofun nofun
  | select hl h => exact hs.move (by rw [hl]; rfl) (fun _ => h) nofun
  | accept hl h =>
    refine ⟨?_, nofun, fun n hn => ?_, nofun, fun n hn => ?_, fun n w hw => ?_⟩
    · rw [List.length_append]
      exact h
    · obtain rfl := Loop.deciding.inj hn
      exact ⟨s.flag, List.getElem?_concat_length, id⟩
    · have hnew := hs.created n hn
      rw [hl] at hnew
      exact hnew
    · have hearly := hs.early n w hw
      exact List.getElem?_append_left (List.getElem?_eq_some_iff.mp hearly).1 |>.trans hearly
  | @create n hl hf =>
    have hnone : ∀ m, s.worker m ≠ some .created := fun m hm => by
      have hnew := hs.created m hm
      rw [hl] at hnew
      cases hnew
    refine ⟨hs.length_le, nofun, nofun, fun m hm => ?_, fun m hm => ?_, fun m w hw => ?_⟩
    · obtain rfl := Option.some.inj hm
      exact Function.update_self ..
    · obtain ⟨rfl, -⟩ | ⟨-, hm⟩ := eq_or_of_update hm
      · rfl
      · exact absurd hm (hnone m)
    · obtain ⟨rfl, -⟩ | ⟨-, hw⟩ := eq_or_of_update hw
      · -- the server is not to end yet, so neither was it when the connection was accepted
        obtain ⟨late, haccepted, hlate⟩ := hs.deciding m hl
        rw [hf] at hlate
        cases late with
        | false => exact haccepted
        | true => cases hlate rfl
      · exact hs.early m w hw
  | @start n hl =>
    have hnew : s.worker n = some .created := hs.newcomer n (by rw [hl]; rfl)
    refine ⟨hs.length_le, nofun, nofun, nofun, fun m hm => ?_, fun m w hw => ?_⟩
    · obtain ⟨-, h⟩ | ⟨hne, hm⟩ := eq_or_of_update hm
      · cases h
      · have hother := hs.created m hm
        rw [hl] at hother
        exact absurd (Option.some.inj hother).symm hne
    · obtain ⟨rfl, -⟩ | ⟨-, hw⟩ := eq_or_of_update hw
      · exact hs.early m _ hnew
      · exact hs.early m w hw

theorem WorkerStep.handed (h : WorkerStep d pid n s s') (hs : s.Handed) : s'.Handed := by
  obtain ⟨hloop, -, haccepted, w, w', hw, hrunning, hworker, hw'⟩ := h.apart
  have hclients := h.grows.clients.length_le
  have hcreated : s.worker n ≠ some .created := fun hn => by
    obtain rfl := Option.some.inj (hw.symm.trans hn)
    cases hrunning
  refine ⟨?_, fun hl => ?_, fun m hm => ?_, fun m hm => ?_, fun m hm => ?_, fun m v hv => ?_⟩
  · rw [haccepted]
    exact Nat.le_trans hs.length_le hclients
  · rw [haccepted]
    exact Nat.lt_of_lt_of_le (hs.accepting (hloop.symm.trans hl)) hclients
  · obtain ⟨late, hm, hlate⟩ := hs.deciding m (hloop.symm.trans hm)
    exact ⟨late, by rw [haccepted, hm], fun h' => h.grows.flag (hlate h')⟩
  · rw [hloop] at hm
    have hnew := hs.newcomer m hm
    rw [hworker, Function.update_of_ne, hnew]
    rintro rfl
    exact hcreated hnew
  · rw [hworker] at hm
    obtain ⟨-, h⟩ | ⟨-, hm⟩ := eq_or_of_update hm
    · exact absurd h.symm hw'
    · exact (congrArg _ hloop).trans (hs.created m hm)
  · rw [haccepted]
    rw [hworker] at hv
    obtain ⟨rfl, -⟩ | ⟨-, hv⟩ := eq_or_of_update hv
    · exact hs.early m w hw
    · exact hs.early m v hv

theorem Step.handed (h : Step d pid s s') (hs : s.Handed) : s'.Handed := by
  cases h with
  | loop h => exact h.handed hs
  | worker n h => exact h.handed hs
  | connect c =>
    have hlt : s.clients.length < (s.clients ++ [c]).length := by simp
    exact ⟨Nat.le_trans hs.length_le (Nat.le_of_lt hlt),
      fun hl => Nat.lt_trans (hs.accepting hl) hlt, hs.deciding, hs.newcomer, hs.created, hs.early⟩
  | stop =>
    refine ⟨hs.length_le, hs.accepting, fun n hl => ?_, hs.newcomer, hs.created, hs.early⟩
    obtain ⟨late, hn, -⟩ := hs.deciding n hl
    exact ⟨late, hn, fun _ => rfl⟩

theorem Reachable.handed (h : Reachable d pid s) : s.Handed := by
  induction h with
  | refl => exact .initial
  | tail _ h ih => exact h.handed ih

/-! ### The list of the workers -/

/-- The workers that the loop has in view, the list being given. -/
def Loop.inView (workers : List Nat) : Loop → List Nat
  | .pruning _ kept left => kept ++ left
  | .joining left => left
  | .returned => []
  | .checking | .selecting | .accepting | .deciding _ | .dismissing _ | .enlisting _ |
    .starting _ => workers

/-- A worker that runs is on the list, and the loop has it in view. All that are in view have been
created, and the one that is to be started is on the list. -/
structure State.Watched (s : State) : Prop where
  running : ∀ n, s.IsRunning n → n ∈ s.workers ∧ n ∈ s.loop.inView s.workers
  held : ∀ n ∈ s.loop.inView s.workers, s.worker n ≠ none
  starting : ∀ n, s.loop = .starting n → n ∈ s.workers

theorem State.Watched.initial : ({} : State).Watched where
  running n h := by
    obtain ⟨w, hw, -⟩ := h
    cases hw
  held := nofun
  starting := nofun

/-- What is known of the loop stays known as long as it has the same workers in view. -/
theorem State.Watched.move {l : Loop} {closed : List Nat} (hs : s.Watched)
    (hview : l.inView s.workers = s.loop.inView s.workers) (hl : ∀ n, l ≠ .starting n) :
    State.Watched { s with loop := l, closed := closed } where
  running n hn := ⟨(hs.running n hn).1, hview ▸ (hs.running n hn).2⟩
  held n hn := hs.held n (hview ▸ hn)
  starting n h := absurd h (hl n)

private theorem State.isRunning_put {w : Worker} {m : Nat} (h : (s.put n w).IsRunning m) :
    m = n ∧ w.isRunning = true ∨ m ≠ n ∧ s.IsRunning m := by
  obtain ⟨v, hv, hrunning⟩ := h
  obtain ⟨rfl, rfl⟩ | ⟨hne, hv⟩ := eq_or_of_update hv
  · exact .inl ⟨rfl, hrunning⟩
  · exact .inr ⟨hne, v, hv, hrunning⟩

theorem LoopStep.watched (h : LoopStep s s') (hh : s.Handed) (hs : s.Watched) : s'.Watched := by
  cases h with
  | look hl | leave hl | pause hl | select hl | refuse hl | dismiss hl =>
    exact hs.move (by rw [hl]; rfl) nofun
  | accept hl =>
    have hmoved : State.Watched { s with loop := .deciding s.accepted.length } :=
      hs.move (by rw [hl]; rfl) nofun
    exact ⟨hmoved.running, hmoved.held, hmoved.starting⟩
  | @create n hl hf =>
    refine ⟨fun m hm => ?_, fun m hm => ?_, nofun⟩
    · obtain ⟨-, h⟩ | ⟨-, hm⟩ := State.isRunning_put hm
      · cases h
      · exact ⟨(hs.running m hm).1, (hs.running m hm).1⟩
    · have hview := hs.held m (by rw [hl]; exact hm)
      exact State.worker_put_ne_none m hview
  | @keep n m kept left hl h =>
    have hview : (kept ++ [m]) ++ left = kept ++ m :: left := List.append_assoc ..
    exact hs.move (by rw [hl]; exact hview) nofun
  | @drop n m kept left hl h =>
    have hview : s.loop.inView s.workers = kept ++ m :: left := by rw [hl]; rfl
    refine ⟨fun k hk => ⟨(hs.running k hk).1, ?_⟩, fun k hk => ?_, nofun⟩
    · have hmem := (hs.running k hk).2
      rw [hview, List.mem_append, List.mem_cons] at hmem
      have hne : k ≠ m := fun he => h (he ▸ hk)
      exact List.mem_append.mpr (hmem.imp_right fun hmem => hmem.resolve_left hne)
    · refine hs.held k ?_
      rw [hview]
      exact List.mem_append.mpr ((List.mem_append.mp hk).imp_right (List.mem_cons_of_mem m))
  | @replace n kept hl =>
    have hview : s.loop.inView s.workers = kept := by
      rw [hl]
      exact List.append_nil kept
    exact ⟨fun k hk => ⟨hview ▸ (hs.running k hk).2, hview ▸ (hs.running k hk).2⟩,
      fun k hk => hs.held k (hview ▸ hk), nofun⟩
  | @enlist n hl =>
    have hnew := hh.newcomer n (by rw [hl]; rfl)
    refine ⟨fun k hk => ?_, fun k hk => ?_, fun k hk => ?_⟩
    · have hmem : k ∈ s.workers ++ [n] := List.mem_append_left _ (hs.running k hk).1
      exact ⟨hmem, hmem⟩
    · rcases List.mem_append.mp hk with hk | hk
      · exact hs.held k (by rw [hl]; exact hk)
      · rw [List.mem_singleton.mp hk, hnew]
        exact Option.some_ne_none _
    · obtain rfl := Loop.starting.inj hk
      exact List.mem_append_right _ List.mem_cons_self
  | @start n hl =>
    refine ⟨fun k hk => ?_, fun k hk => ?_, nofun⟩
    · obtain ⟨rfl, -⟩ | ⟨-, hk⟩ := State.isRunning_put hk
      · exact ⟨hs.starting k hl, hs.starting k hl⟩
      · exact ⟨(hs.running k hk).1, (hs.running k hk).1⟩
    · exact State.worker_put_ne_none k (hs.held k (by rw [hl]; exact hk))
  | @join m left o hl h =>
    have hview : s.loop.inView s.workers = m :: left := by rw [hl]; rfl
    refine ⟨fun k hk => ⟨(hs.running k hk).1, ?_⟩, fun k hk => ?_, nofun⟩
    · have hmem := (hs.running k hk).2
      rw [hview] at hmem
      refine (List.mem_cons.mp hmem).resolve_left ?_
      rintro rfl
      obtain ⟨w, hw, hrunning⟩ := hk
      obtain rfl := Option.some.inj (hw.symm.trans h)
      cases hrunning
    · exact hs.held k (by rw [hview]; exact List.mem_cons_of_mem _ hk)
  | finish hl => exact hs.move (by rw [hl]; rfl) nofun

theorem WorkerStep.watched (h : WorkerStep d pid n s s') (hs : s.Watched) : s'.Watched := by
  obtain ⟨hloop, hworkers, -, w, w', hw, hrunning, hworker, -⟩ := h.apart
  refine ⟨fun m hm => ?_, fun m hm => h.grows.worker m (hs.held m ?_), fun m hm => ?_⟩
  · rw [hloop, hworkers]
    obtain ⟨v, hv, hm⟩ := hm
    rw [hworker] at hv
    obtain ⟨rfl, -⟩ | ⟨-, hv⟩ := eq_or_of_update hv
    · exact hs.running m ⟨w, hw, hrunning⟩
    · exact hs.running m ⟨v, hv, hm⟩
  · rwa [hloop, hworkers] at hm
  · rw [hworkers]
    exact hs.starting m (hloop.symm.trans hm)

theorem Step.watched (h : Step d pid s s') (hh : s.Handed) (hs : s.Watched) : s'.Watched := by
  cases h with
  | loop h => exact h.watched hh hs
  | worker n h => exact h.watched hs
  | connect | stop => exact ⟨hs.running, hs.held, hs.starting⟩

theorem Reachable.watched (h : Reachable d pid s) : s.Watched := by
  induction h with
  | refl => exact .initial
  | tail hr h ih => exact h.watched (Reachable.handed hr) ih

/-! ### What becomes of a connection -/

/-- What is known of a worker that has handled its connection. -/
structure State.Attended (d : Dispatcher) (pid : Text) (s : State) (n : Nat) (w : Worker) : Prop
    where
  outcome : ∀ o, w.outcome? = some o →
    ∃ c around, s.clients[n]? = some c ∧ o = c.outcome d pid around
  told : ∀ o, w.outcome? = some o → o.exit = true → w = .telling o ∨ s.flag = true
  closed : w.hasClosed = true → n ∈ s.closed

private theorem State.Attended.of_grows {w : Worker} (hg : s.Grows s') (hs : s.Attended d pid n w) :
    s'.Attended d pid n w where
  outcome o ho := by
    obtain ⟨c, around, hc, hoc⟩ := hs.outcome o ho
    obtain ⟨more, hmore⟩ := hg.clients
    refine ⟨c, around, ?_, hoc⟩
    rw [← hmore, List.getElem?_append_left (List.getElem?_eq_some_iff.mp hc).1, hc]
  told o ho hexit := (hs.told o ho hexit).imp_right hg.flag
  closed h := hg.closed (hs.closed h)

theorem LoopStep.attended (h : LoopStep s s')
    (hs : ∀ n w, s.worker n = some w → s.Attended d pid n w) :
    ∀ n w, s'.worker n = some w → s'.Attended d pid n w := by
  intro n w hw
  have hg := h.grows
  cases h with
  | create | start =>
    obtain ⟨-, rfl⟩ | ⟨-, hw⟩ := eq_or_of_update hw
    · exact ⟨nofun, nofun, nofun⟩
    · exact (hs n w hw).of_grows hg
  | look | leave | pause | select | accept | refuse | dismiss | keep | drop | replace | enlist
  | join | finish => exact (hs n w hw).of_grows hg

/-- The worker that handles a connection goes on to tell the server if it was asked to exit. -/
theorem State.attended_handled {c : Client} {around : Surroundings}
    (hc : s.clients[n]? = some c) :
    s.Attended d pid n (.handled (c.outcome d pid around)) := by
  unfold Worker.handled
  split
  · next hexit =>
    refine ⟨fun o ho => ?_, fun o ho _ => .inl ?_, nofun⟩
    · obtain rfl := Option.some.inj ho
      exact ⟨c, around, hc, rfl⟩
    · obtain rfl := Option.some.inj ho
      rfl
  · next hexit =>
    refine ⟨fun o ho => ?_, fun o ho h => ?_, nofun⟩
    · obtain rfl := Option.some.inj ho
      exact ⟨c, around, hc, rfl⟩
    · obtain rfl := Option.some.inj ho
      exact absurd h hexit

/-- A worker gets on without coming back to its connection; if it is to tell the server, it has
done so. -/
theorem State.Attended.next {w w' : Worker} (hs : s.Attended d pid n w)
    (houtcome : w'.outcome? = w.outcome?) (htold : (∃ o, w = .telling o) → s.flag = true)
    (hclosed : w'.hasClosed = true → n ∈ s.closed) : s.Attended d pid n w' where
  outcome o ho := hs.outcome o (houtcome.symm.trans ho)
  told o ho hexit := by
    rcases hs.told o (houtcome.symm.trans ho) hexit with hw | hflag
    · exact .inr (htold ⟨o, hw⟩)
    · exact .inr hflag
  closed := hclosed

theorem WorkerStep.attended (h : WorkerStep d pid n s s')
    (hs : ∀ n w, s.worker n = some w → s.Attended d pid n w) :
    ∀ m w, s'.worker m = some w → s'.Attended d pid m w := by
  intro m w hw
  have hg := h.grows
  have hold : ∀ v, s.worker m = some v → s'.Attended d pid m v := fun v hv =>
    (hs m v hv).of_grows hg
  cases h with
  | handle around _ hc =>
    obtain ⟨rfl, rfl⟩ | ⟨-, hw⟩ := eq_or_of_update hw
    · exact (State.attended_handled hc).of_grows hg
    · exact hold w hw
  | tell h =>
    obtain ⟨rfl, rfl⟩ | ⟨-, hw⟩ := eq_or_of_update hw
    · exact (hold _ h).next rfl (fun _ => rfl) nofun
    · exact hold w hw
  | knock h | knockInVain h =>
    obtain ⟨rfl, rfl⟩ | ⟨-, hw⟩ := eq_or_of_update hw
    · exact (hold _ h).next rfl nofun nofun
    · exact hold w hw
  | close h =>
    obtain ⟨rfl, rfl⟩ | ⟨-, hw⟩ := eq_or_of_update hw
    · exact (hold _ h).next rfl nofun fun _ => List.mem_cons_self
    · exact hold w hw
  | finish h =>
    obtain ⟨rfl, rfl⟩ | ⟨-, hw⟩ := eq_or_of_update hw
    · exact (hold _ h).next rfl nofun fun _ => (hold _ h).closed rfl
    · exact hold w hw

theorem Step.attended (h : Step d pid s s')
    (hs : ∀ n w, s.worker n = some w → s.Attended d pid n w) :
    ∀ n w, s'.worker n = some w → s'.Attended d pid n w := by
  have hg := h.grows
  cases h with
  | loop h => exact h.attended hs
  | worker n h => exact h.attended hs
  | connect | stop => exact fun n w hw => (hs n w hw).of_grows hg

theorem Reachable.attended (h : Reachable d pid s) :
    ∀ n w, s.worker n = some w → s.Attended d pid n w := by
  induction h with
  | refl => exact nofun
  | tail _ h ih => exact h.attended ih

end Serving

end ServerPages
