import Mathlib.Data.List.Forall2
import ServerPages.Proofs.Server.Accepting
import ServerPages.Proofs.Server.Exit
import ServerPages.Server.Service

/-!
# Connections in turn

A connection delivers a message if its first pieces make one up and what has come before the last of
them may still become one (`Connection.Brings`); a connection that breaks off, ends too early, takes
too long or brings anything else delivers nothing. What a client is answered depends on that message
alone (`Serving.Client.Answered`).

The main statement is about a server that handles one connection after the other, those of good and
of bad clients. Nothing that one client sends shows in what another one is answered: each is
answered as by a fresh server. All that is left behind is that the server is to end, from the first
request to exit on (`Service.attendAll_apart`).
-/

namespace ServerPages

namespace Connection

open Message (decode IsIncomplete)

variable {got b : Bytes} {pieces : List Bytes} {chunks rest : List Chunk} {env env' : Envelope}
  {patient : Bool} {back : WayBack}

/-! ### What a connection delivers -/

/-- Behind what has come, the pieces complete a message, and not before the last of them. -/
structure IsCompletion (got : Bytes) (pieces : List Bytes) (env : Envelope) : Prop where
  ne_nil : ∀ b ∈ pieces, b ≠ []
  complete : decode (got ++ pieces.flatten) = .ok env
  incomplete : ∀ k < pieces.length, IsIncomplete (decode (got ++ (pieces.take k).flatten))

/-- Behind what has come, the first chunks bring a message; what comes after it does not matter. -/
def Brings (got : Bytes) (chunks : List Chunk) (env : Envelope) : Prop :=
  ∃ pieces rest, chunks = pieces.map .data ++ rest ∧ IsCompletion got pieces env

private theorem isCompletion_nil : IsCompletion got [] env ↔ decode got = .ok env := by
  refine ⟨fun h => ?_, fun h => ⟨nofun, ?_, nofun⟩⟩
  · have := h.complete
    rwa [List.flatten_nil, List.append_nil] at this
  · rwa [List.flatten_nil, List.append_nil]

private theorem isCompletion_cons : IsCompletion got (b :: pieces) env ↔
    IsIncomplete (decode got) ∧ b ≠ [] ∧ IsCompletion (got ++ b) pieces env := by
  have htake (k : Nat) : got ++ ((b :: pieces).take (k + 1)).flatten =
      got ++ b ++ (pieces.take k).flatten := by
    rw [List.take_succ_cons, List.flatten_cons, List.append_assoc]
  have hall : got ++ (b :: pieces).flatten = got ++ b ++ pieces.flatten := by
    rw [List.flatten_cons, List.append_assoc]
  constructor
  · intro h
    obtain ⟨hb, hne⟩ := List.forall_mem_cons.mp h.ne_nil
    refine ⟨by simpa using h.incomplete 0 (Nat.succ_pos _), hb, hne, hall ▸ h.complete,
      fun k hk => htake k ▸ h.incomplete (k + 1) (Nat.succ_lt_succ hk)⟩
  · rintro ⟨hgot, hb, h⟩
    refine ⟨List.forall_mem_cons.mpr ⟨hb, h.ne_nil⟩, hall ▸ h.complete, fun k hk => ?_⟩
    cases k with
    | zero => simpa using hgot
    | succ k => exact htake k ▸ h.incomplete k (Nat.lt_of_succ_lt_succ hk)

private theorem brings_of_ok (h : decode got = .ok env') : Brings got chunks env ↔ env = env' := by
  constructor
  · rintro ⟨pieces, rest, -, hpieces⟩
    cases pieces with
    | nil => exact Except.ok.inj ((isCompletion_nil.mp hpieces).symm.trans h)
    | cons b pieces =>
      obtain ⟨⟨cause, hcause⟩, -⟩ := isCompletion_cons.mp hpieces
      cases hcause.symm.trans h
  · rintro rfl
    exact ⟨[], chunks, rfl, isCompletion_nil.mpr h⟩

/-- Behind what is incomplete, a message is brought by a piece and what follows it. -/
theorem brings_iff (hgot : IsIncomplete (decode got)) : Brings got chunks env ↔
    ∃ b rest, chunks = .data b :: rest ∧ b ≠ [] ∧ Brings (got ++ b) rest env := by
  constructor
  · rintro ⟨pieces, rest, rfl, hpieces⟩
    cases pieces with
    | nil =>
      obtain ⟨cause, hcause⟩ := hgot
      cases hcause.symm.trans (isCompletion_nil.mp hpieces)
    | cons b pieces =>
      obtain ⟨-, hb, hpieces⟩ := isCompletion_cons.mp hpieces
      exact ⟨b, _, rfl, hb, pieces, rest, rfl, hpieces⟩
  · rintro ⟨b, _, rfl, hb, pieces, rest, rfl, hpieces⟩
    exact ⟨b :: pieces, rest, rfl, isCompletion_cons.mpr ⟨hgot, hb, hpieces⟩⟩

private theorem not_brings_of_error {f : Message.Failure} (hf : decode got = .error f)
    (hne : ∀ cause, f ≠ .incomplete cause) : ¬ Brings got chunks env := by
  rintro ⟨pieces, rest, -, hpieces⟩
  cases pieces with
  | nil => cases hf.symm.trans (isCompletion_nil.mp hpieces)
  | cons b pieces =>
    obtain ⟨⟨cause, hcause⟩, -⟩ := isCompletion_cons.mp hpieces
    exact hne cause (Except.error.inj (hf.symm.trans hcause))

/-- Behind what is incomplete, receiving gives exactly the message that the chunks bring. -/
theorem result_receiveFrom_iff (hgot : IsIncomplete (decode got)) (attempts : Nat) :
    (receiveFrom got attempts chunks).result = .ok env ↔ Brings got chunks env := by
  induction chunks generalizing got attempts with
  | nil =>
    have hbrings : ¬ Brings got [] env := by simp [brings_iff hgot]
    obtain ⟨cause, hcause⟩ := hgot
    rw [receiveFrom, hcause]
    exact iff_of_false (fun h => by cases h) hbrings
  | cons chunk chunks ih =>
    cases chunk with
    | broken m =>
      have hbrings : ¬ Brings got (.broken m :: chunks) env := by simp [brings_iff hgot]
      exact iff_of_false (fun h => by cases h) hbrings
    | data b =>
      have hcons : Brings got (.data b :: chunks) env ↔ b ≠ [] ∧ Brings (got ++ b) chunks env := by
        simp [brings_iff hgot]
      rw [hcons, receiveFrom]
      cases hd : decode (got ++ b) with
      | ok env' =>
        -- an end of input adds nothing to what is incomplete
        have hb : b ≠ [] := by
          rintro rfl
          obtain ⟨cause, hcause⟩ := hgot
          rw [List.append_nil, hcause] at hd
          cases hd
        rw [brings_of_ok hd]
        exact ⟨fun h => ⟨hb, (Except.ok.inj h).symm⟩, fun h => by rw [h.2]⟩
      | error f =>
        by_cases hf : ∃ cause, f = .incomplete cause
        · obtain ⟨cause, rfl⟩ := hf
          by_cases hb : b = []
          · simp [hb]
          · simp only [List.isEmpty_iff, hb, if_false]
            rw [ih ⟨cause, hd⟩]
            exact ⟨fun h => ⟨hb, h⟩, fun h => h.2⟩
        · have hbrings : ¬ Brings (got ++ b) chunks env :=
            not_brings_of_error hd fun cause hcause => hf ⟨cause, hcause⟩
          refine iff_of_false (fun h => ?_) fun h => hbrings h.2
          cases f with
          | incomplete cause => exact hf ⟨cause, rfl⟩
          | malformed | misshapen | tooDeep | tooManyDigits => cases h

/-! ### Answers that are written -/

/-- Nothing is refused on the way back, except that closing it may be. -/
structure WayBack.IsOpen (back : WayBack) : Prop where
  write : ∀ k, back.write k = none
  flush : back.flush = none

theorem WayBack.IsOpen.send (h : back.IsOpen) (parts : List Bytes) :
    back.send parts = ⟨parts.flatten, none, back.close⟩ := by
  have hparts (number : Nat) : back.writeParts number parts = (parts.flatten, none) := by
    induction parts generalizing number with
    | nil => rw [writeParts, h.flush]; rfl
    | cons part parts ih =>
      rw [writeParts, h.write]
      dsimp only
      rw [ih]
      rfl
  rw [WayBack.send, hparts]

theorem WayBack.IsOpen.upTo (h : back.IsOpen) (broken : Option Letter.Fault) :
    (back.upTo broken).IsOpen := by
  rw [WayBack.upTo]
  split
  · exact ⟨h.write, rfl⟩
  · exact h

end Connection

/-- The request is for a page in a directory that there is not. -/
def Request.LacksDirectory (around : Surroundings) (r : Request) : Prop :=
  ∃ dir, r.baseDir? around.cwd.path = some dir ∧ around.tree.isDirectory around.cwd dir = false

namespace Dispatcher

variable {d : Dispatcher} {around : Surroundings} {r : Request}

private theorem directory_of_lacks (hd : d.changeDirectory = false) (h : r.LacksDirectory around) :
    ∃ dir, d.directory around (some r) = .error (.noDirectory dir) := by
  obtain ⟨dir, hdir, hmissing⟩ := h
  refine ⟨dir, ?_⟩
  simp [directory, hdir, hd, hmissing]

private theorem directory_of_not_lacks (hd : d.changeDirectory = false) (h : ¬ r.LacksDirectory around) :
    d.directory around (some r) = .ok around.cwd := by
  rw [directory, Option.bind_some]
  cases hdir : r.baseDir? around.cwd.path with
  | none => rfl
  | some dir =>
    have hthere : around.tree.isDirectory around.cwd dir = true := by
      by_contra hmissing
      exact h ⟨dir, hdir, eq_false_of_ne_true hmissing⟩
    simp [hd, hthere]

/-- A page that is run for a request gives what it gives when it is dispatched. -/
theorem content_of_run {p : Performance} {cwd : Location}
    (h : d.run around (some r) = .ok (p, cwd)) :
    ∃ response, d.dispatch around (some r) = .ok (response, cwd) ∧
      (parts d.format (some r) p).1.flatten = response.content :=
  ⟨_, by rw [dispatch_eq_run, h]; rfl, rfl⟩

end Dispatcher

namespace Serving

variable {d : Dispatcher} {pid : Text} {around : Surroundings} {c : Client} {env : Envelope}

/-- A client delivers a message: it is received from in time, and what the attempts bring of its
chunks brings the message. -/
def Client.Delivers (c : Client) (env : Envelope) : Prop :=
  c.patient = true ∧ Connection.Brings [] (Connection.portions [] c.chunks) env

theorem Client.result_receive_iff :
    (Connection.receive c.patient c.chunks).result = .ok env ↔ c.Delivers env := by
  rw [Connection.receive, Client.Delivers]
  by_cases hpatient : c.patient = true
  · rw [if_pos hpatient, Connection.result_receiveFrom_iff ⟨_, rfl⟩]
    exact ⟨fun h => ⟨hpatient, h⟩, fun h => h.2⟩
  · rw [if_neg hpatient]
    exact iff_of_false (fun h => by cases h) fun h => hpatient h.1

/-- The pieces of an acceptable message deliver it, whatever comes behind them, exactly if no
beginning that is made of the first of them is given up. -/
theorem Client.delivers_pieces_iff {pieces : List Bytes} {env' : Envelope}
    (rest : List Connection.Chunk) (back : Connection.WayBack)
    (hall : ∀ b ∈ pieces, Connection.IsPiece b)
    (hd : Message.decode pieces.flatten = .ok env) :
    Client.Delivers { chunks := pieces.map .data ++ rest, back } env' ↔
      env' = env ∧ ∀ k, ¬ Message.IsLost (pieces.take k).flatten :=
  result_receive_iff.symm.trans (Message.result_receive_iff rest env' hall hd)

/-- A client delivers a request to exit. -/
def Client.AsksToExit (c : Client) : Prop := ∃ env, c.Delivers env ∧ env.exitNow = true

/-- What a client is to be answered. -/
inductive Client.Answered (d : Dispatcher) (pid : Text) (around : Surroundings) (c : Client) :
    Bytes → Prop
  /-- The server itself answers a request to exit or for its process number, with a line that has
  the number. -/
  | control {env : Envelope} (h : c.Delivers env)
    (hcontrol : env.exitNow = true ∨ env.getPid = true) :
    Answered d pid around c (Utf8.encode ("gosp-pid ".toList ++ pid ++ ['\n']))
  /-- The page answers anything else. -/
  | page {env : Envelope} {response : Response} {cwd : Location} (h : c.Delivers env)
    (hcontrol : ¬ (env.exitNow = true ∨ env.getPid = true))
    (hdir : ¬ env.request.LacksDirectory around)
    (hresponse : d.dispatch around (some env.request) = .ok (response, cwd)) :
    Answered d pid around c response.content
  /-- There is no directory to answer from. -/
  | astray {env : Envelope} (h : c.Delivers env)
    (hcontrol : ¬ (env.exitNow = true ∨ env.getPid = true))
    (hdir : env.request.LacksDirectory around) : Answered d pid around c []
  /-- The client delivers nothing. -/
  | silent (h : ∀ env, ¬ c.Delivers env) : Answered d pid around c []

/-- What comes of a connection on which answers can be written: the answer that is due, the
directory that was current before, and that the server is to end if the message asks for it. -/
theorem Client.outcome_handled (pid : Text) (around : Surroundings)
    (hd : d.changeDirectory = false) (hopen : c.back.IsOpen) :
    c.Answered d pid around (c.outcome d pid around).answer ∧
      (c.outcome d pid around).cwd = around.cwd ∧
      ((c.outcome d pid around).exit = true ↔ c.AsksToExit) := by
  rw [Client.outcome, Connection.handle]
  cases hr : (Connection.receive c.patient c.chunks).result with
  | error e =>
    have hnone (env : Envelope) : ¬ c.Delivers env := fun h => by
      cases hr.symm.trans (result_receive_iff.mpr h)
    have hexit : ¬ c.AsksToExit := by
      rintro ⟨env, h, -⟩
      exact hnone env h
    cases e with
    | timeout | broken => exact ⟨.silent hnone, rfl, iff_of_false Bool.false_ne_true hexit⟩
    | message f =>
      dsimp only
      split <;> exact ⟨.silent hnone, rfl, iff_of_false Bool.false_ne_true hexit⟩
  | ok env =>
    have hdelivers : c.Delivers env := result_receive_iff.mp hr
    have hexit : c.AsksToExit ↔ env.exitNow = true := by
      constructor
      · rintro ⟨env', h, hexit⟩
        cases hr.symm.trans (result_receive_iff.mpr h)
        exact hexit
      · exact fun hexit => ⟨env, hdelivers, hexit⟩
    rw [hexit]
    simp only [hopen.send, List.flatten_singleton]
    -- asking to exit comes before asking for the process number, and both before the page
    by_cases hasked : env.exitNow = true
    · rw [if_pos hasked]
      exact ⟨.control hdelivers (.inl hasked), rfl, iff_of_true rfl hasked⟩
    rw [if_neg hasked]
    by_cases hpid : env.getPid = true
    · rw [if_pos hpid]
      exact ⟨.control hdelivers (.inr hpid), rfl, iff_of_false Bool.false_ne_true hasked⟩
    rw [if_neg hpid]
    have hcontrol : ¬ (env.exitNow = true ∨ env.getPid = true) := not_or.mpr ⟨hasked, hpid⟩
    by_cases hdir : env.request.LacksDirectory around
    · obtain ⟨dir, hrefused⟩ := Dispatcher.directory_of_lacks hd hdir
      rw [Dispatcher.run, hrefused]
      exact ⟨.astray hdelivers hcontrol hdir, rfl, iff_of_false Bool.false_ne_true hasked⟩
    · have hrun : d.run around (some env.request) =
          .ok (Performance.ofAct (d.page around (some env.request)), around.cwd) := by
        rw [Dispatcher.run, Dispatcher.directory_of_not_lacks hd hdir]
        rfl
      obtain ⟨response, hresponse, hcontent⟩ := Dispatcher.content_of_run hrun
      rw [hrun]
      dsimp only
      rw [(hopen.upTo _).send]
      dsimp only
      rw [hcontent]
      exact ⟨.page hdelivers hcontrol hdir hresponse, rfl, iff_of_false Bool.false_ne_true hasked⟩

theorem Client.Delivers.unique {env' : Envelope} (h : c.Delivers env) (h' : c.Delivers env') :
    env = env' :=
  Except.ok.inj ((result_receive_iff.mpr h).symm.trans (result_receive_iff.mpr h'))

/-- A client that asks the server itself is answered by it. -/
theorem Client.Answered.eq_pidLine {b : Bytes} (h : c.Answered d pid around b)
    (hdelivers : c.Delivers env) (hcontrol : env.exitNow = true ∨ env.getPid = true) :
    b = Utf8.encode ("gosp-pid ".toList ++ pid ++ ['\n']) := by
  cases h with
  | control => rfl
  | page h hno =>
    cases h.unique hdelivers
    exact absurd hcontrol hno
  | astray h hno =>
    cases h.unique hdelivers
    exact absurd hcontrol hno
  | silent h => exact absurd hdelivers (h env)

/-- A client that delivers nothing is not answered. -/
theorem Client.Answered.eq_nil {b : Bytes} (h : c.Answered d pid around b)
    (hnone : ∀ env, ¬ c.Delivers env) : b = [] := by
  cases h with
  | control h => exact absurd h (hnone _)
  | page h => exact absurd h (hnone _)
  | astray | silent => rfl

end Serving

namespace Service

open Serving (Client)

variable {d : Dispatcher} {pid : Text} {around : Surroundings} {st : State} {c : Client}
  {clients : List Client}

/-- The server handles the connection of a client, whether or not it is to end by then. What breaks
the connection off goes with its worker. -/
def attend (d : Dispatcher) (pid : Text) (st : State) (c : Client) :
    State × Connection.Outcome :=
  let o := c.outcome d pid st.around
  ({ around := { st.around with cwd := o.cwd }, running := st.running && !o.exit,
     notes := st.notes ++ o.notes }, o)

/-- The server handles the connections of clients in turn. -/
def attendAll (d : Dispatcher) (pid : Text) (st : State) :
    List Client → State × List Connection.Outcome
  | [] => (st, [])
  | c :: clients =>
    let (st, o) := attend d pid st c
    let (st, os) := attendAll d pid st clients
    (st, o :: os)

/-- Handling one connection leaves the server in its surroundings, and running unless a message
asks it to exit. -/
theorem attend_state (pid : Text) (st : State) (hd : d.changeDirectory = false)
    (hopen : c.back.IsOpen) :
    (attend d pid st c).1.around = st.around ∧
      ((attend d pid st c).1.running = true ↔ st.running = true ∧ ¬ c.AsksToExit) := by
  obtain ⟨-, hcwd, hexit⟩ := c.outcome_handled pid st.around hd hopen
  refine ⟨by rw [attend, hcwd], ?_⟩
  rw [← hexit, attend, Bool.and_eq_true, Bool.not_eq_true', Bool.not_eq_true]

private theorem attendAll_state (pid : Text) (st : State) (hd : d.changeDirectory = false)
    (hopen : ∀ c ∈ clients, c.back.IsOpen) :
    (attendAll d pid st clients).1.around = st.around ∧
      ((attendAll d pid st clients).1.running = true ↔
        st.running = true ∧ ¬ ∃ c ∈ clients, c.AsksToExit) := by
  -- the state is generalised: the rest is handled by a server that has handled the first one
  induction clients generalizing st with
  | nil => exact ⟨rfl, by simp [attendAll]⟩
  | cons c clients ih =>
    obtain ⟨hc, hopen⟩ := List.forall_mem_cons.mp hopen
    obtain ⟨haround, hrunning⟩ := attend_state pid st hd hc
    obtain ⟨haround', hrunning'⟩ := ih (attend d pid st c).1 hopen
    refine ⟨haround'.trans haround, ?_⟩
    rw [attendAll, hrunning', hrunning, List.exists_mem_cons_iff, not_or, and_assoc]

/-- Each client has from the server what it has from one that is in the same surroundings. -/
theorem attendAll_outcomes (pid : Text) (st : State) (hd : d.changeDirectory = false)
    (hopen : ∀ c ∈ clients, c.back.IsOpen) :
    (attendAll d pid st clients).2 = clients.map fun c => c.outcome d pid st.around := by
  induction clients generalizing st with
  | nil => rfl
  | cons c clients ih =>
    obtain ⟨hc, hopen⟩ := List.forall_mem_cons.mp hopen
    obtain ⟨haround, -⟩ := attend_state pid st hd hc
    rw [attendAll, List.map_cons, ← haround, ← ih _ hopen, haround]
    rfl

/-- **Connections do not influence one another.** A server handles the connections of clients in
turn, on which answers can be written. Each client is answered as by a fresh server that handles its
connection alone: by the server itself, by the page or not at all, as the message it delivers tells.
The surroundings stay what they were, and the server is to end from the first request to exit on. -/
theorem attendAll_apart (pid : Text) (around : Surroundings) (hd : d.changeDirectory = false)
    (hopen : ∀ c ∈ clients, c.back.IsOpen) :
    (attendAll d pid { around } clients).2.map (·.answer) =
        clients.map (fun c => (attend d pid { around } c).2.answer) ∧
      List.Forall₂ (fun c b => c.Answered d pid around b) clients
        ((attendAll d pid { around } clients).2.map (·.answer)) ∧
      (attendAll d pid { around } clients).1.around = around ∧
      ∀ k, (attendAll d pid { around } (clients.take k)).1.running = false ↔
        ∃ c ∈ clients.take k, c.AsksToExit := by
  have hall : (attendAll d pid { around } clients).2.map (·.answer) =
      clients.map fun c => (attend d pid { around } c).2.answer := by
    rw [attendAll_outcomes pid _ hd hopen, List.map_map]
    rfl
  refine ⟨hall, ?_, (attendAll_state pid _ hd hopen).1, fun k => ?_⟩
  · rw [hall, List.forall₂_map_right_iff, List.forall₂_same]
    exact fun c hc => (c.outcome_handled pid around hd (hopen c hc)).1
  · have hfirst : ∀ c ∈ clients.take k, c.back.IsOpen :=
      fun c hc => hopen c (List.mem_of_mem_take hc)
    have hrunning := (attendAll_state pid { around } hd hfirst).2
    rw [← not_iff_not, Bool.not_eq_false, hrunning]
    exact and_iff_right rfl

/-- A client that asks the server to exit, and whose connection cannot be closed. -/
def exiting : Client where
  chunks := [.data (Utf8.encode Connection.exitRequest)]
  back := { close := some "[Errno 32] Broken pipe".toList }

private theorem delivers_exiting : exiting.Delivers { exitNow := true } := by
  refine Client.result_receive_iff.mp ?_
  rw [exiting, Connection.receive_whole (by decide) Connection.decode_exitRequest]

/-- A client whose connection breaks off, one that asks the server to exit and one that says
nothing: the second one is answered, and from then on the server is to end. -/
theorem attendAll_apart_exiting :
    let clients : List Client := [{ chunks := [.broken "timed out".toList] }, exiting, .silent]
    let st : State := { around := ⟨{}, []⟩ }
    Connection.idle.changeDirectory = false ∧ (∀ c ∈ clients, c.back.IsOpen) ∧
      (attendAll Connection.idle ['1'] st clients).2.map (·.answer) =
        [[], Utf8.encode "gosp-pid 1\n".toList, []] ∧
      (attendAll Connection.idle ['1'] st (clients.take 1)).1.running = true ∧
      (attendAll Connection.idle ['1'] st (clients.take 2)).1.running = false ∧
      (attendAll Connection.idle ['1'] st clients).1.around = ⟨{}, []⟩ := by
  intro clients st
  have hopen : ∀ c ∈ clients, c.back.IsOpen := by
    simp only [clients, List.forall_mem_cons]
    exact ⟨⟨fun _ => rfl, rfl⟩, ⟨fun _ => rfl, rfl⟩, ⟨fun _ => rfl, rfl⟩, nofun⟩
  have hd : Connection.idle.changeDirectory = false := rfl
  obtain ⟨hanswers, -, haround, hflag⟩ := attendAll_apart ['1'] ⟨{}, []⟩ hd hopen
  obtain ⟨hanswered, -⟩ :=
    Client.outcome_handled ['1'] ⟨{}, []⟩ hd (hopen exiting (by simp [clients]))
  have hanswer := hanswered.eq_pidLine delivers_exiting (.inl rfl)
  have hbroken : ∀ env, ¬ Client.Delivers { chunks := [.broken "timed out".toList] } env := by
    rintro env ⟨-, hbrings⟩
    rw [Connection.portions_broken, Connection.brings_iff ⟨_, rfl⟩] at hbrings
    obtain ⟨b, rest, hcons, -⟩ := hbrings
    cases hcons
  have hsilent : ∀ env, ¬ Client.silent.Delivers env := by
    rintro env ⟨-, hbrings⟩
    rw [Client.silent, Connection.portions_nil, Connection.brings_iff ⟨_, rfl⟩] at hbrings
    obtain ⟨b, rest, hcons, -⟩ := hbrings
    cases hcons
  have hbefore : ¬ (attendAll Connection.idle ['1'] st (clients.take 1)).1.running = false := by
    rw [hflag 1]
    rintro ⟨c, hc, env, hdelivers, -⟩
    rw [List.mem_singleton.mp hc] at hdelivers
    exact hbroken env hdelivers
  refine ⟨rfl, hopen, ?_, eq_true_of_ne_false hbefore,
    (hflag 2).mpr ⟨exiting, by simp [clients], _, delivers_exiting, rfl⟩, haround⟩
  rw [hanswers]
  have hfirst := (Client.outcome_handled ['1'] ⟨{}, []⟩ hd (hopen _ (by simp [clients]))).1.eq_nil
    hbroken
  have hlast := (Client.outcome_handled ['1'] ⟨{}, []⟩ hd (hopen _ (by simp [clients]))).1.eq_nil
    hsilent
  exact congrArg₂ List.cons hfirst (congrArg₂ List.cons hanswer (congrArg₂ List.cons hlast rfl))

/-! ### Clients that are served -/

/-- A server that accepts connections handles one as it is served. -/
theorem serveClient_of_running (d : Dispatcher) (pid : Text) (h : st.running = true)
    (chunks : List Connection.Chunk) :
    serveClient d pid st chunks =
      ((attend d pid st { chunks }).1, some (attend d pid st { chunks }).2.answer) := by
  rw [serveClient, if_pos h, attend, h]
  rfl

private theorem serveClients_of_not_running (h : st.running = false)
    (clients : List (List Connection.Chunk)) :
    serveClients d pid st clients = (st, clients.map fun _ => none) := by
  induction clients with
  | nil => rfl
  | cons chunks clients ih => simp [serveClients, serveClient, h, ih]

/-- A server that accepts connections until it is to end gives a client what a fresh server gives it
alone, unless an earlier one has asked it to exit. -/
theorem serveClients_apart (hd : d.changeDirectory = false) (hrunning : st.running = true)
    {clients : List (List Connection.Chunk)} {i : Nat} {chunks : List Connection.Chunk}
    (h : clients[i]? = some chunks) :
    ∃ sight, (serveClients d pid st clients).2[i]? = some sight ∧
      (sight = none ↔ ∃ earlier ∈ clients.take i, Client.AsksToExit { chunks := earlier }) ∧
      ∀ b, sight = some b →
        b = (attend d pid { around := st.around } { chunks }).2.answer := by
  induction clients generalizing st i with
  | nil => cases h
  | cons first clients ih =>
    have hserve := serveClient_of_running d pid hrunning first
    cases i with
    | zero =>
      obtain rfl : first = chunks := Option.some.inj h
      have hnone : ¬ ∃ earlier ∈ (first :: clients).take 0,
          Client.AsksToExit { chunks := earlier } := by simp
      refine ⟨some (attend d pid st { chunks := first }).2.answer, ?_, iff_of_false nofun hnone, ?_⟩
      · rw [serveClients, hserve]
        rfl
      · rintro b ⟨⟩
        rfl
    | succ i =>
      -- the first client leaves the server as it was, except that it may have asked it to exit
      obtain ⟨haround, hstill⟩ := attend_state (c := { chunks := first }) pid st hd
        ⟨fun _ => rfl, rfl⟩
      have hrest : (serveClients d pid st (first :: clients)).2[i + 1]? =
          (serveClients d pid (attend d pid st { chunks := first }).1 clients).2[i]? := by
        rw [serveClients, hserve]
        rfl
      rw [hrest, List.take_succ_cons, List.exists_mem_cons_iff]
      by_cases hasked : Client.AsksToExit { chunks := first }
      · have hended : (attend d pid st { chunks := first }).1.running = false :=
          eq_false_of_ne_true fun hrunning => (hstill.mp hrunning).2 hasked
        have hthere : clients[i]? = some chunks := h
        refine ⟨none, ?_, iff_of_true rfl (.inl hasked), nofun⟩
        rw [serveClients_of_not_running hended, List.getElem?_map, hthere]
        rfl
      · rw [or_iff_right hasked, ← haround]
        exact ih (hstill.mpr ⟨hrunning, hasked⟩) h

end Service

end ServerPages
