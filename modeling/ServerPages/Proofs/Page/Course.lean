import ServerPages.Page.Script

/-!
# The course of a page

A page that runs takes a course: it writes, sends events and closes its channel in some order,
and it returns or ends in a fault. What is left of a course when all is over can be read off it:
the events before the first close, a report if it ends in a fault while the channel is open that
can be put in words, and the bytes written. The performance of a page leaves just that
(`Course.events_finished_open`, `Course.body_finished`), and each script takes a course
(`Generator.ofScript_eq`).
-/

namespace ServerPages

/-- One thing that a page does. -/
inductive Deed where
  | write (bytes : Bytes)
  /-- Sends an event; if it is refused the refusal escapes. -/
  | send (event : Signal)
  /-- Sends an event, and goes on if it is refused. -/
  | offer (event : Signal)
  | close
  deriving DecidableEq, Repr

/-- What a page does, and the fault that it raises at the end if it does. -/
structure Course where
  deeds : List Deed
  ending : Option Fault := none
  deriving DecidableEq, Repr

namespace Deed

/-- What comes of a deed. -/
def act : Deed → Act Unit
  | .write b => Act.write b
  | .send e => Act.send e
  | .offer e => tryCatch (Act.send e) fun _ => pure ()
  | .close => Act.close

/-- The event that a deed sends. -/
def event? : Deed → Option Signal
  | .send e | .offer e => some e
  | .write _ | .close => none

/-- The bytes that a deed writes. -/
def bytes : Deed → Bytes
  | .write b => b
  | .send _ | .offer _ | .close => []

end Deed

namespace Course

variable {b : Bytes} {e : Signal} {ds : List Deed} {f : Option Fault}

/-- A page that takes a course. -/
def act (c : Course) : Act Unit := do
  c.deeds.forM Deed.act
  c.ending.forM Act.raise

/-- The events sent before the channel is closed. -/
def sent (c : Course) : List Signal := (c.deeds.takeWhile (· ≠ .close)).filterMap Deed.event?

/-- The report of the fault that escapes while the channel is open, if it can be put in words. -/
def report (c : Course) : List Signal :=
  if .close ∈ c.deeds then [] else (c.ending.map Signal.report).getD []

/-- All events that go out. -/
def events (c : Course) : List Signal := c.sent ++ c.report

/-- All bytes that are written. -/
def body (c : Course) : Bytes := c.deeds.flatMap Deed.bytes

/-- Nothing is written behind a close. -/
def IsQuiet (c : Course) : Prop :=
  ∀ before after, c.deeds = before ++ .close :: after → ∀ d ∈ after, d.bytes = []

/-! ### Reading a course deed by deed -/

@[simp]
theorem events_nil : (⟨[], f⟩ : Course).events = (f.map Signal.report).getD [] := by
  simp [events, sent, report]

@[simp]
theorem events_write : (⟨.write b :: ds, f⟩ : Course).events = (⟨ds, f⟩ : Course).events := by
  simp [events, sent, report, List.filterMap_cons, Deed.event?]

@[simp]
theorem events_send : (⟨.send e :: ds, f⟩ : Course).events = e :: (⟨ds, f⟩ : Course).events := by
  simp [events, sent, report, Deed.event?]

@[simp]
theorem events_offer : (⟨.offer e :: ds, f⟩ : Course).events = e :: (⟨ds, f⟩ : Course).events := by
  simp [events, sent, report, Deed.event?]

@[simp]
theorem events_close : (⟨.close :: ds, f⟩ : Course).events = [] := by
  simp [events, sent, report]

@[simp]
theorem body_nil : (⟨[], f⟩ : Course).body = [] := rfl

@[simp]
theorem body_cons {d : Deed} : (⟨d :: ds, f⟩ : Course).body = d.bytes ++ (⟨ds, f⟩ : Course).body := rfl

theorem body_eq_nil (h : ∀ d ∈ ds, d.bytes = []) : (⟨ds, f⟩ : Course).body = [] :=
  List.flatMap_eq_nil_iff.mpr h

theorem isQuiet_nil : (⟨[], f⟩ : Course).IsQuiet := by
  intro before after h
  cases before <;> cases h

theorem isQuiet_cons_iff {d : Deed} : (⟨d :: ds, f⟩ : Course).IsQuiet ↔
    (d = .close → ∀ x ∈ ds, x.bytes = []) ∧ (⟨ds, f⟩ : Course).IsQuiet := by
  constructor
  · refine fun h => ⟨?_, fun before after hds => h (d :: before) after ?_⟩
    · rintro rfl
      exact h [] ds rfl
    · exact congrArg (d :: ·) hds
  · rintro ⟨hclose, htail⟩ before after hds
    cases before with
    | nil =>
      obtain ⟨rfl, rfl⟩ : d = .close ∧ ds = after := List.cons.inj hds
      exact hclose rfl
    | cons x before => exact htail before after (List.cons.inj hds).2

/-! ### What comes behind a close -/

/-- Two courses do the same up to a close; behind it each goes its own way. -/
def AgreeToClose (c c' : Course) : Prop :=
  ∃ before after after', c.deeds = before ++ .close :: after ∧ c'.deeds = before ++ .close :: after'

theorem IsQuiet.body_eq {c : Course} {before after : List Deed} (hc : c.IsQuiet)
    (h : c.deeds = before ++ .close :: after) : c.body = before.flatMap Deed.bytes := by
  have hafter : after.flatMap Deed.bytes = [] :=
    List.flatMap_eq_nil_iff.mpr (hc before after h)
  rw [body, h, List.flatMap_append, List.flatMap_cons, hafter]
  exact List.append_nil _

theorem AgreeToClose.body_eq {c c' : Course} (h : c.AgreeToClose c') (hc : c.IsQuiet)
    (hc' : c'.IsQuiet) : c.body = c'.body := by
  obtain ⟨before, after, after', hds, hds'⟩ := h
  rw [hc.body_eq hds, hc'.body_eq hds']

/-! ### Performances -/

/-- What comes of taking a course on a stage. -/
def perform (c : Course) (s : Stage) : Performance :=
  match c.act.run.run s with
  | (.ok (), stage) => ⟨stage, none⟩
  | (.error fault, stage) => ⟨stage, some fault⟩

private theorem act_cons (d : Deed) :
    (⟨d :: ds, f⟩ : Course).act = d.act >>= fun _ => (⟨ds, f⟩ : Course).act := by
  show (d.act >>= fun _ => ds.forM Deed.act) >>= (fun _ => f.forM Act.raise) = _
  rw [bind_assoc]
  rfl

theorem ofAct_act (c : Course) : Performance.ofAct c.act = c.perform {} := rfl

variable {s : Stage}

private theorem perform_nil : (⟨[], f⟩ : Course).perform s = ⟨s, f⟩ := by
  cases f <;> rfl

private theorem perform_write : (⟨.write b :: ds, f⟩ : Course).perform s =
    (⟨ds, f⟩ : Course).perform { s with body := s.body ++ b } := rfl

private theorem perform_send_open (h : s.closed = false) : (⟨.send e :: ds, f⟩ : Course).perform s =
    (⟨ds, f⟩ : Course).perform { s with events := s.events ++ [e] } := by
  obtain ⟨body, events, closed⟩ := s
  obtain rfl : closed = false := h
  rfl

private theorem perform_send_closed (h : s.closed = true) :
    (⟨.send e :: ds, f⟩ : Course).perform s = ⟨s, some (Channel.late e)⟩ := by
  obtain ⟨body, events, closed⟩ := s
  obtain rfl : closed = true := h
  rfl

private theorem perform_offer_open (h : s.closed = false) : (⟨.offer e :: ds, f⟩ : Course).perform s =
    (⟨ds, f⟩ : Course).perform { s with events := s.events ++ [e] } := by
  obtain ⟨body, events, closed⟩ := s
  obtain rfl : closed = false := h
  rfl

private theorem perform_offer_closed (h : s.closed = true) :
    (⟨.offer e :: ds, f⟩ : Course).perform s = (⟨ds, f⟩ : Course).perform s := by
  obtain ⟨body, events, closed⟩ := s
  obtain rfl : closed = true := h
  rfl

private theorem perform_close : (⟨.close :: ds, f⟩ : Course).perform s =
    (⟨ds, f⟩ : Course).perform { s with closed := true } := rfl

/-- Behind a close no event goes out. -/
theorem events_finished_closed (c : Course) (h : s.closed = true) :
    (c.perform s).finished.events = s.events := by
  obtain ⟨ds, f⟩ := c
  induction ds generalizing s with
  | nil =>
    rw [perform_nil]
    cases f with
    | none => rfl
    | some f => exact if_pos h
  | cons d ds ih =>
    cases d with
    | write b => rw [perform_write, ih (s := { s with body := s.body ++ b }) h]
    | send e =>
      rw [perform_send_closed h]
      exact if_pos h
    | offer e => rw [perform_offer_closed h, ih h]
    | close => rw [perform_close, ih rfl]

/-- On an open channel all events of the course go out. -/
theorem events_finished_open (c : Course) (h : s.closed = false) :
    (c.perform s).finished.events = s.events ++ c.events := by
  obtain ⟨ds, f⟩ := c
  induction ds generalizing s with
  | nil =>
    rw [perform_nil, events_nil]
    cases f with
    | none => exact (List.append_nil _).symm
    | some f => exact if_neg (by simp [h])
  | cons d ds ih =>
    cases d with
    | write b =>
      rw [perform_write, ih (s := { s with body := s.body ++ b }) h, events_write]
    | send e =>
      rw [perform_send_open h, ih (s := { s with events := s.events ++ [e] }) h, events_send]
      exact List.append_assoc ..
    | offer e =>
      rw [perform_offer_open h, ih (s := { s with events := s.events ++ [e] }) h, events_offer]
      exact List.append_assoc ..
    | close => rw [perform_close, events_finished_closed _ rfl, events_close, List.append_nil]

/-- Deeds that write nothing leave the body. -/
theorem body_finished_of_bytes_eq_nil (h : ∀ d ∈ ds, d.bytes = []) :
    ((⟨ds, f⟩ : Course).perform s).finished.body = s.body := by
  induction ds generalizing s with
  | nil => rw [perform_nil]; rfl
  | cons d ds ih =>
    have hds : ∀ d ∈ ds, d.bytes = [] := fun x hx => h x (List.mem_cons_of_mem d hx)
    cases d with
    | write b =>
      obtain rfl : b = [] := h _ List.mem_cons_self
      rw [perform_write, ih hds, List.append_nil]
    | send e =>
      cases hs : s.closed with
      | false => rw [perform_send_open hs, ih hds]
      | true => rw [perform_send_closed hs]; rfl
    | offer e =>
      cases hs : s.closed with
      | false => rw [perform_offer_open hs, ih hds]
      | true => rw [perform_offer_closed hs, ih hds]
    | close => rw [perform_close, ih hds]

/-- The body of a quiet course is complete. -/
theorem body_finished {c : Course} (hc : c.IsQuiet) (h : s.closed = false) :
    (c.perform s).finished.body = s.body ++ c.body := by
  obtain ⟨ds, f⟩ := c
  induction ds generalizing s with
  | nil => rw [perform_nil, body_nil, List.append_nil]; rfl
  | cons d ds ih =>
    rw [body_cons]
    cases d with
    | write b =>
      rw [perform_write, ih (s := { s with body := s.body ++ b }) h (isQuiet_cons_iff.mp hc).2]
      exact List.append_assoc ..
    | send e =>
      rw [perform_send_open h, ih (s := { s with events := s.events ++ [e] }) h (isQuiet_cons_iff.mp hc).2]
      rfl
    | offer e =>
      rw [perform_offer_open h, ih (s := { s with events := s.events ++ [e] }) h (isQuiet_cons_iff.mp hc).2]
      rfl
    | close =>
      have hds := (isQuiet_cons_iff.mp hc).1 rfl
      rw [perform_close, body_finished_of_bytes_eq_nil hds, body_eq_nil hds]
      exact (List.append_nil _).symm

end Course

/-! ### Pages -/

/-- The page that takes a course, which may depend on what surrounds it and on the request. -/
def Generator.ofCourse (course : Surroundings → Option Request → Course) : Generator :=
  fun around request => (course around request).act

variable (around : Surroundings) (request : Option Request)

/-- The deed that a step of a script comes to, or the fault that it ends in. -/
def Step.deed : Step → Except Fault Deed
  | .write vs => .ok (.write (vs.flatMap Value.written))
  | .field name =>
    match request with
    | none => .ok (.write ([.none].flatMap Value.written))
    | some r =>
      match r.field? around.cwd.path name with
      | some v => .ok (.write ([v].flatMap Value.written))
      | none => .error (noField name)
  | .raise f => .error f
  | .file name =>
    let base := request.bind (·.baseDir? around.cwd.path)
    match Guarded.openFile around.tree around.cwd name ['r'] base {} with
    | (_, .error e) => .error e.fault
    | (_, .ok f) =>
      match f.read with
      | .error e => .error e.fault
      | .ok (.text s) => .ok (.write ([.text s].flatMap Value.written))
      | .ok (.bytes b) => .ok (.write ([.bytes b].flatMap Value.written))
  | .directory => .ok (.write ([.text around.cwd.path].flatMap Value.written))
  | .send event => event.map .send
  | .close => .ok .close

private theorem Step.act_eq (step : Step) :
    step.act around request = Act.ofExcept (step.deed around request) >>= Deed.act := by
  cases step with
  | write | raise | directory | close => rfl
  | send event => cases event <;> rfl
  | field name =>
    cases request with
    | none => rfl
    | some r =>
      unfold Step.act Step.deed
      dsimp only
      cases r.field? around.cwd.path name <;> rfl
  | file name =>
    unfold Step.act Step.deed
    dsimp only
    rcases Guarded.openFile around.tree around.cwd name ['r']
      (request.bind (·.baseDir? around.cwd.path)) {} with ⟨tree, e | file⟩
    · rfl
    · dsimp only
      rcases file.read with e | s | b <;> rfl

/-- The course that a script takes: its deeds up to the first fault. -/
def Course.ofSteps : List Step → Course
  | [] => ⟨[], none⟩
  | step :: steps =>
    match step.deed around request with
    | .error f => ⟨[], some f⟩
    | .ok d => ⟨d :: (ofSteps steps).deeds, (ofSteps steps).ending⟩

/-- Each script takes a course. -/
theorem Generator.ofScript_eq (steps : List Step) : Generator.ofScript steps =
    Generator.ofCourse fun around request => Course.ofSteps around request steps := by
  funext around request
  show steps.forM (Step.act around request) = (Course.ofSteps around request steps).act
  induction steps with
  | nil => rfl
  | cons step steps ih =>
    show (step.act around request >>= fun _ => steps.forM (Step.act around request)) = _
    rw [ih, Step.act_eq, Course.ofSteps]
    cases step.deed around request with
    | error f => rfl
    | ok d => exact (Course.act_cons d).symm

end ServerPages
