import ServerPages.Log
import ServerPages.Page.Stage
import ServerPages.Response.Lines

/-!
# Dispatching requests

To answer a request the page runs on a stage of its own.  Its events become the header of the
response, behind a first event that names the request; its body follows if the last status it
set is that of success.  An event that cannot be encoded breaks the response off.
-/

namespace ServerPages

/-- How requests are dispatched. -/
structure Dispatcher where
  page : Generator
  format : Format := .structured
  /-- The most events that wait to be written at a time. -/
  capacity : Nat := 5
  /-- Whether to enter the directory of the requested page before the page runs. -/
  changeDirectory : Bool := false

/-- Why a request is not dispatched. -/
inductive DispatchError where
  /-- The directory of the requested page does not exist. -/
  | noDirectory (dir : Text)
  | path (e : PathError)
  deriving DecidableEq, Repr

namespace DispatchError

/-- The error in words. -/
def message : DispatchError → Text
  | .noDirectory dir => "No such directory: ".toList ++ dir
  | .path e => e.message

/-- Whether the system refuses something, so that a response is merely abandoned. -/
def isSystem : DispatchError → Bool
  | .path .nullCharacter => false
  | _ => true

end DispatchError

/-- A response. -/
structure Response where
  /-- The last status that the page has set. -/
  status : List Letter
  content : Bytes
  /-- The notes that are left.  Those of a page whose response is broken off depend on how far it
  has come by then and are left out. -/
  notes : List Note := []
  /-- What cannot be encoded; what was to follow it has not been written. -/
  broken : Option Letter.Fault := none
  deriving DecidableEq, Repr

namespace Dispatcher

/-- The directory in which a page runs for a request. -/
def directory (d : Dispatcher) (around : Surroundings) (request : Option Request) :
    Except DispatchError Location :=
  match request.bind (·.baseDir? around.cwd.path) with
  | none => .ok around.cwd
  | some dir =>
    if d.changeDirectory then
      if '\x00' ∈ dir then .error (.path .nullCharacter)
      else match around.tree.reachDirectory around.cwd dir with
        | .ok loc => .ok loc
        | .error e => .error (.path (.refused e dir))
    else if around.tree.isDirectory around.cwd dir then .ok around.cwd
    else .error (.noDirectory dir)

/-- The event that names the request. -/
def opening (request : Option Request) : Event :=
  let described := match request with
    | none => "None".toList
    | some r => r.describe
  Event.debugMessage (.text (sanitize ("Handling ".toList ++ described)))

/-- The notes about events that tell of errors. -/
def eventNote (s : Signal) : Option Note :=
  if s.hasKey "error-message" then
    some ⟨1, "Page error: ".toList ++ Letter.printed s.value⟩
  else if s.hasKey "debug-message" then
    some ⟨3, "Page debug: ".toList ++ Letter.printed s.value⟩
  else none

/-- All that is sent when a page performs for a request. -/
def signals (request : Option Request) (p : Performance) : List Signal :=
  (opening request).signal :: p.finished.events

/-- The parts in which a response is written, one after the other: the lines of its header, and
the body if the last status is that of success.  A line that cannot be encoded is the end. -/
def parts (format : Format) (request : Option Request) (p : Performance) :
    List Bytes × Option Letter.Fault :=
  let signals := signals request p
  match Header.write (Header.linesOf format signals) with
  | (parts, some f) => (parts, some f)
  | (parts, none) =>
    (parts ++ if Header.statusOf signals = Letter.ofText Event.statusOk then [p.finished.body] else [],
      none)

/-- The notes about a response that is written as a whole. -/
def notes (request : Option Request) (p : Performance) : List Note :=
  let signals := signals request p
  let status := Header.statusOf signals
  let failure : List Note := match p.fault.bind (·.text) with
    | some text => [⟨1, "Page generator failed: ".toList ++ Letter.printed text⟩]
    | none => []
  let suppressed : List Note := if status = Letter.ofText Event.statusOk then []
    else [⟨2, "Suppressing ".toList ++ Decimal.ofNat p.finished.body.length ++
      "-byte body; status ".toList ++ Letter.printed status⟩]
  failure ++ signals.filterMap eventNote ++ suppressed

/-- The response that a performance makes. -/
def response (format : Format) (request : Option Request) (p : Performance) : Response :=
  let (parts, broken) := parts format request p
  { status := Header.statusOf (signals request p), content := parts.flatten, broken,
    notes := if broken.isSome then [] else notes request p }

/-- A response whose header can be encoded is whole. -/
theorem response_of_encode? {format : Format} {request : Option Request} {p : Performance}
    {header : Bytes}
    (h : Header.encode? (Header.linesOf format (signals request p)) = some header) :
    response format request p =
      { status := Header.statusOf (signals request p)
        content := header ++
          if Header.statusOf (signals request p) = Letter.ofText Event.statusOk then
            p.finished.body
          else []
        notes := notes request p } := by
  obtain ⟨lines, hlines, rfl⟩ := Header.write_of_encode? h
  have hparts : parts format request p = (lines ++
      if Header.statusOf (signals request p) = Letter.ofText Event.statusOk then [p.finished.body]
      else [], none) := by
    unfold parts
    dsimp only
    rw [hlines]
  rw [response, hparts]
  dsimp only
  rw [List.flatten_append]
  split
  · rw [List.flatten_singleton]
    rfl
  · rfl

/-- A response whose header cannot be encoded is broken off. -/
theorem broken_of_encode?_eq_none {format : Format} {request : Option Request} {p : Performance}
    (h : Header.encode? (Header.linesOf format (signals request p)) = none) :
    ∃ f, (response format request p).broken = some f := by
  obtain ⟨lines, f, hlines⟩ := Header.exists_write_of_encode?_eq_none h
  refine ⟨f, ?_⟩
  unfold response parts
  dsimp only
  rw [hlines]

/-- Runs the page for a request; gives what comes of it and the directory that has been
entered. -/
def run (d : Dispatcher) (around : Surroundings) (request : Option Request) :
    Except DispatchError (Performance × Location) :=
  (d.directory around request).map fun cwd =>
    (Performance.ofAct (d.page { around with cwd } request), cwd)

/-- Answers a request; gives the response and the directory that has been entered. -/
def dispatch (d : Dispatcher) (around : Surroundings) (request : Option Request) :
    Except DispatchError (Response × Location) :=
  (d.directory around request).map fun cwd =>
    let p := Performance.ofAct (d.page { around with cwd } request)
    (response d.format request p, cwd)

theorem dispatch_eq_run (d : Dispatcher) (around : Surroundings) (request : Option Request) :
    d.dispatch around request =
      (d.run around request).map fun (p, cwd) => (response d.format request p, cwd) := by
  unfold dispatch run
  cases d.directory around request <;> rfl

end Dispatcher

end ServerPages
