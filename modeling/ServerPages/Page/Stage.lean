import ServerPages.Metadata.Channel
import ServerPages.Path.Guarded
import ServerPages.Request.Basic

/-!
# Pages at work

A page that runs writes a body and sends events until it closes its channel.  It acts on a stage:
what it has written and sent so far.  A fault may end it at any moment; what was done before
stays done.

However a page ends, its channel is closed (`closed_finished`).  A fault that escapes while the
channel is open is reported on it before, unless the fault cannot be put in words.
-/

namespace ServerPages

/-- What a page has done so far. -/
structure Stage where
  body : Bytes := []
  /-- The events sent before the channel was closed. -/
  events : List Signal := []
  closed : Bool := false
  deriving DecidableEq, Repr

/-- Something that a page does: it changes the stage, and it gives a value or ends in a fault. -/
abbrev Act (α : Type) := ExceptT Fault (StateM Stage) α

namespace Act

/-- Ends the page. -/
def raise {α : Type} (f : Fault) : Act α := throw f

/-- Writes to the body. -/
def write (b : Bytes) : Act Unit := modify fun s => { s with body := s.body ++ b }

/-- Writes values to the body. -/
def writeValues (vs : List Value) : Act Unit := write (vs.flatMap Value.written)

/-- Sends an event. -/
def send (e : Signal) : Act Unit := do
  if (← get).closed then raise (Channel.late e)
  else modify fun s => { s with events := s.events ++ [e] }

/-- Closes the channel. -/
def close : Act Unit := modify fun s => { s with closed := true }

/-- The value of a computation that may end in a fault. -/
def ofExcept {α : Type} (e : Except Fault α) : Act α :=
  match e with
  | .ok a => pure a
  | .error f => raise f

/-- Reports a fault.  If it cannot be put in words, nothing of it goes out but the status. -/
def report (f : Fault) : Act Unit :=
  match f.text with
  | some text => (Signal.failure f text).forM send
  | none => do
    send (Signal.status Event.statusFailed)
    raise Fault.wordless

end Act

/-- A page: what it does on an empty stage, and the fault that escapes it if one does. -/
structure Performance where
  stage : Stage
  fault : Option Fault
  deriving DecidableEq, Repr

namespace Performance

/-- What comes of doing something. -/
def ofAct (act : Act Unit) : Performance :=
  match act.run.run {} with
  | (.ok (), stage) => ⟨stage, none⟩
  | (.error f, stage) => ⟨stage, some f⟩

/-- The stage when all is over: a fault that escapes while the channel is open has been
reported if it can be put in words, and the channel is closed. -/
def finished (p : Performance) : Stage :=
  let events := match p.fault with
    | some f => if p.stage.closed then p.stage.events else p.stage.events ++ Signal.report f
    | none => p.stage.events
  { p.stage with events, closed := true }

theorem closed_finished (p : Performance) : p.finished.closed = true := rfl

end Performance

/-- What surrounds a page: the files, and the directory it runs in. -/
structure Surroundings where
  tree : FileTree
  cwd : Location

/-- What runs a page for a request, or for none. -/
abbrev Generator := Surroundings → Option Request → Act Unit

/-- The fault of a file that a guard does not open. -/
def GuardError.fault : GuardError → Fault
  | .outside o => Fault.library "SandboxViolation" o.message
  | .path (.refused e p) =>
    let kind := (Fault.systemKind? e.number).getD "OSError"
    Fault.of kind (PathError.refused e p).message
  | .path .nullCharacter => Fault.of "ValueError" PathError.nullCharacter.message
  | .argument m => Fault.of "ValueError" m
  | .lookup m => Fault.of "LookupError" m
  | .unsupported m => Fault.of "UnsupportedOperation" m
  | .decoding m => Fault.of "UnicodeDecodeError" m
  | .encoding m => Fault.of "UnicodeEncodeError" m
  | .unsuited m => Fault.of "TypeError" m

end ServerPages
