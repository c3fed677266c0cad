import ServerPages.Dispatch
import ServerPages.Request.Message

/-!
# Connections

A connection brings bytes in pieces of limited size.  They are read until one complete message has
arrived, or none can arrive any more; then the message is answered.  Asking for the process number
and asking to exit are answered by the server itself, all else by the page.

The answer goes back part by part, and the system may refuse any part of it, as it does when the
client has hung up.  An answer that is refused is abandoned: what was to be done after it is left
out.
-/

namespace ServerPages

namespace Connection

/-- What arrives on a connection at once, or what one attempt to receive brings of it.  The end of
the input is brought as no bytes. -/
inductive Chunk where
  | data (b : Bytes)
  /-- An error of the system, in words. -/
  | broken (message : Text)
  deriving DecidableEq, Repr

/-- The most bytes that one attempt to receive brings. -/
def receiveSize : Nat := 4096

/-- What the attempts bring of bytes that wait, if nothing comes behind them. -/
def remainder (waiting : Bytes) : List Chunk :=
  if waiting.isEmpty then []
  else .data (waiting.take receiveSize) :: remainder (waiting.drop receiveSize)
termination_by waiting.length
decreasing_by
  rename_i h
  have hpos : 0 < waiting.length := by simpa [List.length_pos_iff] using h
  simp only [List.length_drop, receiveSize]
  omega

/-- What the attempts bring of what arrives.  Of a chunk that is too large the rest waits, and comes
together with the next one. -/
def portions (waiting : Bytes) : List Chunk → List Chunk
  | [] => remainder waiting
  | .broken m :: rest => remainder waiting ++ .broken m :: portions [] rest
  | .data b :: rest =>
    .data ((waiting ++ b).take receiveSize) :: portions ((waiting ++ b).drop receiveSize) rest

private theorem remainder_nil : remainder [] = [] := by
  rw [remainder]
  rfl

@[simp] theorem portions_nil : portions [] [] = [] := remainder_nil

@[simp] theorem portions_broken (m : Text) (rest : List Chunk) :
    portions [] (.broken m :: rest) = .broken m :: portions [] rest := by
  rw [portions, remainder_nil]
  rfl

/-- What is small enough comes as a whole. -/
theorem portions_data {b : Bytes} (hb : b.length ≤ receiveSize) (rest : List Chunk) :
    portions [] (.data b :: rest) = .data b :: portions [] rest := by
  rw [portions, List.nil_append, List.take_of_length_le hb, List.drop_of_length_le hb]

/-- Pieces that are small enough come one by one. -/
theorem portions_pieces {pieces : List Bytes} (hall : ∀ b ∈ pieces, b.length ≤ receiveSize)
    (rest : List Chunk) :
    portions [] (pieces.map .data ++ rest) = pieces.map .data ++ portions [] rest := by
  induction pieces with
  | nil => rfl
  | cons b pieces ih =>
    rw [List.forall_mem_cons] at hall
    rw [List.map_cons, List.cons_append, portions_data hall.1, ih hall.2, List.cons_append]

/-- Why no request has been received. -/
inductive ReceiveError where
  | timeout
  | broken (message : Text)
  | message (f : Message.Failure)
  deriving DecidableEq, Repr

/-- The error in words. -/
def ReceiveError.text : ReceiveError → Text
  | .timeout => "Timed out waiting for a service request".toList
  | .broken m => "Failed to receive a service request: ".toList ++ m
  | .message f => f.text

/-- Whether the error is one of the message or the connection. -/
def ReceiveError.isRefusal : ReceiveError → Bool
  | .message f => f.isRefusal
  | _ => true

/-- What receiving comes to, and how often it was attempted. -/
structure Received where
  result : Except ReceiveError Envelope
  attempts : Nat

/-- Receives until a message is complete, `got` having been received in `attempts` attempts.  Each of
the chunks is what one further attempt brings; behind the last one the input ends. -/
def receiveFrom (got : Bytes) (attempts : Nat) : List Chunk → Received
  | [] =>
    ⟨(Message.decode got).mapError .message, attempts + 1⟩
  | .broken m :: _ => ⟨.error (.broken m), attempts + 1⟩
  | .data b :: rest =>
    match Message.decode (got ++ b) with
    | .ok e => ⟨.ok e, attempts + 1⟩
    | .error f =>
      match f with
      | .incomplete _ =>
        if b.isEmpty then ⟨.error (.message f), attempts + 1⟩
        else receiveFrom (got ++ b) (attempts + 1) rest
      | _ => ⟨.error (.message f), attempts + 1⟩

/-- Receives one message from what arrives, if there is time at all. -/
def receive (patient : Bool) (chunks : List Chunk) : Received :=
  if patient then receiveFrom [] 0 (portions [] chunks) else ⟨.error .timeout, 0⟩

/-- A piece of a message as one attempt to receive brings it. -/
def IsPiece (b : Bytes) : Prop := b ≠ [] ∧ b.length ≤ receiveSize

instance (b : Bytes) : Decidable (IsPiece b) := inferInstanceAs (Decidable (_ ∧ _))

/-- Pieces that each come in one attempt are received as they are. -/
theorem receive_pieces {pieces : List Bytes} (hall : ∀ b ∈ pieces, IsPiece b)
    (rest : List Chunk) : receive true (pieces.map .data ++ rest) =
      receiveFrom [] 0 (pieces.map .data ++ portions [] rest) := by
  rw [receive, if_pos rfl, portions_pieces fun b hb => (hall b hb).2]

/-- A message that comes at once is received at once. -/
theorem receive_whole {b : Bytes} {e : Envelope} (hb : b.length ≤ receiveSize)
    (h : Message.decode b = .ok e) (rest : List Chunk) :
    receive true (.data b :: rest) = ⟨.ok e, 1⟩ := by
  rw [receive, if_pos rfl, portions_data hb, receiveFrom, List.nil_append, h]

/-! ### The way back -/

/-- What the system makes of an answer on its way back to the client: for each thing that is done,
the error in words, if it is refused. -/
structure WayBack where
  /-- Writing a part of the answer; the parts are counted from 0. -/
  write : Nat → Option Text := fun _ => none
  /-- Flushing what was written. -/
  flush : Option Text := none
  /-- Closing the way back. -/
  close : Option Text := none

/-- What has become of an answer. -/
structure Sent where
  /-- The bytes of the parts that were written. -/
  bytes : Bytes
  /-- The first refusal; what was to follow it has not been done. -/
  refusal : Option Text
  /-- The refusal to close the way back, which is done in any case. -/
  atClose : Option Text

namespace WayBack

/-- Writes parts of which the first has a number, and flushes them. -/
def writeParts (back : WayBack) (number : Nat) : List Bytes → Bytes × Option Text
  | [] => ([], back.flush)
  | part :: rest =>
    match back.write number with
    | some m => ([], some m)
    | none =>
      let (bytes, refusal) := back.writeParts (number + 1) rest
      (part ++ bytes, refusal)

/-- Sends an answer and closes the way back. -/
def send (back : WayBack) (parts : List Bytes) : Sent :=
  let (bytes, refusal) := back.writeParts 0 parts
  ⟨bytes, refusal, back.close⟩

/-- The way back of an answer that may have been broken off: behind such an answer nothing is
flushed. -/
def upTo (back : WayBack) (broken : Option Letter.Fault) : WayBack :=
  if broken.isSome then { back with flush := none } else back

/-- A way back on which nothing is refused. -/
def clear : WayBack := {}

private theorem writeParts_clear (number : Nat) (parts : List Bytes) :
    clear.writeParts number parts = (parts.flatten, none) := by
  induction parts generalizing number with
  | nil => rfl
  | cons part parts ih => simp only [writeParts, clear, List.flatten_cons] at ih ⊢; rw [ih]

theorem send_clear (parts : List Bytes) : clear.send parts = ⟨parts.flatten, none, none⟩ := by
  rw [send, writeParts_clear]
  rfl

end WayBack

/-! ### Answering -/

/-- The answer to a control request. -/
def processAnswer (pid : Text) : Bytes := Utf8.encode ("gosp-pid ".toList ++ pid ++ ['\n'])

/-- What breaks a connection off with the whole server. -/
inductive Failure where
  | message (f : Message.Failure)
  | dispatch (e : DispatchError)
  /-- The answer cannot be encoded. -/
  | encoding (f : Letter.Fault)
  deriving DecidableEq, Repr

/-- What a connection comes to. -/
structure Outcome where
  /-- The bytes that were written as an answer. -/
  answer : Bytes
  /-- How often receiving was attempted. -/
  attempts : Nat
  /-- Whether the server has been asked to exit. -/
  exit : Bool := false
  cwd : Location
  /-- The notes that are left.  Those of a page whose response is abandoned depend on how far it
  has come by then and are left out. -/
  notes : List Note := []
  /-- What else went wrong. -/
  failure : Option Failure := none

/-- The note about an answer that is not sent as a whole. -/
def abandoned (message : Text) : Note := ⟨1, "Abandoning response: ".toList ++ message⟩

/-- Handles one connection. -/
def handle (d : Dispatcher) (pid : Text) (around : Surroundings) (patient : Bool)
    (chunks : List Chunk) (back : WayBack := .clear) : Outcome :=
  let r := receive patient chunks
  let nothing : Outcome := { answer := [], attempts := r.attempts, cwd := around.cwd }
  match r.result with
  | .error e =>
    match e with
    | .message f =>
      if f.isRefusal then
        { nothing with notes := [⟨2, "Dropping connection: ".toList ++ e.text⟩] }
      else { nothing with failure := some (.message f) }
    | _ => { nothing with notes := [⟨2, "Dropping connection: ".toList ++ e.text⟩] }
  | .ok envelope =>
    if envelope.exitNow then
      let sent := back.send [processAnswer pid]
      let asked : Note := ⟨2, "Received a request to exit".toList⟩
      match sent.refusal with
      | none => { nothing with answer := sent.bytes, exit := true, notes := [asked] }
      | some m => { nothing with answer := sent.bytes, notes := [asked, abandoned m] }
    else if envelope.getPid then
      let sent := back.send [processAnswer pid]
      { nothing with answer := sent.bytes, notes := sent.refusal.toList.map abandoned }
    else
      match d.run around (some envelope.request) with
      | .ok (p, cwd) =>
        let (parts, broken) := Dispatcher.parts d.format (some envelope.request) p
        let sent := (back.upTo broken).send parts
        match sent.refusal with
        | none =>
          { nothing with
            answer := sent.bytes, cwd, failure := broken.map .encoding,
            notes := (Dispatcher.response d.format (some envelope.request) p).notes }
        | some m => { nothing with answer := sent.bytes, cwd, notes := [abandoned m] }
      | .error e =>
        if e.isSystem then { nothing with notes := [abandoned e.message] }
        else { nothing with failure := some (.dispatch e) }

end Connection

end ServerPages
