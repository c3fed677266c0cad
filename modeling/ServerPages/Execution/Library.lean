import ServerPages.Execution.Thing

/-!
# The page library at work

Running code changes a world: the stage of the page and what names stand for.  A run gives a
result or ends in a fault, and the world keeps what was done before.  This module holds the parts
of a run that the language leaves to the page library and to the operations of values.
-/

namespace ServerPages

namespace Execution

/-- The world in which code runs. -/
structure World where
  stage : Stage := {}
  scope : Scope := {}
  /-- The directory in which the page runs. -/
  directory : Text := []

/-- A run of code. -/
abbrev Run (α : Type) := ExceptT Fault (StateM World) α

namespace Run

/-- Ends the run. -/
def raise {α : Type} (f : Fault) : Run α := throw f

/-- The value of a computation that may end in a fault. -/
def ofExcept {α : Type} (e : Except Fault α) : Run α :=
  match e with
  | .ok a => pure a
  | .error f => raise f

/-- Does something on the stage. -/
def act {α : Type} (a : Act α) : Run α := fun w =>
  let (result, stage) := a.run.run w.stage
  (result, { w with stage })

/-- The outcome of a run that is not let to end this one. -/
def outcome {α : Type} (x : Run α) : Run (Except Fault α) := fun w =>
  let (result, w) := x.run.run w
  (.ok result, w)

/-- Runs something in a scope of its own. -/
def within {α : Type} (s : Scope) (x : Run α) : Run α := fun w =>
  let (result, after) := x.run.run { w with scope := s }
  (result, { after with scope := w.scope })

/-- What a name stands for. -/
def find (name : Text) : Run Thing := do ofExcept ((← get).scope.find name)

/-- Binds a name. -/
def bind (name : Text) (t : Thing) : Run Unit :=
  modify fun w => { w with scope := w.scope.bind name t }

/-- Ends a run that meets something that pages are not run with. -/
def unsupported {α : Type} (what : String) : Run α :=
  raise (Fault.of "NotImplementedError" (what.toList ++ " is not supported in pages".toList))

end Run

/-! ### Things -/

namespace Thing

/-- The name of a thing's kind. -/
def kindName : Thing → Text
  | .value v => v.kindName
  | .letters _ => "str".toList
  | .library | .module _ => "module".toList
  | .service _ | .function .. => "function".toList
  | .kind _ | .counting => "type".toList
  | .fault f => f.kind
  | .range _ => "range".toList
  | .output => "BytesIO".toList
  | .channel => "Metadata".toList
  | .closing => "method".toList
  | .request _ => "RequestData".toList

/-- Whether a thing can be called. -/
def isCallable : Thing → Bool
  | .service _ | .function .. | .kind _ | .counting | .closing => true
  | _ => false

/-- A thing as a value. -/
def toValue : Thing → Run Value
  | .value v => pure v
  | _ => Run.unsupported "working with what is no value"

/-- A thing as a string where it is a fault, else the thing itself. -/
def spoken : Thing → Run Thing
  | .fault f =>
    match f.text with
    | some s => pure (ofLetters s)
    | none => Run.raise Fault.wordless
  | t => pure t

/-- The bytes that a thing is written as. -/
def written (t : Thing) : Run Bytes := do
  match ← t.spoken with
  | .value v => return v.written
  | .letters s =>
    match Letter.fault? s with
    | some f => Run.raise (Fault.of "UnicodeEncodeError" f.message)
    | none => return Utf8.encode (Letter.shown s)
  | _ => Run.unsupported "writing what is no value"

/-- Whether a thing counts as true. -/
def isTrue : Thing → Bool
  | .value v => v.isTrue
  | .letters s => !s.isEmpty
  | .range items => !items.isEmpty
  | _ => true

/-- The fault of an attribute that a thing does not have. -/
def noAttribute (t : Thing) (name : Text) : Fault :=
  let subject := match t with
    | .library => "module 'gosp'".toList
    | .module m => "module ".toList ++ Quoted.encode m
    | _ => Quoted.encode t.kindName ++ " object".toList
  Fault.of "AttributeError" (subject ++ " has no attribute ".toList ++ Quoted.encode name)

/-- What a thing's attribute stands for. -/
def member (t : Thing) (name : Text) : Run Thing := do
  match t with
  | .library =>
    if ["fprint", "set_http_status", "set_mime_type", "set_header_field", "set_keep_alive",
        "error_message", "debug_message", "report_failure"].any (name = ·.toList) then
      return .service name
    else if name = "STATUS_OK".toList then return .value (.int 200)
    else if name = "STATUS_INTERNAL_SERVER_ERROR".toList then return .value (.int 500)
    else Run.raise (t.noAttribute name)
  | .channel =>
    if name = "close".toList then return .closing
    else if name = "closed".toList then return .value (.bool (← get).stage.closed)
    else Run.raise (t.noAttribute name)
  | .request r =>
    match r.field? (← get).directory name with
    | some v => return .value v
    | none => Run.raise (t.noAttribute name)
  | _ => Run.raise (t.noAttribute name)

/-- The things that a loop goes through. -/
def items : Thing → Run (List Thing)
  | .range ns => return ns.map (.value ∘ .int)
  | .value (.list vs) => return vs.map .value
  | .value (.text s) => return s.map fun c => .value (.text [c])
  | .letters s => return s.map fun l => ofLetters [l]
  | .value (.table es) => return es.map fun e => .value (.text e.1)
  | t => Run.raise (Fault.of "TypeError" (Quoted.encode t.kindName ++
      " object is not iterable".toList))

end Thing

/-! ### Services of the library -/

/-- The parameters of a function of the library behind the channel, and the values of the last
of them. -/
def serviceParameters (name : Text) : List Text × List Thing :=
  let named (s : String) : Bool := name = s.toList
  if named "set_http_status" then (["status".toList], [])
  else if named "set_mime_type" then (["mime_type".toList], [])
  else if named "set_header_field" then
    (["key".toList, "value".toList, "replace".toList], [.value (.bool false)])
  else if named "set_keep_alive" then (["keep_alive".toList], [])
  else if named "report_failure" then (["exc".toList], [])
  else (["message".toList], [])

/-- The event that a function of the library sends for some values. -/
def serviceEvent (name : Text) (values : List Value) : Except Fault Event :=
  let named (s : String) : Bool := name = s.toList
  match values with
  | [status] =>
    if named "set_http_status" then Event.httpStatus status
    else if named "set_mime_type" then .ok (Event.mimeType status)
    else if named "set_keep_alive" then .ok (Event.keepAlive status)
    else if named "debug_message" then .ok (Event.debugMessage status)
    else .ok (Event.errorMessage status)
  | key :: value :: replace :: _ => .ok (Event.headerField key value replace)
  | _ => .ok (Event.errorMessage .none)

/-- The signal that a function of the library sends for some things. -/
def serviceSignal (name : Text) (things : List Thing) : Run Signal := do
  match ← things.mapM Thing.spoken with
  | [.letters s] =>
    if name = "set_http_status".toList then
      Run.raise (Event.noInteger (Letter.quoted s))
    else
      let event ← Run.ofExcept (serviceEvent name [.text (Letter.shown s)])
      return { event.signal with
        value := if name = "set_keep_alive".toList then event.signal.value else s }
  | things =>
    let values ← things.mapM Thing.toValue
    return (← Run.ofExcept (serviceEvent name values)).signal

/-- Calls a function of the library. -/
def callService (name : Text) (args : Arguments) : Run Unit := do
  if name = "fprint".toList then
    match args.placed with
    | .output :: things => things.forM fun t => do Run.act (Act.write (← t.written))
    | _ => Run.unsupported "writing elsewhere than to the page"
  else
    let (names, defaults) := serviceParameters name
    let parameters := "meta".toList :: names
    let given ← Run.ofExcept (args.assign name parameters defaults)
    match parameters.filterMap (fun p => given.lookup p) with
    | .channel :: things =>
      let send : Run Unit := do Run.act (Act.send (← serviceSignal name things))
      match things with
      | [.fault f] =>
        if name = "report_failure".toList then Run.act (Act.report f) else send
      | _ => send
    | t :: _ => Run.raise (t.noAttribute "emit".toList)
    | [] => return ()

/-! ### Ranges and operations -/

/-- The integers from one on, by steps, before another. -/
def countFrom (start stop step : Int) : List Int :=
  let count := if 0 < step then (stop - start + step - 1) / step
    else (start - stop - step - 1) / (-step)
  (List.range count.toNat).map fun (i : Nat) => start + step * (i : Int)

/-- A value that counts as an integer. -/
def asInteger : Thing → Run Int
  | .value (.int n) => return n
  | .value (.bool b) => return if b then 1 else 0
  | t => Run.raise (Fault.of "TypeError" (Quoted.encode t.kindName ++
      " object cannot be interpreted as an integer".toList))

/-- The range that some arguments describe. -/
def makeRange (args : List Thing) : Run Thing := do
  match ← args.mapM asInteger with
  | [stop] => return .range (countFrom 0 stop 1)
  | [start, stop] => return .range (countFrom start stop 1)
  | [start, stop, step] =>
    if step = 0 then
      Run.raise (Fault.of "ValueError" "range() arg 3 must not be zero".toList)
    else return .range (countFrom start stop step)
  | [] =>
    Run.raise (Fault.of "TypeError" "range expected at least 1 argument, got 0".toList)
  | ns =>
    Run.raise (Fault.of "TypeError" ("range expected at most 3 arguments, got ".toList ++
      Decimal.ofNat ns.length))

/-- The integer that a value stands for in sums. -/
def summand? : Thing → Option Int
  | .value (.int n) => some n
  | .value (.bool b) => some (if b then 1 else 0)
  | _ => none

/-- The value of an operation on two things. -/
def operate (operator : Text) (a b : Thing) : Run Thing :=
  match summand? a, summand? b with
  | some m, some n =>
    if operator = ['+'] then return .value (.int (m + n))
    else if operator = ['-'] then return .value (.int (m - n))
    else if operator = ['*'] then return .value (.int (m * n))
    else Run.unsupported "an operator"
  | _, _ =>
    match a, b with
    | .value (.text s), .value (.text t) =>
      if operator = ['+'] then return .value (.text (s ++ t)) else mismatch
    | .value (.text s), .letters t =>
      if operator = ['+'] then return .letters (Letter.ofText s ++ t) else mismatch
    | .letters s, .value (.text t) =>
      if operator = ['+'] then return .letters (s ++ Letter.ofText t) else mismatch
    | .letters s, .letters t =>
      if operator = ['+'] then return .letters (s ++ t) else mismatch
    | .value (.list s), .value (.list t) =>
      if operator = ['+'] then return .value (.list (s ++ t)) else mismatch
    | .value (.text _), _ | .letters _, _ =>
      if operator = ['+'] then
        Run.raise (Fault.of "TypeError" ("can only concatenate str (not \"".toList ++
          b.kindName ++ "\") to str".toList))
      else mismatch
    | _, _ => mismatch
where
  mismatch : Run Thing :=
    Run.raise (Fault.of "TypeError" ("unsupported operand type(s) for ".toList ++ operator ++
      ": ".toList ++ Quoted.encode a.kindName ++ " and ".toList ++ Quoted.encode b.kindName))

end Execution

end ServerPages
