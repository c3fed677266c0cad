import ServerPages.Execution.Library

/-!
# Running the code of pages

Pages are run with a part of their language: constants, names, attributes, calls, sums, choices,
loops over things, imports, functions, and faults that are raised and handled.  Anything else
ends the run.  Runs nest to a limited depth.
-/

namespace ServerPages

namespace Execution

open Code

/-- How a statement ends. -/
inductive Flow where
  | next
  | broken
  | continued
  | returned (t : Thing)

/-- Runs statements until one of them does not go on to the next. -/
def inTurn (run : Tree → Run Flow) : List Tree → Run Flow
  | [] => return .next
  | t :: ts => do
    match ← run t with
    | .next => inTurn run ts
    | flow => return flow

/-- Goes through things until one of them ends the loop. -/
def throughout (body : Thing → Run Flow) : List Thing → Run Flow
  | [] => return .next
  | t :: ts => do
    match ← body t with
    | .next | .continued => throughout body ts
    | flow => return flow

/-- A constant as a thing. -/
def constant : Constant → Run Thing
  | .none => return .value .none
  | .bool b => return .value (.bool b)
  | .int n => return .value (.int n)
  | .text s => return .value (.text s)
  | .letters s => return .letters s
  | .other => Run.unsupported "such a constant"

/-- Gives a thing to a target. -/
def assign (t : Thing) : Tree → Run Unit
  | .node (.name id) _ _ => Run.bind id t
  | _ => Run.unsupported "such a target"

/-- The arguments of a call. -/
def arguments (evaluate : Tree → Run Thing) : List Tree → Run Arguments
  | [] => return {}
  | .node (.keyword name) _ values :: ts => do
    match name, values with
    | some name, [value] =>
      let t ← evaluate value
      let rest ← arguments evaluate ts
      return { rest with named := (name, t) :: rest.named }
    | _, _ => Run.unsupported "an unpacked argument"
  | t :: ts => do
    let first ← evaluate t
    let rest ← arguments evaluate ts
    return { rest with placed := first :: rest.placed }

/-- The values of the last parameters of a function. -/
def defaults (evaluate : Tree → Run Thing) (parameters : Tree) : Run (List Thing) :=
  (parameters.parts.filter fun t => match t.shape with
    | .parameter _ => false
    | _ => true).mapM evaluate

/-- The names of the parameters of a function. -/
def parameterNames (parameters : Tree) : List Text :=
  match parameters.shape with
  | .arguments names => names
  | _ => []

/-- Imports a module by name. -/
def importModule (name : Text) : Run Unit :=
  let outer := Tree.importedAs name
  Run.bind outer (if outer = "gosp".toList then .library else .module outer)

/-- The fault that raising a thing ends a run with. -/
def raisedFault : Thing → Fault
  | .fault f => f
  | .kind k => Fault.raisedAs k []
  | _ => Fault.of "TypeError" "exceptions must derive from BaseException".toList

/-- The fault of a kind that is given a string which is no text. -/
def faultOfLetters (kind : Text) (s : List Letter) : Run Fault := do
  -- what the kind makes of any text it makes of the string
  let f ← Run.ofExcept (Fault.ofName kind [.text (Letter.shown s)])
  if f.text = some (Letter.ofText (Letter.shown s)) then
    if Fault.plainLibraryKinds.contains kind then return Fault.ofLibrary kind s
    else return Fault.saying f.kind s
  else Run.unsupported "such a fault"

/-- Whether a kind of fault covers a fault. -/
def covers (kind : Text) (f : Fault) : Bool :=
  kind = f.kind || kind = "BaseException".toList ||
    (kind = "Exception".toList && f.isOrdinary) ||
    (["OSError", "IOError", "EnvironmentError"].any (kind = ·.toList) &&
      Fault.systemKinds.contains f.kind) ||
    (["ValueError", "UnicodeError"].any (kind = ·.toList) && Fault.codecKinds.contains f.kind)

/-- The fault of code that nests too deeply. -/
def tooDeep : Fault := Fault.of "RecursionError" "maximum recursion depth exceeded".toList

/-- Finds the handler of a fault and runs it; without one the fault goes on. -/
def handle (evaluate : Tree → Run Thing) (run : List Tree → Run Flow) (f : Fault) :
    List Tree → Run Flow
  | [] => Run.raise f
  | .node (.handler id typed) _ parts :: rest => do
    let (covered, body) ← (do
      match typed, parts with
      | true, type :: body =>
        match ← evaluate type with
        | .kind k => return (covers k f, body)
        | _ => return (false, body)
      | _, body => return (true, body) : Run (Bool × List Tree))
    if covered then
      match id with
      | none => run body
      | some name =>
        Run.bind name (.fault f)
        let result ← (run body).outcome
        modify fun w =>
          { w with scope := { w.scope with bound := w.scope.bound.filter (·.1 ≠ name) } }
        Run.ofExcept result
    else handle evaluate run f rest
  | _ :: rest => handle evaluate run f rest

/-- Runs a block with its handlers, what follows when all goes well, and what follows in any
case. -/
def guarded (body orelse final : Run Flow) (handler : Fault → Run Flow) : Run Flow := do
  let first ← body.outcome
  let result ← (match first with
    | .error f => handler f
    | .ok .next => orelse
    | .ok flow => return flow).outcome
  match ← final with
  | .next => Run.ofExcept result
  | flow => return flow

mutual

/-- The thing that an expression stands for, runs nested at most `depth` deep. -/
def evaluate : Nat → Tree → Run Thing
  | 0, _ => Run.raise tooDeep
  | depth + 1, .node shape _ parts =>
    match shape, parts with
    | .name id, _ => Run.find id
    | .constant c, _ => constant c
    | .attribute name, [t] => do (← evaluate depth t).member name
    | .call, f :: args => do
      let f ← evaluate depth f
      let args ← arguments (evaluate depth) args
      call depth f args
    | .binary op, [a, b] => do
      let a ← evaluate depth a
      let b ← evaluate depth b
      operate op a b
    | .unary op, [a] => do
      let a ← evaluate depth a
      if op = "not".toList then return .value (.bool !a.isTrue)
      else
        match summand? a with
        | some n => if op = ['-'] then return .value (.int (-n)) else return .value (.int n)
        | none => Run.unsupported "such an operation"
    | .list, ts => do
      let values ← ts.mapM fun t => do (← evaluate depth t).toValue
      return .value (.list values)
    | .conditional, [test, a, b] => do
      if (← evaluate depth test).isTrue then evaluate depth a else evaluate depth b
    | _, _ => Run.unsupported "such an expression"

/-- Calls a thing. -/
def call : Nat → Thing → Arguments → Run Thing
  | 0, _, _ => Run.raise tooDeep
  | depth + 1, f, args =>
    match f with
    | .function name parameters defaults body around => do
      let bound ← Run.ofExcept (args.assign name parameters defaults)
      let scope : Scope :=
        { function := name, own := some (parameters ++ Tree.boundNamesAll body), bound, around,
          globals := (← get).scope.moduleBindings }
      match ← Run.within scope (inTurn (run depth) body) with
      | .returned t => return t
      | _ => return .value .none
    | .service name => do
      callService name args
      return .value .none
    | .closing => do
      Run.act Act.close
      return .value .none
    | .kind k => do
      match ← args.placed.mapM Thing.spoken with
      | [.letters s] => return .fault (← faultOfLetters k s)
      | things =>
        let values ← things.mapM Thing.toValue
        return .fault (← Run.ofExcept (Fault.ofName k values))
    | .counting => makeRange args.placed
    | t => Run.raise (Fault.of "TypeError" (Quoted.encode t.kindName ++
        " object is not callable".toList))

/-- Runs a statement. -/
def run : Nat → Tree → Run Flow
  | 0, _ => Run.raise tooDeep
  | depth + 1, .node shape _ parts =>
    match shape, parts with
    | .expression, [t] => do
      let _ ← evaluate depth t
      return .next
    | .pass, _ => return .next
    | .assignment, ts => do
      let value ← evaluate depth (ts.getLastD default)
      ts.dropLast.forM (assign value)
      return .next
    | .augmented op, [target, t] => do
      let old ← evaluate depth target
      let operand ← evaluate depth t
      assign (← operate op.dropLast old operand) target
      return .next
    | .importModules names, _ => do
      names.forM importModule
      return .next
    | .importFrom _ module names, _ => do
      if module = some "gosp".toList then
        names.forM fun name => do Run.bind name (← Thing.library.member name)
        return .next
      else Run.unsupported "such an import"
    | .function name body, parameters :: rest => do
      if body < rest.length then Run.unsupported "such a function"
      else
        let values ← defaults (evaluate depth) parameters
        let scope := (← get).scope
        Run.bind name (.function (scope.fullName name) (parameterNames parameters) values rest
          scope.captured)
        return .next
    | .returned, [] => return .returned (.value .none)
    | .returned, [t] => return .returned (← evaluate depth t)
    | .breakLoop, _ => return .broken
    | .continueLoop, _ => return .continued
    | .raised, [t] => do Run.raise (raisedFault (← evaluate depth t))
    | .choice body, test :: rest => do
      if (← evaluate depth test).isTrue then inTurn (run depth) (rest.take body)
      else inTurn (run depth) (rest.drop body)
    | .forLoop body, target :: source :: rest => do
      let things ← (← evaluate depth source).items
      let once (t : Thing) : Run Flow := do
        assign t target
        inTurn (run depth) (rest.take body)
      match ← throughout once things with
      | .broken => return .next
      | .returned t => return .returned t
      | _ => inTurn (run depth) (rest.drop body)
    | .tryBlock body handlers orelse, ts =>
      let after := ts.drop body
      guarded (inTurn (run depth) (ts.take body))
        (inTurn (run depth) ((after.drop handlers).take orelse))
        (inTurn (run depth) ((after.drop handlers).drop orelse))
        fun f => handle (evaluate depth) (inTurn (run depth)) f (after.take handlers)
    | _, _ => Run.unsupported "such a statement"

end

end Execution

end ServerPages
