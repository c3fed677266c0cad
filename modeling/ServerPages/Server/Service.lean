import ServerPages.Server.Connection

/-!
# The page server

A server listens on a socket file and answers one connection after the other until it is asked
to exit, or until it has been idle for too long.  Requests can also be answered without a socket:
one from a file, or a single run of the page without a request.
-/

namespace ServerPages

namespace Service

/-- Why a server cannot listen. -/
inductive BindError where
  | path (e : PathError)
  /-- The socket's path does not fit into an address. -/
  | tooLong
  deriving DecidableEq, Repr

/-- The error in words. -/
def BindError.message : BindError → Text
  | .path e => e.message
  | .tooLong => "AF_UNIX path too long".toList

/-- The longest path of a socket, in bytes. -/
def socketPathLimit : Nat := 107

/-- The files after a server has taken the place of a socket file: what stood there is removed,
unless it is a directory. -/
def bind (around : Surroundings) (socket : Text) : Except BindError FileTree :=
  match around.tree.reach around.cwd false socket with
  | .ok (.entry _ .directory) => .error (.path (.refused .isDirectory socket))
  | .ok (.entry loc _) =>
    if socketPathLimit < (Utf8.encode socket).length then .error .tooLong
    else .ok (around.tree.erase loc)
  | .error e =>
    if e = .notFound then .error (.path (.refused .notFound socket))
    else .error (.path (.refused e socket))
  | .ok (.vacant _ _) =>
    if socketPathLimit < (Utf8.encode socket).length then .error .tooLong else .ok around.tree

/-- A server at work. -/
structure State where
  around : Surroundings
  /-- Whether it still accepts connections. -/
  running : Bool := true
  notes : List Note := []

/-- What a client sees: the bytes sent to it, or nothing if no server accepts it. -/
abbrev Sight := Option Bytes

/-- Serves one client. -/
def serveClient (d : Dispatcher) (pid : Text) (st : State) (chunks : List Connection.Chunk) :
    State × Sight :=
  if st.running then
    let o := Connection.handle d pid st.around true chunks
    ({ around := { st.around with cwd := o.cwd }, running := !o.exit,
       notes := st.notes ++ o.notes }, some o.answer)
  else (st, none)

/-- Serves clients in turn. -/
def serveClients (d : Dispatcher) (pid : Text) (st : State) :
    List (List Connection.Chunk) → State × List Sight
  | [] => (st, [])
  | chunks :: rest =>
    let (st, sight) := serveClient d pid st chunks
    let (st, sights) := serveClients d pid st rest
    (st, sight :: sights)

/-- Why a single request is not answered. -/
inductive SingleError where
  | file (e : PathError)
  | message (f : Message.Failure)
  | dispatch (e : DispatchError)

/-- Answers the request stored in a file. -/
def serveFile (d : Dispatcher) (pid : Text) (around : Surroundings) (file : Text) :
    Except SingleError Response :=
  match around.tree.read around.cwd (Path.tidy file) with
  | .error e => .error (.file e)
  | .ok bytes =>
    match Message.decode bytes with
    | .error f => .error (.message f)
    | .ok e =>
      if e.exitNow ∨ e.getPid then
        .ok { status := Letter.ofText Event.statusOk, content := Connection.processAnswer pid }
      else
        match d.dispatch around (some e.request) with
        | .ok (response, _) => .ok response
        | .error err => .error (.dispatch err)

/-- Runs the page once without a request. -/
def serveOnce (d : Dispatcher) (around : Surroundings) : Response :=
  let p := Performance.ofAct (d.page around none)
  Dispatcher.response d.format none p

end Service

end ServerPages
