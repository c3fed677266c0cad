import ServerPages.Command.Serve

/-!
# The commands at a terminal

The first word of the command line names the command.  Its files are read beforehand: those that
words of the command line name, the variable file, and what the pages among them include.  What
the command has written is written back.
-/

namespace ServerPages

namespace Command

/-- The result of an action; none if it fails. -/
def attempt {α : Type} (x : IO α) : IO (Option α) := do
  try return some (← x)
  catch _ => return none

/-- The location of an absolute path. -/
def locationOf (path : Text) : Location := (Path.names path).filter (· ≠ [])

/-- A tree with an entry, and with the directories above it. -/
def plant (t : FileTree) (loc : Location) (e : Entry) : FileTree :=
  let above := (List.range loc.length).map loc.take
  (above.foldl (fun t l => if (t.get? l).isSome then t else t.put l .directory) t).put loc e

/-- A tree with the file or directory at a path, and the file's content; what the path reaches
through links is put at the end of a link. -/
def readFile (t : FileTree) (path : Text) : IO (FileTree × Option Bytes) := do
  match ← attempt (IO.FS.realPath (String.ofList path)) with
  | none => return (t, none)
  | some real =>
    let real := real.toString.toList
    let loc := locationOf real
    let t := if real = path then t else plant t (locationOf path) (.link real)
    match ← attempt (IO.FS.readBinFile (String.ofList real)) with
    | some content =>
      return (plant t loc (.file content.toList), some content.toList)
    | none => return (if (t.get? loc).isSome then t else plant t loc .directory, none)

/-- A tree with what a page in a directory includes, nested at most `bound` deep. -/
def readIncluded (dir : Text) : Nat → FileTree → Bytes → IO FileTree
  | 0, t, _ => return t
  | bound + 1, t, content => do
    match Utf8.decode content with
    | .error _ => return t
    | .ok source =>
      (Inclusion.pieces (Text.unifyNewlines source)).foldlM (fun t piece => do
        match piece with
        | .literal _ => return t
        | .inclusion target =>
          let path := Path.absolute dir target
          let (t, content) ← readFile t path
          match content with
          | some content => readIncluded (Path.parent path) bound t content
          | none => return t) t

/-- A tree with the file that a word of a command line names, and with what that needs. -/
def readNamed (cwd : Text) (bound : Nat) (t : FileTree) (word : Text) : IO FileTree := do
  let path := Path.absolute cwd word
  let (t, content) ← readFile t path
  match content with
  | none => return t
  | some content =>
    let t ← readIncluded (Path.parent path) bound t content
    match (Message.decode content).toOption.bind (·.request.baseDir? cwd) with
    | some dir => return (← readFile t dir).1
    | none => return t

/-- The variables that settings are taken from. -/
def readVariables : IO (List (Text × Text)) := do
  let names := ["MAX_TOP", "MAX_INCLUDE_DEPTH", "ALLOWED_IMPORTS", "MAX_IDLE", "HTTP_HEADERS",
    "REQUEST_TIMEOUT", "METADATA_CAPACITY", "CHANGE_DIRECTORY", "POLL_INTERVAL"]
  let found ← names.mapM fun n => do
    let name := "GOSP_" ++ n
    return (← IO.getEnv name).map fun value => (name.toList, value.toList)
  return found.filterMap id

/-- Writes the files that a command has changed. -/
def writeChanged (before after : FileTree) : IO Unit :=
  after.entries.forM fun (loc, e) => do
    match e with
    | .file content =>
      if before.get? loc ≠ some e then
        IO.FS.writeBinFile (String.ofList loc.path) ⟨content.toArray⟩
    | _ => return ()

/-- Writes what a command has written; gives its exit status. -/
def settle (before : FileTree) (ended : Noted Breakdown Outcome) : IO UInt32 := do
  for n in ended.notes do
    (← IO.getStderr).putStrLn (String.ofList (n.levelName ++ " ║ ".toList ++ n.text))
  match ended.result with
  | .error b =>
    (← IO.getStderr).putStrLn (String.ofList b.text)
    return 1
  | .ok o =>
    writeChanged before o.tree
    let stdout ← IO.getStdout
    stdout.write ⟨o.out.toArray⟩
    stdout.flush
    (← IO.getStderr).putStr (String.ofList o.err)
    return UInt32.ofNat o.exit

/-- The process number: the system keeps a link to the directory of each process. -/
def readPid : IO Text := do
  match ← attempt (IO.FS.realPath "/proc/self") with
  | some path => return Path.lastName path.toString.toList
  | none => return []

/-- Runs the command that the first word names; without such a word a page is compiled. -/
def start (words : List Text) : IO UInt32 := do
  let (name, line) := match words with
    | first :: rest =>
      if first = Serve.name ∨ first = Compile.name then (first, rest) else (Compile.name, words)
    | [] => (Compile.name, [])
  let cwd := (← IO.currentDir).toString.toList
  let environment ← readVariables
  let (tree, _) ← readFile {} cwd
  let (tree, _) ← readFile tree (Path.absolute cwd Settings.fileName)
  match Settings.load tree (locationOf cwd) environment with
  | .error _ =>
    (← IO.getStderr).putStrLn "The settings are not valid."
    return 1
  | .ok settings =>
    let named := line.flatMap fun w => w :: (Text.cut '=' w).2.toList
    let tree ← named.foldlM (readNamed cwd (settings.maxIncludeDepth.toNat + 1)) tree
    let session : Session :=
      { around := ⟨tree, locationOf cwd⟩, settings, pid := ← readPid }
    if name = Serve.name then settle tree (Serve.run session line)
    else
      let input ←
        if Compile.readsInput settings line then (← IO.getStdin).readBinToEnd else pure ⟨#[]⟩
      settle tree (Compile.run { session with input := input.toList } line)

end Command

end ServerPages

/-- Runs a command. -/
def main (args : List String) : IO UInt32 :=
  ServerPages.Command.start (args.map String.toList)
