import ServerPages.Command.Help

/-!
# The compiling command

The command reads one page, compiles it, checks what it imports, and writes the module; or it
runs the module once and writes the page.  A page that fails on the way leaves standard output
empty and the output file as it was.
-/

namespace ServerPages

namespace Command

open CommandLine

namespace Compile

/-- The name of the command. -/
def name : Text := "gosp2py".toList

/-- What the command is asked to do. -/
structure Request where
  /-- The page; a hyphen stands for standard input. -/
  page : Text := ['-']
  /-- The file to write; a hyphen stands for standard output. -/
  target : Text := ['-']
  /-- Whether the page is run. -/
  runs : Bool := false
  highlights : Bool := false
  maxTop : Int
  maxIncludeDepth : Int
  /-- The specification of the modules that the page may import. -/
  allowed : Text
  header : Text
  verbosity : Nat := 1
  deriving DecidableEq, Repr

/-- What is asked for when the command line is empty. -/
def Request.ofSettings (s : Settings) : Request :=
  { maxTop := s.maxTop, maxIncludeDepth := s.maxIncludeDepth, allowed := s.allowedImports,
    header := s.httpHeaders }

def helpSwitch : Switch := ⟨["-h".toList, "--help".toList], false⟩
def targetSwitch : Switch := ⟨["-o".toList, "--outfile".toList], true⟩
def runSwitch : Switch := ⟨["-r".toList, "--run".toList], false⟩
def topSwitch : Switch := ⟨["-t".toList, "--max-top".toList], true⟩
def allowedSwitch : Switch := ⟨["-a".toList, "--allowed".toList], true⟩
def headerSwitch : Switch := ⟨["-H".toList, "--http-headers".toList], true⟩
def depthSwitch : Switch := ⟨["--max-include-depth".toList], true⟩
def highlightSwitch : Switch := ⟨["--highlight".toList], false⟩
def verbositySwitch : Switch := ⟨["-v".toList, "--verbosity".toList], false⟩
def versionSwitch : Switch := ⟨["-V".toList, "--version".toList], false⟩

/-- Takes a switch of the command line. -/
def take (help : Text) (r : Request) (s : Switch) (value : Option Text) : Except Stop Request :=
  let value := value.getD []
  if s = helpSwitch then .error (.shown help)
  else if s = versionSwitch then .error (.shown (name ++ ' ' :: version ++ ['\n']))
  else if s = targetSwitch then .ok { r with target := value }
  else if s = runSwitch then .ok { r with runs := true }
  else if s = topSwitch then (takeInteger s value).map fun n => { r with maxTop := n }
  else if s = allowedSwitch then .ok { r with allowed := value }
  else if s = headerSwitch then (takeChoice s value).map fun h => { r with header := h }
  else if s = depthSwitch then
    (takeInteger s value).map fun n => { r with maxIncludeDepth := n }
  else if s = highlightSwitch then .ok { r with highlights := true }
  else .ok { r with verbosity := r.verbosity + 1 }

/-- The command line of the command. -/
def grammar (help : Text) : Grammar Request :=
  { switches := [helpSwitch, targetSwitch, runSwitch, topSwitch, allowedSwitch, headerSwitch,
      depthSwitch, highlightSwitch, verbositySwitch, versionSwitch]
    take := take help
    takeArgument := some fun r page => { r with page } }

/-- The directory that holds what the page includes. -/
def includeDirectory (around : Surroundings) (r : Request) : Except Trouble Text :=
  if r.page = ['-'] then .ok around.cwd.path
  else if around.tree.isFile around.cwd r.page then
    .ok (Path.parent (Path.absolute around.cwd.path r.page))
  else .error (.reported ("Input file not found: ".toList ++ r.page))

/-- The text of the page. -/
def source (s : Session) (r : Request) : Except Trouble Text :=
  let failed (message : Text) : Trouble :=
    .reported ("Error reading input file: ".toList ++ message)
  let bytes : Except Trouble Bytes :=
    if r.page = ['-'] then .ok s.input
    else (s.around.tree.read s.around.cwd r.page).mapError fun e => failed e.message
  bytes.bind fun b =>
    match Utf8.decode b with
    | .ok text => .ok (Text.unifyNewlines text)
    | .error fault => .error (failed fault.message)

/-- The trouble that an error in compiling makes. -/
def compileTrouble : CompileError → Trouble
  | .inclusion (.decoding fault) => .broken (.inclusion (.decoding fault))
  | .inclusion (.path .nullCharacter) => .broken (.inclusion (.path .nullCharacter))
  | .misplaced m => .broken (.misplaced m)
  | e => .reported e.message

/-- The trouble that an error in loading makes. -/
def loadTrouble : LoadError → Trouble
  | .nullCharacter => .broken (.load .nullCharacter)
  | .stopped f => .broken (.load (.stopped f))
  | .unresolved e => .broken (.load (.unresolved e))
  | .decoding fault => .broken (.load (.decoding fault))
  | .file .nullCharacter => .broken (.load (.file .nullCharacter))
  | .compile e => compileTrouble e
  | .imports (.program .nullCharacter) => .broken (.load (.imports (.program .nullCharacter)))
  | e => .reported e.message

/-- The command breaks off where a stage reaches a limit of the interpreter. -/
def withinLimits (s : Session) (stage : Stage) : Except Trouble Unit :=
  match s.limits stage with
  | none => .ok ()
  | some e => .error (.broken (.exhausted e))

/-- The modules that the page may import. -/
def allowList (s : Session) (r : Request) : Except Trouble AllowList := do
  withinLimits s .allowing
  (AllowList.parse r.allowed).mapError fun e => Trouble.reported e.message

/-- What the page is compiled with; what it includes lies in a directory. -/
def settingIn (s : Session) (r : Request) (includeDir : Text) : Inclusion.Setting where
  tree := s.around.tree
  cwd := s.around.cwd
  policy := { maxTop := r.maxTop, includeDir, maxIncludeDepth := r.maxIncludeDepth }
  debug := decide (3 ≤ r.verbosity)

/-- The module that a page is compiled to. -/
def compiled (s : Session) (e : Inclusion.Setting) (page : Text) : Noted Trouble Text :=
  match withinLimits s .compiling with
  | .error t => .of (.error t)
  | .ok () =>
    let c := Page.compile e page
    ⟨c.result.mapError compileTrouble, c.notes⟩

/-- The name of the page in messages. -/
def place (r : Request) : Text := if r.page = ['-'] then "<standard input>".toList else r.page

/-- Checks what a module imports. -/
def checkImports (s : Session) (r : Request) (code : Text) (allowed : AllowList) :
    Except Trouble Unit := do
  withinLimits s .checking
  (Imports.check code allowed (place r)).mapError (loadTrouble ∘ .imports)

/-- The page cannot be run and highlighted at once. -/
def consistent (r : Request) : Except Trouble Unit :=
  if r.runs ∧ r.highlights then
    .error (.reported "--run and --highlight are mutually exclusive".toList)
  else .ok ()

/-- The module of the page, its imports checked. -/
def module (s : Session) (r : Request) : Noted Trouble Text := do
  let includeDir ← .of (includeDirectory s.around r)
  .leave 2 ("Include directory: ".toList ++ includeDir)
  let allowed ← .of (allowList s r)
  .leave 2 ("Allowed imports: ".toList ++ allowed.spec)
  .of (consistent r)
  .of (withinLimits s .reading)
  let page ← .of (source s r)
  .leave 2 ("Read ".toList ++ Decimal.ofNat page.length ++ " characters from ".toList ++ r.page)
  .leave 3 (s.painter.page page)
  let code ← compiled s (settingIn s r includeDir) page
  .leave 2 ("Generated ".toList ++ Decimal.ofNat code.length ++ " characters of Python".toList)
  .of (checkImports s r code allowed)
  return code

/-- The files after content has been written to the target, or the content on standard output. -/
def deliver (s : Session) (r : Request) (content : Bytes) : Except Trouble Outcome :=
  if r.target = ['-'] then .ok { out := content, tree := s.around.tree }
  else
    match Guarded.openRaw s.around.tree s.around.cwd r.target .write with
    | .error e => .error (.broken (.file e))
    | .ok (tree, loc) => .ok { tree := tree.put loc (.file content) }

/-- Does what is asked for. -/
def perform (s : Session) (r : Request) : Noted Trouble Outcome := do
  let code ← module s r
  if r.runs then
    let page ← .of ((Page.ofText r.page code).mapError loadTrouble)
    let d : Dispatcher :=
      { page, format := headerForm r.header, capacity := s.settings.metadataCapacity.toNat,
        changeDirectory := s.settings.changeDirectory }
    let response := Service.serveOnce d s.around
    match response.broken with
    | some f => .of (throw (.broken (.encoding f)))
    | none => ⟨deliver s r response.content, response.notes⟩
  else
    let o ← .of (deliver s r (Utf8.encode (if r.highlights then s.painter.code code else code)))
    if r.target ≠ ['-'] then .leave 2 ("Wrote ".toList ++ r.target)
    return o

/-- What a command line asks for. -/
def request (s : Settings) (line : List Text) : Except Stop Request :=
  parse (grammar (Help.compile s)) (Request.ofSettings s) (fun _ => .ok ()) line

/-- Whether a command line asks for a page from standard input. -/
def readsInput (s : Settings) (line : List Text) : Bool :=
  match request s line with
  | .ok r => r.page = ['-']
  | .error _ => false

/-- Runs the command. -/
def run (s : Session) (line : List Text) : Noted Breakdown Outcome :=
  carryOut name s.around.tree (request s.settings line) (·.verbosity) (perform s)

end Compile

end Command

end ServerPages
