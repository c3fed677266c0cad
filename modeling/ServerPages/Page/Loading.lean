import ServerPages.Execution.Module
import ServerPages.Imports.Check
import ServerPages.Module.Assembly
import ServerPages.Path.Resolved

/-!
# Loading pages

A page is loaded from a file: its source is compiled on the spot, or a module that was compiled
before is run.  The extension of the file's name decides which.  Whatever prevents a page from
being loaded has a cause and a message that names the file.
-/

namespace ServerPages

/-- A way to load a page. -/
inductive Loader where
  /-- From the source of a page, under a policy and an allow list. -/
  | source (path : Text) (policy : Policy) (allowed : AllowList)
  /-- From a module that was compiled before. -/
  | module (path : Text)
  deriving DecidableEq, Repr

/-- Why a page is not loaded. -/
inductive LoadError where
  | notCompiling (origin : Text)
  /-- The code at the top of the page fails. -/
  | topFailing (origin : Text) (f : Fault)
  | noEntry (origin : Text)
  | noFunction (origin kind : Text)
  /-- The file's name is not that of a module. -/
  | noModule (path : Text)
  | moduleFailing (path reason : Text)
  /-- A value is given in the place of a page. -/
  | notCallable (v : Value)
  /-- The code of the page holds a null character. -/
  | nullCharacter
  /-- A fault that ends the program as a whole. -/
  | stopped (f : Fault)
  | unresolved (e : ResolveError)
  | file (e : PathError)
  | decoding (fault : Utf8.Fault)
  | compile (e : CompileError)
  | imports (e : Imports.CheckError)

namespace LoadError

/-- The message about a null character in code. -/
def nullMessage : Text := "source code string cannot contain null bytes".toList

/-- The error in words. -/
def message : LoadError → Text
  | .notCompiling origin => "Generated code for ".toList ++ origin ++ " does not compile".toList
  | .topFailing origin f => "Top-level code of ".toList ++ origin ++ " failed: ".toList ++ f.words
  | .noEntry origin =>
    origin ++ " does not define ".toList ++ Module.entryPoint ++ "()".toList
  | .noFunction origin kind =>
    Module.entryPoint ++ " in ".toList ++ origin ++ " is a ".toList ++ kind ++
      ", not a function".toList
  | .noModule path => "Cannot load ".toList ++ path ++ " as a Python module".toList
  | .moduleFailing path reason => "Failed to load ".toList ++ path ++ ": ".toList ++ reason
  | .notCallable v => v.quoted ++ " is not callable".toList
  | .nullCharacter => nullMessage
  | .stopped f => f.words
  | .unresolved e => e.message
  | .file e => e.message
  | .decoding fault => fault.message
  | .compile e => e.message
  | .imports e =>
    match e with
    | .program .nullCharacter => nullMessage
    | .program _ => "invalid syntax".toList
    | .rejected name allowed place => Imports.rejection name allowed place

/-- The error of a page whose module has a defect. -/
def ofDefect (origin : Text) : Module.Defect → LoadError
  | .nullCharacter => .nullCharacter
  | .notCompiling => .notCompiling origin
  | .failing f =>
    -- a fault that cannot be put in words ends the report of it
    if !f.isOrdinary then .stopped f
    else if f.text.isNone then .stopped Fault.wordless
    else .topFailing origin f
  | .noEntry => .noEntry origin
  | .noFunction kind => .noFunction origin kind

/-- The error of a module file that has a defect. -/
def ofModuleDefect (path : Text) : Module.Defect → LoadError
  | .nullCharacter => .moduleFailing path nullMessage
  | .notCompiling => .moduleFailing path "invalid syntax".toList
  | .failing f =>
    if !f.isOrdinary then .stopped f
    else if f.text.isNone then .stopped Fault.wordless
    else .moduleFailing path f.words
  | .noEntry => .noEntry path
  | .noFunction kind => .noFunction path kind

end LoadError

/-- The page of a module's text that was made from a page at `origin`. -/
def Page.ofText (origin text : Text) : Except LoadError Generator :=
  (Module.load text).mapError (LoadError.ofDefect origin)

/-- The page of a module file. -/
def Page.ofModuleFile (around : Surroundings) (path : Text) : Noted LoadError Generator := do
  let shown := Path.tidy path
  let loc ← .of ((around.tree.resolved around.cwd path).mapError .unresolved)
  if !Text.endsWith ".py".toList loc.path then .of (throw (.noModule shown))
  let bytes ← .of ((around.tree.read around.cwd loc.path).mapError fun e =>
    LoadError.moduleFailing shown e.message)
  let text ← .of ((Utf8.decode bytes).mapError fun fault => .moduleFailing shown fault.message)
  let page := (Module.load text).mapError (LoadError.ofModuleDefect shown)
  -- a module without an entry point has been run, too
  match page with
  | .ok _ | .error (.noEntry _) | .error (.noFunction _ _) =>
    .leave 2 ("Loaded page module ".toList ++ loc.path)
  | .error _ => pure ()
  .of page

/-- The page of a source file. -/
def Page.ofSourceFile (around : Surroundings) (policy : Policy) (allowed : AllowList)
    (path : Text) : Noted LoadError Generator := do
  let shown := Path.tidy path
  let source ← .of ((Inclusion.readText around.tree around.cwd path).mapError fun
    | .path e => .file e
    | .decoding fault => .decoding fault
    | e => .compile (.inclusion e))
  let setting : Inclusion.Setting := { tree := around.tree, cwd := around.cwd, policy }
  let compiled := Page.compile setting source
  let text ← ⟨compiled.result.mapError .compile, compiled.notes⟩
  .of ((Imports.check text allowed shown).mapError .imports)
  .of (Page.ofText shown text)

namespace Loader

/-- Whether a path names the source of a page. -/
def isSource (path : Text) : Bool := Path.extension path = ".gosp".toList

/-- The way to load the page at a path.  Without a policy of its own, what the page includes lies
in its directory. -/
def ofPath (around : Surroundings) (policy : Option Policy) (allowed : AllowList) (path : Text) :
    Except ResolveError Loader :=
  if isSource path then
    match policy with
    | some policy => .ok (.source path policy allowed)
    | none =>
      (around.tree.resolved around.cwd path).map fun loc =>
        .source path { includeDir := loc.up.path } allowed
  else .ok (.module path)

/-- Loads a page. -/
def load (around : Surroundings) : Loader → Noted LoadError Generator
  | .source path policy allowed => Page.ofSourceFile around policy allowed path
  | .module path => Page.ofModuleFile around path

end Loader

end ServerPages
