import ServerPages.Command.Session

/-!
# Help

The help of a command shows how it is used and what each of its switches is for.  Explanations
stand in a column of their own and are filled line by line.
-/

namespace ServerPages

namespace Command

namespace Help

/-- The width of a line. -/
def width : Nat := 78

/-- The column at which explanations begin. -/
def explanationColumn : Nat := 24

/-- Words put into lines of at most `width` characters, `line` being the last line so far. -/
def fill (width : Nat) (line : Text) : List Text → List Text
  | [] => [line]
  | w :: ws =>
    if line.isEmpty then fill width w ws
    else if line.length + 1 + w.length ≤ width then fill width (line ++ ' ' :: w) ws
    else line :: fill width w ws

/-- The words of a text. -/
def wordsOf (s : Text) : List Text := (Text.splitOn ' ' s).filter (· ≠ [])

/-- A switch or an argument as help shows it, and what it is for. -/
structure Entry where
  heading : String
  explanation : Text

/-- An entry with the value that holds without it. -/
def Entry.withDefault (heading explanation : String) (default : Text) : Entry :=
  ⟨heading, explanation.toList ++ " (default: ".toList ++ default ++ [')']⟩

/-- A line with spaces before it. -/
def indented (n : Nat) (s : Text) : Text := List.replicate n ' ' ++ s ++ ['\n']

/-- An entry in lines: the explanation begins beside the heading if there is room. -/
def Entry.text (e : Entry) : Text :=
  let heading := e.heading.toList
  let lines := fill (width - explanationColumn) [] (wordsOf e.explanation)
  let column := lines.map (indented explanationColumn)
  let room := explanationColumn - 4
  if heading.length ≤ room then
    let first := "  ".toList ++ heading ++ List.replicate (room - heading.length) ' ' ++ "  ".toList
    match lines with
    | l :: _ => first ++ l ++ '\n' :: (column.drop 1).flatten
    | [] => first ++ ['\n']
  else indented 2 heading ++ column.flatten

/-- The entry of help itself. -/
def helpEntry : Entry := ⟨"-h, --help", "show this help message and exit".toList⟩

/-- The entry of the version. -/
def versionEntry : Entry := ⟨"-V, --version", "show program's version number and exit".toList⟩

/-- The entry of the verbosity. -/
def verbosityEntry : Entry :=
  .withDefault "-v, --verbosity" "Increase output verbosity (can be repeated: -v, -vv)" ['1']

/-- The choices of a header's form. -/
def headerForms : String := "\x7bmod_gosp,none,raw,structured\x7d"

/-- The entry of the header's form. -/
def headerEntry (explanation : String) (s : Settings) : Entry :=
  .withDefault ("-H " ++ headerForms ++ ", --http-headers " ++ headerForms) explanation
    s.httpHeaders

/-- Lines with their newlines. -/
def ofLines (lines : List String) : Text := lines.flatMap fun line => line.toList ++ ['\n']

/-- The help of the compiling command. -/
def compile (s : Settings) : Text :=
  ofLines [
    "usage: gosp2py [-h] [-o OUTFILE] [-r] [-t MAXTOP] [-a ALLOWED]",
    "               [-H \x7bmod_gosp,none,raw,structured\x7d]",
    "               [--max-include-depth MAXINCLUDEDEPTH] [--highlight] [-v] [-V]",
    "               [inputFile]",
    "",
    "gosp2py - compile a Go Server Page to Python",
    "",
    "positional arguments:"] ++
  (Entry.withDefault "inputFile" "Go Server Page to compile (\"-\" = standard input)" ['-']).text ++
  ofLines ["", "options:"] ++
  [helpEntry,
   .withDefault "-o OUTFILE, --outfile OUTFILE" "Output file (\"-\" = standard output)" ['-'],
   .withDefault "-r, --run" "Execute the generated code and output the page instead"
     "False".toList,
   .withDefault "-t MAXTOP, --max-top MAXTOP"
     "Allow at most this many <?go:top ... ?> blocks per page" (Decimal.ofInt s.maxTop),
   .withDefault "-a ALLOWED, --allowed ALLOWED"
     "Comma-separated list of allowed imports; \"ALL\" allows all, \"NONE\" allows none"
     s.allowedImports,
   headerEntry "HTTP header format used by --run" s,
   .withDefault "--max-include-depth MAXINCLUDEDEPTH"
     "Deepest allowed nesting of <?go:include ... ?>" (Decimal.ofInt s.maxIncludeDepth),
   .withDefault "--highlight" "Colorize the generated code for a terminal" "False".toList,
   verbosityEntry,
   versionEntry].flatMap Entry.text

/-- The help of the serving command. -/
def serve (s : Settings) : Text :=
  ofLines [
    "usage: gosp-server [-h] --plugin PLUGIN [--socket SOCKET | --file FILE]",
    "                   [--max-idle MAXIDLE] [-H \x7bmod_gosp,none,raw,structured\x7d]",
    "                   [-v] [-V]",
    "",
    "gosp-server - serve a Go Server Page over a Unix-domain socket",
    "",
    "options:"] ++
  [helpEntry,
   .withDefault "--plugin PLUGIN" "Page to serve (a generated .py module or a .gosp page)"
     "None".toList,
   .withDefault "--socket SOCKET" "Unix-domain socket on which to listen" [],
   .withDefault "--file FILE" "Answer the single JSON service request in this file" [],
   .withDefault "--max-idle MAXIDLE"
     "Exit after this many seconds without a connection (0 = never)" s.maxIdle.text,
   headerEntry "HTTP header format" s,
   verbosityEntry,
   versionEntry].flatMap Entry.text

end Help

end Command

end ServerPages
