import ServerPages.Text.Blank

/-!
# Variable files

A variable file gives values to variables, one to a line.  A value may stand in quotes, single or
double, and then go over several lines; otherwise it ends with the line or before a remark.  A
line that is none of this is left out.  In a value, a name in braces behind a dollar sign stands
for the value of that variable.
-/

namespace ServerPages

namespace VariableFile

/-- White space within a line. -/
def isInlineBlank (c : Char) : Bool := Text.isBlank c && c ≠ '\n'

/-- A text without the white space at its beginning, as far as it lies on one line. -/
def dropInline (s : Text) : Text := s.dropWhile isInlineBlank

/-- What follows the line at the beginning of a text. -/
def afterLine (s : Text) : Text := (s.dropWhile (· ≠ '\n')).drop 1

/-- What follows the end of a line, if nothing but a remark comes before it. -/
def afterEnd? (s : Text) : Option Text :=
  match dropInline s with
  | [] => some []
  | '\n' :: t => some t
  | '#' :: t => some (afterLine t)
  | _ => none

/-- A name and what follows it: it stands in single quotes, or it ends before white space, an
equals sign or a remark. -/
def name? : Text → Option (Text × Text)
  | '\'' :: s =>
    match s.takeWhile (· ≠ '\''), s.dropWhile (· ≠ '\'') with
    | c :: name, _ :: rest => some (c :: name, rest)
    | _, _ => none
  | s =>
    let inName (c : Char) : Bool := !Text.isBlank c && c ≠ '=' && c ≠ '#'
    match s.takeWhile inName with
    | [] => none
    | name => some (name, s.dropWhile inName)

/-- What stands before a closing quote, and what follows it.  An escaped quote closes only if no
other does. -/
def closing (quote : Char) : Text → Option (Text × Text)
  | [] => none
  | [c] => if c = quote then some ([], []) else none
  | c :: d :: s =>
    if c = quote then some ([], d :: s)
    else if c = '\\' ∧ d = quote then
      match closing quote s with
      | some (body, rest) => some (c :: d :: body, rest)
      | none => some ([c], s)
    else (closing quote (d :: s)).map fun (body, rest) => (c :: body, rest)

/-- What an escape in double quotes stands for. -/
def escaped? (c : Char) : Option Char :=
  if c = '\\' ∨ c = '\'' ∨ c = '"' then some c
  else if c = 'a' then some '\x07'
  else if c = 'b' then some '\x08'
  else if c = 'f' then some '\x0c'
  else if c = 'n' then some '\n'
  else if c = 'r' then some '\r'
  else if c = 't' then some '\t'
  else if c = 'v' then some '\x0b'
  else none

/-- What an escape in single quotes stands for. -/
def plainEscaped? (c : Char) : Option Char := if c = '\\' ∨ c = '\'' then some c else none

/-- A text with its escapes replaced. -/
def unescape (escaped? : Char → Option Char) : Text → Text
  | [] => []
  | [c] => [c]
  | c :: d :: s =>
    if c = '\\' then
      match escaped? d with
      | some e => e :: unescape escaped? s
      | none => c :: unescape escaped? (d :: s)
    else c :: unescape escaped? (d :: s)

/-- A text up to white space with a remark behind it. -/
def beforeRemark : Text → Text
  | [] => []
  | c :: s => if Text.isBlank c ∧ s.head? = some '#' then [] else c :: beforeRemark s

/-- A value and what follows it. -/
def value? : Text → Option (Text × Text)
  | '\'' :: s => (closing '\'' s).map fun (body, rest) => (unescape plainEscaped? body, rest)
  | '"' :: s => (closing '"' s).map fun (body, rest) => (unescape escaped? body, rest)
  | s =>
    some (Text.trimRight (beforeRemark (s.takeWhile (· ≠ '\n'))), s.dropWhile (· ≠ '\n'))

/-- A text without the word that marks a variable for other programs. -/
def dropExport (s : Text) : Text :=
  match Text.after? "export".toList s with
  | some t => if t.head?.any isInlineBlank then dropInline t else s
  | none => s

/-- The entry at the beginning of a text, if there is one, and what follows it.  An entry may
have a name alone. -/
def entry (s : Text) : Option (Text × Option Text) × Text :=
  let s := dropExport (Text.trimLeft s)
  match name? s with
  | none => (none, afterLine s)
  | some (name, t) =>
    match dropInline t with
    | '=' :: u =>
      match value? (dropInline u) with
      | none => (none, afterLine u)
      | some (value, rest) =>
        match afterEnd? rest with
        | some next => (some (name, some value), next)
        | none => (none, afterLine rest)
    | u =>
      match afterEnd? u with
      | some next => (some (name, none), next)
      | none => (none, afterLine u)

/-- The first `bound` entries of a text. -/
def entriesUpTo : Nat → Text → List (Text × Option Text)
  | 0, _ => []
  | bound + 1, s =>
    if s.isEmpty then []
    else
      let (first, rest) := entry s
      first.toList ++ entriesUpTo bound rest

/-- The entries of a text. -/
def entries (s : Text) : List (Text × Option Text) := entriesUpTo s.length s

/-! ### References -/

/-- A reference to a variable behind its dollar sign: the name, what it stands for if there is no
such variable, and its length. -/
def reference? : Text → Option (Text × Text × Nat)
  | '\x7b' :: s =>
    let inName (c : Char) : Bool := c ≠ '\x7d' && c ≠ ':'
    let name := s.takeWhile inName
    match s.dropWhile inName with
    | '\x7d' :: _ => some (name, [], name.length + 2)
    | ':' :: '-' :: t =>
      let otherwise := t.takeWhile (· ≠ '\x7d')
      if otherwise.length < t.length then
        some (name, otherwise, name.length + otherwise.length + 4)
      else none
    | _ => none
  | _ => none

/-- A text with its references replaced, `skip` characters of which have been read already. -/
def expand (find : Text → Option Text) (skip : Nat) : Text → Text
  | [] => []
  | c :: s =>
    match skip with
    | n + 1 => expand find n s
    | 0 =>
      if c = '$' then
        match reference? s with
        | some (name, otherwise, n) => (find name).getD otherwise ++ expand find n s
        | none => c :: expand find 0 s
      else c :: expand find 0 s

/-- Variables with their values; a variable may be named without one. -/
abbrev Variables := List (Text × Option Text)

/-- The variables with one of them given a value, in its place if it has been named before. -/
def put (name : Text) (value : Option Text) : Variables → Variables
  | [] => [(name, value)]
  | v :: rest => if v.1 = name then (name, value) :: rest else v :: put name value rest

/-- The value that a name in a text stands for: that of a variable of the file, else that of a
variable of the surroundings. -/
def find (surroundings : List (Text × Text)) (vars : Variables) (name : Text) : Option Text :=
  match vars.lookup name with
  | some value => some (value.getD [])
  | none => surroundings.lookup name

/-- The variables that a text gives values to.  A value may refer to the variables before it and
to those of the surroundings. -/
def read (surroundings : List (Text × Text)) (s : Text) : Variables :=
  (entries s).foldl (fun vars (name, value) =>
    put name (value.map (expand (find surroundings vars) 0)) vars) []

end VariableFile

end ServerPages
