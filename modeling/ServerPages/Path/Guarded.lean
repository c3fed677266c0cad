import ServerPages.Path.Canonical
import ServerPages.Text.Charset

/-!
# Guarded files

A page opens files through a guard: a name is opened only if it lies in or below a base
directory by canonical form.  The guard looks at the canonical path; the file system then walks
the path as it is spelled.
-/

namespace ServerPages

/-- A path lies outside the directory it must stay in. -/
structure Outside where
  path : Text
  base : Text
  deriving DecidableEq, Repr

/-- The violation in words. -/
def Outside.message (o : Outside) : Text := o.path ++ " lies outside of ".toList ++ o.base

/-- Why a guarded file cannot be used. -/
inductive GuardError where
  | outside (o : Outside)
  | path (e : PathError)
  /-- The mode or another argument makes no sense. -/
  | argument (message : Text)
  /-- The character set is unknown. -/
  | lookup (message : Text)
  /-- The file is open for the other direction only. -/
  | unsupported (message : Text)
  | decoding (message : Text)
  | encoding (message : Text)
  /-- What is to be done with wrong bytes does not apply to them. -/
  | unsuited (message : Text)
  deriving DecidableEq, Repr

/-- The error of reading or writing text, where characters at fault give the error `refused`. -/
def CharsetError.guardError (refused : Text → GuardError) : CharsetError → GuardError
  | .refused m => refused m
  | .unsuited =>
    .unsuited "don't know how to handle UnicodeDecodeError in error callback".toList
  | .unknownTreatment name =>
    .lookup ("unknown error handler name '".toList ++ Utf8.clip 400 name ++ ['\''])

/-- Checks that the path `path`, asked for as `name`, lies within `base`. -/
def FileTree.guard (t : FileTree) (cwd : Location) (path name base : Text) :
    Except GuardError Unit :=
  match t.isWithin cwd path base with
  | .error e => .error (.path e)
  | .ok false => .error (.outside ⟨name, base⟩)
  | .ok true => .ok ()

namespace Guarded

/-- What a file is opened for. -/
inductive Purpose where
  | read
  | write
  /-- Writing to a file that must not exist yet. -/
  | create
  | append
  deriving DecidableEq, Repr

/-- How a file is opened. -/
structure Mode where
  /-- Nothing, if the mode says nothing of it. -/
  purpose : Option Purpose
  /-- For reading and writing at once. -/
  update : Bool
  binary : Bool
  deriving DecidableEq, Repr

/-- Whether the mode lets one read. -/
def Mode.canRead (m : Mode) : Bool := m.purpose = some .read || m.update

/-- Whether the mode lets one write. -/
def Mode.canWrite (m : Mode) : Bool := m.purpose ≠ some .read || m.update

/-- The mode that a text spells. -/
def Mode.parse (s : Text) : Except Text Mode :=
  if s.any (· ∉ "xrwa+tb".toList) || !decide s.Nodup then
    .error ("invalid mode: '".toList ++ s ++ ['\''])
  else if 't' ∈ s ∧ 'b' ∈ s then .error "can't have text and binary mode at once".toList
  else
    let purposes := s.filterMap fun c =>
      if c = 'r' then some Purpose.read
      else if c = 'w' then some .write
      else if c = 'x' then some .create
      else if c = 'a' then some .append
      else none
    if 1 < purposes.length then
      .error "must have exactly one of create/read/write/append mode".toList
    else .ok ⟨purposes.head?, '+' ∈ s, 'b' ∈ s⟩

/-- The further arguments of an opening. -/
structure Options where
  encoding : Option Text := none
  outsiders : Option Text := none
  newline : Option Text := none

/-- A file that has been opened; `tree` is the file tree after the opening. -/
structure Opened where
  tree : FileTree
  loc : Location
  mode : Mode
  charset : Charset
  outsiders : Outsiders
  lineEnd : LineEnd

/-- The file tree and the location after the file system has opened a path for a purpose. -/
def openRaw (t : FileTree) (cwd : Location) (path : Text) (purpose : Purpose) :
    Except PathError (FileTree × Location) :=
  let refuse (e : FileError) : Except PathError (FileTree × Location) :=
    .error (.refused e path)
  if '\x00' ∈ path then .error .nullCharacter
  else match t.reach cwd (purpose ≠ .create) path with
    | .error e => refuse e
    | .ok (.vacant loc closed) =>
      if purpose = .read then refuse .notFound
      else if closed then refuse .isDirectory
      else .ok (t.put loc (.file []), loc)
    | .ok (.entry loc (.file _)) =>
      match purpose with
      | .create => refuse .exists
      | .write => .ok (t.put loc (.file []), loc)
      | _ => .ok (t, loc)
    | .ok (.entry _ .directory) => refuse (if purpose = .create then .exists else .isDirectory)
    | .ok (.entry _ (.link _)) => refuse .exists

/-- Opens a file under guard: the name is seen from the base directory, by default the directory
`cwd`.  The tree of a failed opening may have changed, since arguments of the text layer are
looked at last. -/
def openFile (t : FileTree) (cwd : Location) (name mode : Text) (base : Option Text)
    (options : Options) : FileTree × Except GuardError Opened :=
  let base := base.getD cwd.path
  let full := Path.join base name
  match t.guard cwd full name base with
  | .error e => (t, .error e)
  | .ok () =>
    match Mode.parse mode with
    | .error message => (t, .error (.argument message))
    | .ok m =>
      let misplaced : Option String :=
        if !m.binary then none
        else if options.encoding.isSome then some "an encoding"
        else if options.outsiders.isSome then some "an errors"
        else if options.newline.isSome then some "a newline"
        else none
      match misplaced with
      | some what =>
        (t, .error (.argument ("binary mode doesn't take ".toList ++ what.toList ++
          " argument".toList)))
      | none =>
        match m.purpose with
        | none =>
          (t, .error (.argument ("Must have exactly one of create/read/write/append mode and "
            ++ "at most one plus").toList))
        | some purpose =>
          match openRaw t cwd full purpose with
          | .error e => (t, .error (.path e))
          | .ok (t', loc) =>
            match options.newline with
            | some e =>
              if LineEnd.isKnown e then (t', finish t' loc m)
              else (t', .error (.argument ("illegal newline value: ".toList ++ e)))
            | none => (t', finish t' loc m)
where
  /-- Chooses the character set. -/
  finish (t' : FileTree) (loc : Location) (m : Mode) : Except GuardError Opened :=
    let encoding := options.encoding.getD "utf-8".toList
    match Charset.ofName? encoding with
    | none => .error (.lookup ("unknown encoding: ".toList ++ encoding))
    | some set =>
      .ok ⟨t', loc, m, set, Outsiders.ofName (options.outsiders.getD "strict".toList),
        options.newline⟩

/-- What a file gives: bytes or text. -/
inductive Content where
  | bytes (b : Bytes)
  | text (s : Text)
  deriving DecidableEq, Repr

/-- The content of an opened file at its location. -/
def Opened.content (f : Opened) : Bytes :=
  match f.tree.get? f.loc with
  | some (.file b) => b
  | _ => []

/-- Reads an opened file to its end; one opened for appending stands at its end already. -/
def Opened.read (f : Opened) : Except GuardError Content :=
  if !f.mode.canRead then
    .error (.unsupported (if f.mode.binary then "read".toList else "not readable".toList))
  else
    let bytes := if f.mode.purpose = some .append then [] else f.content
    if f.mode.binary then .ok (.bytes bytes)
    else
      match f.charset.decode f.outsiders bytes with
      | .error e => .error (e.guardError .decoding)
      | .ok s => .ok (.text (f.lineEnd.afterReading s))

/-- The tree after bytes have been written to an opened file from where it stands. -/
def Opened.put (f : Opened) (b : Bytes) : FileTree :=
  let old := f.content
  f.tree.put f.loc (.file (
    if f.mode.purpose = some .append then old ++ b else b ++ old.drop b.length))

/-- Writes bytes to an opened file; gives the tree and the number of bytes. -/
def Opened.writeBytes (f : Opened) (b : Bytes) : Except GuardError (FileTree × Nat) :=
  if !f.mode.canWrite then .error (.unsupported "write".toList)
  else .ok (f.put b, b.length)

/-- Writes text to an opened file; gives the tree and the number of characters. -/
def Opened.writeText (f : Opened) (s : Text) : Except GuardError (FileTree × Nat) :=
  if !f.mode.canWrite then .error (.unsupported "not writable".toList)
  else
    match f.charset.encode f.outsiders (f.lineEnd.beforeWriting s) with
    | .error e => .error (e.guardError .encoding)
    | .ok b => .ok (f.put b, s.length)

end Guarded

end ServerPages
