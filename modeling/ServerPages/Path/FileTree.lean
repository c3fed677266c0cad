import ServerPages.Path.Basic
import ServerPages.Text.Utf8
import ServerPages.Text.Quoted
import ServerPages.Number.Decimal

/-!
# File trees

A file tree says what stands at each location.  A location is a list of names from the root and
passes through no link; a link is an entry that holds the path it points to.  Changing a tree
gives a new one.
-/

namespace ServerPages

/-- A place in a file tree: the names from the root on, none of them a link on the way. -/
abbrev Location := List Text

/-- What stands at a location. -/
inductive Entry where
  | file (content : Bytes)
  | directory
  | link (target : Text)
  deriving DecidableEq, Repr

/-- Why the file system refuses an operation. -/
inductive FileError where
  | notFound
  | exists
  | notDirectory
  | isDirectory
  | nameTooLong
  | tooManyLinks
  deriving DecidableEq, Repr

namespace FileError

/-- The number of an error. -/
def number : FileError → Nat
  | .notFound => 2
  | .exists => 17
  | .notDirectory => 20
  | .isDirectory => 21
  | .nameTooLong => 36
  | .tooManyLinks => 40

/-- An error in words. -/
def text : FileError → Text
  | .notFound => "No such file or directory".toList
  | .exists => "File exists".toList
  | .notDirectory => "Not a directory".toList
  | .isDirectory => "Is a directory".toList
  | .nameTooLong => "File name too long".toList
  | .tooManyLinks => "Too many levels of symbolic links".toList

/-- An error with its number. -/
def numbered (e : FileError) : Text :=
  "[Errno ".toList ++ Decimal.ofNat e.number ++ "] ".toList ++ e.text

end FileError

/-- Why a path cannot be used: the file system refuses it, or it holds a null character. -/
inductive PathError where
  | refused (error : FileError) (path : Text)
  | nullCharacter
  deriving DecidableEq, Repr

/-- A path that cannot be used, in words. -/
def PathError.message : PathError → Text
  | .refused e path => e.numbered ++ ": ".toList ++ Quoted.encode path
  | .nullCharacter => "embedded null byte".toList

/-- What stands at each location.  The root is always a directory. -/
structure FileTree where
  entries : List (Location × Entry) := []
  deriving Repr, Inhabited

namespace FileTree

/-- The entry at a location. -/
def get? (t : FileTree) (loc : Location) : Option Entry :=
  if loc = [] then some .directory
  else (t.entries.find? fun e => e.1 = loc).map (·.2)

/-- The tree with an entry put at a location. -/
def put (t : FileTree) (loc : Location) (e : Entry) : FileTree :=
  ⟨(loc, e) :: t.entries.filter fun p => p.1 ≠ loc⟩

/-- The tree without the entry at a location. -/
def erase (t : FileTree) (loc : Location) : FileTree :=
  ⟨t.entries.filter fun p => p.1 ≠ loc⟩

theorem get?_put_self {t : FileTree} {loc : Location} {e : Entry} (h : loc ≠ []) :
    (t.put loc e).get? loc = some e := by
  simp [get?, put, h]

/-- The locations of the links in a tree. -/
def links (t : FileTree) : List Location :=
  t.entries.filterMap fun p => match p.2 with
    | .link _ => some p.1
    | _ => none

/-- The longest name, in bytes. -/
def nameLimit : Nat := 255

/-- The longest path, in bytes. -/
def pathLimit : Nat := 4095

/-- Looks a name up in a directory, without following a link. -/
def lookup (t : FileTree) (dir : Location) (name : Text) : Except FileError Entry :=
  if t.get? dir ≠ some .directory then .error .notDirectory
  else if nameLimit < (Utf8.encode name).length then .error .nameTooLong
  else match t.get? (dir ++ [name]) with
    | none => .error .notFound
    | some e => .ok e

end FileTree

namespace Location

/-- A location as an absolute path. -/
def path (loc : Location) : Text :=
  if loc = [] then ['/'] else loc.flatMap ('/' :: ·)

/-- The location that holds another one; the root holds itself. -/
def up (loc : Location) : Location := loc.dropLast

end Location

end ServerPages
