import ServerPages.Path.FileTree

/-!
# Walking a path

How the file system itself finds what a path names: name by name from where it stands, following
each link before it goes on, so that a double dot after a link leaves the link's target.  It
gives up after a fixed number of links.
-/

namespace ServerPages

/-- Where a path leads: to an entry, or to a free name in a directory. -/
inductive Reached where
  | entry (loc : Location) (e : Entry)
  /-- Nothing stands there yet; `closed` says that the path ends in a separator. -/
  | vacant (loc : Location) (closed : Bool)
  deriving DecidableEq, Repr

namespace FileTree

/-- The number of links followed for one path at most. -/
def linkLimit : Nat := 40

/-- Walks `names` from a location with `links` links left to follow; `follow` says whether a link
in the last place is followed. -/
def walk (t : FileTree) (follow : Bool) (links : Nat) (here : Location) (names : List Text) :
    Except FileError Reached :=
  match names with
  | [] =>
    match t.get? here with
    | some e => .ok (.entry here e)
    | none => .error .notFound
  | name :: rest =>
    if t.get? here ≠ some .directory then .error .notDirectory
    else if name = [] || name = ['.'] then t.walk follow links here rest
    else if name = ['.', '.'] then t.walk follow links here.up rest
    else
      match t.lookup here name with
      | .error .notFound =>
        if rest.all (· = []) then .ok (.vacant (here ++ [name]) !rest.isEmpty)
        else .error .notFound
      | .error e => .error e
      | .ok (.link target) =>
        if rest.isEmpty && !follow then .ok (.entry (here ++ [name]) (.link target))
        else match links with
          | 0 => .error .tooManyLinks
          | links + 1 =>
            t.walk follow links (if Path.isAbsolute target then [] else here)
              (Path.names target ++ rest)
      | .ok _ => t.walk follow links (here ++ [name]) rest
termination_by (links, names.length)

/-- Finds what a path names, seen from the directory `cwd`. -/
def reach (t : FileTree) (cwd : Location) (follow : Bool) (path : Text) :
    Except FileError Reached :=
  if path = [] then .error .notFound
  else if pathLimit < (Utf8.encode path).length then .error .nameTooLong
  else t.walk follow linkLimit (if Path.isAbsolute path then [] else cwd) (Path.names path)

/-- The location of the directory that a path names. -/
def reachDirectory (t : FileTree) (cwd : Location) (path : Text) : Except FileError Location :=
  match t.reach cwd true path with
  | .ok (.entry loc .directory) => .ok loc
  | .ok (.entry _ _) => .error .notDirectory
  | .ok (.vacant _ _) => .error .notFound
  | .error e => .error e

/-- Whether a path names a directory. -/
def isDirectory (t : FileTree) (cwd : Location) (path : Text) : Bool :=
  '\x00' ∉ path && (t.reachDirectory cwd path).toBool

/-- Whether a path names a file. -/
def isFile (t : FileTree) (cwd : Location) (path : Text) : Bool :=
  '\x00' ∉ path && match t.reach cwd true path with
    | .ok (.entry _ (.file _)) => true
    | _ => false

/-- The content of the file that a path names. -/
def read (t : FileTree) (cwd : Location) (path : Text) : Except PathError Bytes :=
  if '\x00' ∈ path then .error .nullCharacter
  else match t.reach cwd true path with
    | .ok (.entry _ (.file content)) => .ok content
    | .ok (.entry _ _) => .error (.refused .isDirectory path)
    | .ok (.vacant _ _) => .error (.refused .notFound path)
    | .error e => .error (.refused e path)

end FileTree

end ServerPages
