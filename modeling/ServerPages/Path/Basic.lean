import ServerPages.Text.Basic

/-!
# Paths as text

The operations on paths that look at their spelling alone: joining, cutting off the last name,
and bringing a path into normal form, in which no name is empty or a dot and a double dot stands
only where nothing precedes it.  Nothing here knows which files exist.
-/

namespace ServerPages

namespace Path

/-- Whether a path starts at the root. -/
def isAbsolute : Text → Bool
  | '/' :: _ => true
  | _ => false

/-- A path seen from another one: itself if it is absolute. -/
def join (base path : Text) : Text :=
  if isAbsolute path then path
  else if base.isEmpty || base.getLast? = some '/' then base ++ path
  else base ++ '/' :: path

/-- The names in a path, empty ones included. -/
def names (path : Text) : List Text := Text.splitOn '/' path

/-- What stands before the last name of a path, with the separators between them dropped unless
they are all of it. -/
def parent (path : Text) : Text :=
  let head := path.reverse.dropWhile (· ≠ '/') |>.reverse
  if head.all (· = '/') then head else Text.dropTrailing '/' head

/-- The last name of a path: what follows its last separator. -/
def lastName (path : Text) : Text := (path.reverse.takeWhile (· ≠ '/')).reverse

/-- One step towards normal form; `done` holds the names kept so far, the last one first, and
`rooted` says whether the path is absolute. -/
def reduceStep (rooted : Bool) (done : List Text) (name : Text) : List Text :=
  if name = [] || name = ['.'] then done
  else if name = ['.', '.'] then
    match done with
    | [] => if rooted then [] else [name]
    | last :: rest => if last = ['.', '.'] then name :: done else rest
  else name :: done

/-- The names that remain of a path in normal form. -/
def reduce (rooted : Bool) (names : List Text) : List Text :=
  (names.foldl (reduceStep rooted) []).reverse

/-- The separators an absolute path begins with in normal form: one, or two if it begins with
exactly two. -/
def rootMark : Text → Text
  | '/' :: '/' :: '/' :: _ => ['/']
  | '/' :: '/' :: _ => ['/', '/']
  | '/' :: _ => ['/']
  | _ => []

/-- The normal form of a path. -/
def normalise (path : Text) : Text :=
  let spelled := rootMark path ++ Text.joinWith ['/'] (reduce (isAbsolute path) (names path))
  if spelled.isEmpty then ['.'] else spelled

/-- The normal form of a path seen from the directory `cwd`. -/
def absolute (cwd path : Text) : Text :=
  normalise (if isAbsolute path then path else join cwd path)

/-- The extension of a path's last name: its last dot and what follows, if something stands on
both sides of that dot. -/
def extension (path : Text) : Text :=
  match ((names path).filter fun n => n ≠ [] && n ≠ ['.']).getLast? with
  | none => []
  | some name =>
    let stem := name.reverse.dropWhile (· ≠ '.')
    let last := (name.reverse.takeWhile (· ≠ '.')).reverse
    match stem with
    | [] => []
    | _ :: before => if before.isEmpty || last.isEmpty then [] else '.' :: last

/-- A path without empty names and dots, as it is handed to the file system. -/
def tidy (path : Text) : Text :=
  let kept := (names path).filter fun n => n ≠ [] && n ≠ ['.']
  let spelled := rootMark path ++ Text.joinWith ['/'] kept
  if spelled.isEmpty then ['.'] else spelled

end Path

end ServerPages
