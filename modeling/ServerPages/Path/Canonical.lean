import ServerPages.Path.Walk

/-!
# Canonical paths

The canonical form of a path is absolute and passes through no link.  It is found from the normal
form of the path: links are resolved in the longest beginning that exists, and the names after it
are kept as they are.  A link that points to nothing counts as not existing.
-/

namespace ServerPages

namespace FileTree

/-- What is left to do while links are resolved: a name to go on to, or the end of a link, which
then stands for the location reached. -/
inductive Pending where
  | name (n : Text)
  | resolved (link : Location)
  deriving DecidableEq, Repr

/-- Looks up a name on the way to a canonical path. -/
def inspect (t : FileTree) (here : Location) (name : Text) : Except PathError Entry :=
  let path := (here ++ [name]).path
  if '\x00' ∈ name then .error .nullCharacter
  else if pathLimit < (Utf8.encode path).length then .error (.refused .nameTooLong path)
  else match t.lookup here name with
    | .error e => .error (.refused e path)
    | .ok e => .ok e

/-- The links other than a given one. -/
def others (links : List Location) (link : Location) : List Location :=
  links.filter (· ≠ link)

theorem length_others_lt {links : List Location} {link : Location} (h : link ∈ links) :
    (others links link).length < links.length := by
  unfold others
  rw [List.length_filter_lt_length_iff_exists]
  exact ⟨link, h, by simp⟩

/-- Resolves every link on the way through `pending` from a location.  `fresh` holds the links
not met so far and `known` the locations that resolved links stand for; a link that is met again
before it is resolved leads round in a circle. -/
def resolve (t : FileTree) (fresh : List Location) (known : List (Location × Location))
    (here : Location) (pending : List Pending) : Except PathError Location :=
  match pending with
  | [] => .ok here
  | .resolved link :: rest => t.resolve fresh ((link, here) :: known) here rest
  | .name name :: rest =>
    if name = [] || name = ['.'] then t.resolve fresh known here rest
    else if name = ['.', '.'] then t.resolve fresh known here.up rest
    else
      match t.inspect here name with
      | .error e => .error e
      | .ok (.link target) =>
        let link := here ++ [name]
        match known.lookup link with
        | some loc => t.resolve fresh known loc rest
        | none =>
          if h : link ∈ fresh then
            t.resolve (others fresh link) known
              (if Path.isAbsolute target then [] else here)
              ((Path.names target).map .name ++ .resolved link :: rest)
          else .error (.refused .tooManyLinks link.path)
      | .ok _ => t.resolve fresh known (here ++ [name]) rest
termination_by (fresh.length, pending.length)
decreasing_by
  all_goals first
    | exact Prod.Lex.left _ _ (length_others_lt h)
    | (apply Prod.Lex.right; simp)

/-- The location that names from the root lead to, all of which must exist. -/
def resolveAll (t : FileTree) (names : List Text) : Except PathError Location :=
  t.resolve t.links [] [] (names.map .name)

/-- The location that a list of names from the root stands for: the longest beginning that exists
is resolved, and the rest follows it.  `missing` holds the names already set aside. -/
def canonicalFrom (t : FileTree) (names missing : List Text) : Except PathError Location :=
  match t.resolveAll names with
  | .ok loc => .ok (loc ++ missing)
  | .error (.refused .notFound path) =>
    if h : names = [] then .error (.refused .notFound path)
    else
      t.canonicalFrom names.dropLast (names.getLast h :: missing)
  | .error e => .error e
termination_by names.length
decreasing_by
  have := List.length_pos_iff.2 h
  simp; omega

/-- The location that a path stands for, seen from the directory `cwd`. -/
def locate (t : FileTree) (cwd : Location) (path : Text) : Except PathError Location :=
  t.canonicalFrom ((Path.names (Path.absolute cwd.path path)).filter (· ≠ [])) []

/-- The canonical form of a path, seen from the directory `cwd`; the empty path is its own. -/
def canonical (t : FileTree) (cwd : Location) (path : Text) : Except PathError Text :=
  if path = [] then .ok [] else (t.locate cwd path).map Location.path

/-- Whether the path `child` lies in or below the path `parent`, by their canonical forms. -/
def isWithin (t : FileTree) (cwd : Location) (child parent : Text) : Except PathError Bool := do
  let p ← t.canonical cwd parent
  let c ← t.canonical cwd child
  return p = ['/'] || c = p || Text.beginsWith (p ++ ['/']) c

end FileTree

end ServerPages
