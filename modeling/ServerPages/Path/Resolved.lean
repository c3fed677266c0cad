import ServerPages.Path.Canonical

/-!
# Resolved paths

A path is resolved name by name: links are followed where they stand, a double dot leaves the
directory that has been reached, and a name that cannot be looked up is kept.  Links that lead
round in a circle have no resolved path, and neither has a path with a null character.
-/

namespace ServerPages

/-- Why a path has no resolved form. -/
inductive ResolveError where
  /-- Links lead round in a circle: one of them, and the names behind it. -/
  | circle (place : Location)
  | nullCharacter
  deriving DecidableEq, Repr

/-- The error in words. -/
def ResolveError.message : ResolveError → Text
  | .circle place => "Symlink loop from ".toList ++ Quoted.encode place.path
  | .nullCharacter => PathError.nullCharacter.message

namespace FileTree

/-- The names among what is left to do. -/
def Pending.name? : Pending → Option Text
  | .name n => some n
  | .resolved _ => none

/-- Resolves every link on the way through `pending` from a location.  `fresh` holds the links
not met so far and `known` the locations that resolved links stand for. -/
def resolveKept (t : FileTree) (fresh : List Location) (known : List (Location × Location))
    (here : Location) (pending : List Pending) : Except ResolveError Location :=
  match pending with
  | [] => .ok here
  | .resolved link :: rest => t.resolveKept fresh ((link, here) :: known) here rest
  | .name name :: rest =>
    if name = [] || name = ['.'] then t.resolveKept fresh known here rest
    else if name = ['.', '.'] then t.resolveKept fresh known here.up rest
    else
      match t.inspect here name with
      | .ok (.link target) =>
        let link := here ++ [name]
        match known.lookup link with
        | some loc => t.resolveKept fresh known loc rest
        | none =>
          if h : link ∈ fresh then
            t.resolveKept (others fresh link) known
              (if Path.isAbsolute target then [] else here)
              ((Path.names target).map .name ++ .resolved link :: rest)
          else .error (.circle (link ++ rest.filterMap Pending.name?))
      | .error .nullCharacter => .error .nullCharacter
      | _ => t.resolveKept fresh known (here ++ [name]) rest
termination_by (fresh.length, pending.length)
decreasing_by
  all_goals first
    | exact Prod.Lex.left _ _ (length_others_lt h)
    | (apply Prod.Lex.right; simp)

/-- The resolved form of a path seen from the directory `cwd`. -/
def resolved (t : FileTree) (cwd : Location) (path : Text) : Except ResolveError Location :=
  t.resolveKept t.links [] (if Path.isAbsolute path then [] else cwd)
    ((Path.names path).map .name)

end FileTree

end ServerPages
