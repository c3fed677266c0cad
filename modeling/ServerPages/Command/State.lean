import ServerPages.Text.Value

/-!
# The state of a command

The stages of a command hand a state on: a table of named values with a fixed set of names.  A
stage works on the state that it is given and leaves it as it is; what it adds shows in the state
that it hands on.
-/

namespace ServerPages

namespace Command

/-- What the stages of a command hand on. -/
structure State where
  values : List (Text × Value)
  deriving Repr

namespace State

/-- The state before anything is known. -/
def initial : State :=
  ⟨[("verbosity".toList, .int 1),
    ("httpHeaders".toList, .text "structured".toList),
    ("inputFile".toList, .text ['-']),
    ("outFile".toList, .text ['-']),
    ("run".toList, .bool false),
    ("highlight".toList, .bool false),
    ("maxTop".toList, .int 1),
    ("allowed".toList, .text "ALL".toList),
    ("maxIncludeDepth".toList, .int 10),
    ("plugin".toList, .text []),
    ("socket".toList, .text []),
    ("file".toList, .text []),
    ("maxIdle".toList, .real (Binary64.ofInt 0)),
    ("includeDir".toList, .text ['/']),
    ("allowList".toList, .none),
    ("pageSource".toList, .none),
    ("generatedSource".toList, .none),
    ("generator".toList, .none)]⟩

/-- The value of a name. -/
def get? (s : State) (name : Text) : Option Value := s.values.lookup name

/-- The state with a value for one of its names; for any other name it stays as it is. -/
def set (s : State) (name : Text) (v : Value) : State :=
  ⟨s.values.map fun e => if e.1 = name then (name, v) else e⟩

/-- The state that options give; an option that is none of its names is dropped. -/
def ofOptions (options : List (Text × Value)) : State :=
  options.foldl (fun s (name, v) => s.set name v) initial

/-- Setting a value leaves the names as they are. -/
theorem names_set (s : State) (name : Text) (v : Value) :
    (s.set name v).values.map (·.1) = s.values.map (·.1) := by
  simp only [set, List.map_map]
  refine List.map_congr_left fun e _ => ?_
  by_cases h : e.1 = name <;> simp [h]

/-- The state behind stages that each work on the state handed on by the one before. -/
def pipeline (s : State) (stages : List (State → State)) : State :=
  stages.foldl (fun s stage => stage s) s

end State

end Command

end ServerPages
