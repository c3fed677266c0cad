import ServerPages.Text.Blank
import ServerPages.Text.Quoted

/-!
# Allow lists

An allow list says which modules page code may import.  It is built from a list of names with
commas between them, from left to right: `NONE` empties it, `ALL` lets everything in, and any
other name is added.  A name lets in the module and all modules below it.

The package of the page library is always let in, but only what belongs to its page interface.
-/

namespace ServerPages

/-- The modules that page code may import. -/
inductive AllowList where
  /-- Everything. -/
  | all
  /-- The modules named, in the order of their code points and none twice. -/
  | only (names : List Text)
  deriving DecidableEq, Repr

namespace AllowList

/-- The list that lets nothing in. -/
def empty : AllowList := .only []

/-- Names in order, with one more among them. -/
def insertName (name : Text) : List Text → List Text
  | [] => [name]
  | n :: rest =>
    if name = n then n :: rest
    else if Text.codePointLE name n then name :: n :: rest
    else n :: insertName name rest

/-- The list of some names. -/
def ofNames (names : List Text) : AllowList :=
  .only (names.foldl (fun ns n => insertName n ns) [])

/-- The names on a list. -/
def names : AllowList → List Text
  | .all => []
  | .only ns => ns

/-- Whether a list lets everything in. -/
def isUniversal : AllowList → Bool
  | .all => true
  | .only _ => false

/-- Why a specification is refused. -/
inductive SpecError where
  /-- It is all white space. -/
  | blank
  /-- One of its elements is. -/
  | emptyElement (spec : Text)
  deriving DecidableEq, Repr

/-- The error in words. -/
def SpecError.message : SpecError → Text
  | .blank => "Argument must be non-empty".toList
  | .emptyElement spec => "Empty element in list ".toList ++ Quoted.encode spec

/-- The list after one element of a specification. -/
def add (l : AllowList) (element : Text) : AllowList :=
  if element = "NONE".toList then empty
  else if element = "ALL".toList then .all
  else match l with
    | .all => .all
    | .only ns => .only (insertName element ns)

/-- The list after the elements of a specification up to the first empty one, and whether there
is one. -/
def addAll (l : AllowList) : List Text → AllowList × Bool
  | [] => (l, true)
  | element :: rest =>
    let element := Text.trim element
    if element.isEmpty then (l, false) else addAll (l.add element) rest

/-- The list after a specification, and why the specification is refused if it is; what stands
before an empty element counts all the same. -/
def update (l : AllowList) (spec : Text) : AllowList × Option SpecError :=
  if Text.isAllBlank spec then (l, some .blank)
  else
    let (after, complete) := addAll l (Text.splitOn ',' spec)
    (after, if complete then none else some (.emptyElement spec))

/-- The list that a specification describes. -/
def parse (spec : Text) : Except SpecError AllowList :=
  match update empty spec with
  | (l, none) => .ok l
  | (_, some e) => .error e

/-- A list as a specification. -/
def spec : AllowList → Text
  | .all => "ALL".toList
  | .only ns => Text.joinWith [','] ns

/-- A list in words. -/
def describe (l : AllowList) : Text := "ImportAllowList(".toList ++ Quoted.encode l.spec ++ [')']

/-- The package of the page library. -/
def pagePackage : Text := "gosp".toList

/-- What pages may use of the page library. -/
def pageInterface : List Text :=
  ["KeyValue", "Metadata", "RequestData", "STATUS_OK", "STATUS_INTERNAL_SERVER_ERROR", "fprint",
   "set_http_status", "set_mime_type", "set_header_field", "set_keep_alive", "error_message",
   "debug_message", "report_failure", "open"].map String.toList

/-- A name and the packages around it, the outermost first. -/
def packages (name : Text) : List Text :=
  let parts := Text.splitOn '.' name
  (List.range parts.length).map fun n => Text.joinWith ['.'] (parts.take (n + 1))

/-- Whether a name belongs to the page interface. -/
def isPageName (name : Text) : Bool :=
  name = pagePackage || match Text.after? (pagePackage ++ ['.']) name with
    | some member => pageInterface.contains member
    | none => false

/-- Whether a list lets a name in. -/
def allows (l : AllowList) (name : Text) : Bool :=
  match l with
  | .all => true
  | .only ns => isPageName name || (packages name).any ns.contains

end AllowList

end ServerPages
