import ServerPages.Number.Binary64
import ServerPages.Text.Letter

/-!
# JSON values

The values a message can hold.  An object keeps its members in the order in which their names
first appear, each with the last value given to it.  A string is made of letters: it may hold half
of a surrogate pair.
-/

namespace ServerPages

/-- A JSON value. -/
inductive Json where
  | null
  | bool (b : Bool)
  | int (n : Int)
  | real (r : Binary64)
  | string (s : List Letter)
  | array (items : List Json)
  | object (members : List (List Letter × Json))
  deriving Repr, Inhabited

namespace Json

/-- Members of an object with one more: a name already present keeps its place and takes the new
value. -/
def insert (members : List (List Letter × Json)) (name : List Letter) (value : Json) :
    List (List Letter × Json) :=
  match members with
  | [] => [(name, value)]
  | (n, v) :: rest => if n = name then (n, value) :: rest else (n, v) :: insert rest name value

/-- The object that members in order of writing denote. -/
def ofMembers (members : List (List Letter × Json)) : Json :=
  .object (members.foldl (fun ms m => insert ms m.1 m.2) [])

/-- The value of a member. -/
def member? (name : Text) (members : List (List Letter × Json)) : Option Json :=
  (members.find? fun m => m.1 = Letter.ofText name).map (·.2)

/-- Whether a value is null. -/
def isNull : Json → Bool
  | .null => true
  | _ => false

end Json

end ServerPages
