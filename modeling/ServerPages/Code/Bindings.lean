import ServerPages.Code.Tree

/-!
# Names that statements bind

A statement may give a value to names.  The names that the statements of a function bind belong
to that function; the statements of functions within it do not count.
-/

namespace ServerPages

namespace Code

namespace Tree

mutual

/-- The names in a target. -/
def targetNames : Tree → List Text
  | .node (.name id) _ _ => [id]
  | .node .starred _ ts => targetNamesAll ts
  | .node .tuple _ ts => targetNamesAll ts
  | .node .list _ ts => targetNamesAll ts
  | _ => []

/-- The names in targets. -/
def targetNamesAll : List Tree → List Text
  | [] => []
  | t :: ts => targetNames t ++ targetNamesAll ts

end

/-- The name that importing a module binds: that of its outermost package. -/
def importedAs (module : Text) : Text := (Text.cut '.' module).1

/-- The names that a node binds by itself. -/
def ownNames : Shape → List Tree → List Text
  | .function name _, _ => [name]
  | .classBlock name, _ => [name]
  | .importModules names, _ => names.map importedAs
  | .importFrom _ _ names, _ => names
  | .handler name _, _ => name.toList
  | .assignment, ts => targetNamesAll ts.dropLast
  | .augmented _, t :: _ => targetNames t
  | .annotated, t :: _ => targetNames t
  | .named, t :: _ => targetNames t
  | .forLoop _, t :: _ => targetNames t
  | .expression, [_, t] => targetNames t
  | _, _ => []

/-- Whether the names bound inside a construct are its own. -/
def isScope : Shape → Bool
  | .function .. | .classBlock .. | .lambda | .comprehension => true
  | _ => false

mutual

/-- The names that a tree binds. -/
def boundNames : Tree → List Text
  | .node s _ ts => ownNames s ts ++ if isScope s then [] else boundNamesAll ts

/-- The names that trees bind. -/
def boundNamesAll : List Tree → List Text
  | [] => []
  | t :: ts => boundNames t ++ boundNamesAll ts

end

end Tree

end Code

end ServerPages
