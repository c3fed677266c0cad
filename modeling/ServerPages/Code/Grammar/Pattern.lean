import ServerPages.Code.Grammar.Expression

/-!
# The grammar of patterns

A pattern says what a value must look like.  The values and classes that it names are
expressions; all else in it gives names to parts of the value.
-/

namespace ServerPages

namespace Code

/-- What can be asked of the grammar of patterns. -/
inductive PatternGoal where
  /-- Patterns with commas between them, some of them unpacked. -/
  | sequence
  /-- A pattern, with a name for what it takes. -/
  | one
  /-- A pattern that is no choice. -/
  | closed
  deriving DecidableEq, Repr

namespace Pattern

open Code.Parser

/-- The parsers of the rules. -/
abbrev Rules := PatternGoal → Parser Tree

/-- A pattern, or one that takes all that is left of a sequence. -/
def item (rules : Rules) : Parser Tree := do
  let line ← line
  if ← takeIf (atOperator "*") then
    let _ ← name
    return .node .starred line []
  else rules .one

/-- What a list of patterns says, of which one alone is no list. -/
def gather (line : Nat) : List Tree × Bool → Parser Tree
  | ([.node .starred _ _], false) => throw .unexpected
  | ([one], false) => return one
  | (ps, _) => return .node .pattern line ps

def sequence (rules : Rules) : Parser Tree := do
  let line ← line
  gather line (← commaSeparated (item rules) (return !((← atOperator ":") || (← atWord "if"))))

def one (rules : Rules) : Parser Tree := do
  let line ← line
  let first ← rules .closed
  let choices ← loop [first] fun choices => do
    if ← takeIf (atOperator "|") then return some (choices ++ [← rules .closed]) else return none
  let pattern := match choices with
    | [p] => p
    | _ => .node .pattern line choices
  if ← takeIf (atWord "as") then
    let id ← name
    if id = ['_'] then throw .unexpected else return .node .pattern line [pattern]
  else return pattern

/-- A name with the attributes behind it. -/
def path : Parser Tree := do
  let start ← line
  let id ← name
  loop (.node (.name id) start []) fun value => do
    if ← takeIf (atOperator ".") then return some (.node (.attribute (← name)) start [value])
    else return none

/-- A number, which is imaginary if `imaginary` holds and real otherwise. -/
def part (rules : Goal → Parser Tree) (imaginary : Bool) : Parser Tree := do
  match ← peek with
  | some t =>
    let marked := Text.endsWith ['j'] t.text || Text.endsWith ['J'] t.text
    if t.kind = .number ∧ marked = imaginary then rules .atom else refuse
  | none => refuse

/-- A number with its sign; an imaginary part may follow a real one. -/
def number (rules : Goal → Parser Tree) : Parser Tree := do
  let start ← line
  let negative ← takeIf (atOperator "-")
  if ← atKind .number then
    let ahead ← get
    let value ← rules .atom
    let value := if negative then .node (.unary ['-']) start [value] else value
    match ← Expression.takeOperator ["+", "-"] with
    | none => return value
    | some op =>
      let rest ← get
      set ahead
      let _ ← part rules false
      set rest
      return .node (.binary op) start [value, ← part rules true]
  else refuse

/-- What stands between brackets, the opening one taken already. -/
def items (rules : Rules) (closing : String) : Parser (List Tree × Bool) := do
  if ← takeIf (atOperator closing) then return ([], true)
  else
    let (ps, trailing) ← commaSeparated (item rules) (return !(← atOperator closing))
    operator closing
    return (ps, trailing)

/-- One argument of a class pattern: whether it has a name, and its pattern. -/
def classArgument (rules : Rules) : Parser (Bool × Tree) := do
  match ← get with
  | t :: u :: rest =>
    if isName t ∧ u.isOperator "=" then
      set rest
      return (true, ← rules .one)
    else return (false, ← rules .one)
  | _ => refuse

/-- Whether the tokens begin with a string or a word that stands for a value. -/
def atLiteral : Parser Bool :=
  return (← atKind .string) || (← atWord "None") || (← atWord "True") || (← atWord "False")

/-- One entry of a table pattern: a key and a pattern, or a name for what is left. -/
def entry (rules : Rules) (expressions : Goal → Parser Tree) : Parser (Option (Tree × Tree)) := do
  if ← takeIf (atOperator "**") then
    if (← name) = ['_'] then throw .unexpected
    return none
  else
    let key ← (do
      if (← atOperator "-") ∨ (← atKind .number) then number expressions
      else if ← atName then
        match ← path with
        | .node (.attribute a) l ps => return .node (.attribute a) l ps
        | _ => refuse
      else if ← atLiteral then expressions .atom
      else refuse : Parser Tree)
    operator ":"
    return some (key, ← rules .one)

def closed (rules : Rules) (expressions : Goal → Parser Tree) : Parser Tree := do
  let start ← line
  if ← takeIf (atOperator "(") then gather start (← items rules ")")
  else if ← takeIf (atOperator "[") then
    let (ps, _) ← items rules "]"
    return .node .pattern start ps
  else if ← takeIf (atOperator "\x7b") then
    if ← takeIf (atOperator "\x7d") then return .node .pattern start []
    else
      let (entries, _) ← commaSeparated (entry rules expressions) (return !(← atOperator "\x7d"))
      operator "\x7d"
      if entries.dropLast.any (·.isNone) then throw .unexpected
      let pairs := entries.filterMap id
      return .node .pattern start (pairs.map (·.1) ++ pairs.map (·.2))
  else if ← atName then
    let value ← path
    if ← takeIf (atOperator "(") then
      if ← takeIf (atOperator ")") then return .node .pattern start [value]
      else
        let (args, _) ← commaSeparated (classArgument rules) (return !(← atOperator ")"))
        operator ")"
        if (args.dropWhile (!·.1)).all (·.1) then
          return .node .pattern start
            (value :: (args.filter (!·.1)).map (·.2) ++ (args.filter (·.1)).map (·.2))
        else throw .unexpected
    else
      match value with
      | .node (.name _) _ _ => return .node .pattern start []
      | _ => return .node .pattern start [value]
  else if (← atOperator "-") ∨ (← atKind .number) then
    return .node .pattern start [← number expressions]
  else if ← atLiteral then
    return .node .pattern start [← expressions .atom]
  else refuse

/-- The rule for a goal. -/
def rule (rules : Rules) (expressions : Goal → Parser Tree) : PatternGoal → Parser Tree
  | .sequence => sequence rules
  | .one => one rules
  | .closed => closed rules expressions

/-- The parser for a goal, rules nested at most `bound` deep. -/
def parse (expressions : Goal → Parser Tree) : Nat → Rules
  | 0, _ => Parser.refuse
  | bound + 1, goal => rule (parse expressions bound) expressions goal

end Pattern

end Code

end ServerPages
