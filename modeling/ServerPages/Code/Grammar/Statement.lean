import ServerPages.Code.Grammar.Pattern

/-!
# The grammar of statements

Statements stand on lines; several simple ones may share a line.  A compound statement has
headers, each followed by a block: simple statements on the same line, or an indented block of
statements.
-/

namespace ServerPages

namespace Code

/-- What can be asked of the grammar of statements. -/
inductive StatementGoal where
  /-- A compound statement, or a line of simple ones. -/
  | statement
  /-- What follows the colon of a header. -/
  | block
  deriving DecidableEq, Repr

namespace Statement

open Code.Parser

/-- The parsers of the rules: those of expressions, of patterns, and of statements. -/
structure Rules where
  expr : Goal → Parser Tree
  pattern : PatternGoal → Parser Tree
  statement : StatementGoal → Parser (List Tree)

/-! ### Simple statements -/

/-- Names with dots between them. -/
def dottedName : Parser Text := do
  let first ← name
  loop first fun path => do
    if ← takeIf (atOperator ".") then return some (path ++ '.' :: (← name)) else return none

/-- The name after `as`, if there is one. -/
def asName : Parser (Option Text) := do
  if ← takeIf (atWord "as") then return some (← name) else return none

def importModules (line : Nat) : Parser Tree := do
  let (names, trailing) ← commaSeparated (do let n ← dottedName; let _ ← asName; return n)
    (return true)
  if trailing then refuse else return .node (.importModules names) line []

/-- The dots before the name of a module. -/
def dots : Parser Nat :=
  loop 0 fun n => do
    if ← takeIf (atOperator ".") then return some (n + 1)
    else if ← takeIf (atOperator "...") then return some (n + 3)
    else return none

def importFrom (line : Nat) : Parser Tree := do
  let level ← dots
  let module ← (do
    if level ≠ 0 ∧ (← atWord "import") then return none else return some (← dottedName) :
      Parser (Option Text))
  word "import"
  let member : Parser Text := do
    let n ← name
    let _ ← asName
    return n
  let done (names : List Text) : Tree := .node (.importFrom level module names) line []
  if ← takeIf (atOperator "*") then return done [['*']]
  else if ← takeIf (atOperator "(") then
    let (names, _) ← commaSeparated member (return !(← atOperator ")"))
    operator ")"
    return done names
  else
    let (names, _) ← commaSeparated member (return true)
    return done names

/-- Expressions with commas between them, or a `yield`. -/
def value (rules : Rules) : Parser Tree := do
  if ← atWord "yield" then rules.expr .yielding else rules.expr .expressions

/-- The operators that change a value in place. -/
def augmentations : List String :=
  ["+=", "-=", "*=", "/=", "//=", "%=", "@=", "&=", "|=", "^=", "<<=", ">>=", "**="]

/-- An assignment or an expression. -/
def assignment (rules : Rules) : Parser Tree := do
  let line ← line
  let first ← value rules
  if ← atOperator ":" then
    if Expression.isSingleTarget first then
      skip
      let annotation ← rules.expr .expression
      let assigned ← (do
        if ← takeIf (atOperator "=") then return [← value rules] else return [] :
          Parser (List Tree))
      return .node .annotated line (first :: annotation :: assigned)
    else refuse
  else
    match ← Expression.takeOperator augmentations with
    | some op =>
      if Expression.isSingleTarget first then
        return .node (.augmented op) line [first, ← value rules]
      else throw .unexpected
    | none =>
      let values ← loop [first] fun values => do
        if ← takeIf (atOperator "=") then return some (values ++ [← value rules])
        else return none
      match values with
      | [one] => return .node .expression line [one]
      | _ =>
        if values.dropLast.all (Expression.isTarget true) then
          return .node .assignment line values
        else throw .unexpected

mutual

/-- Whether something holds an unpacked target. -/
def holdsStarred : Tree → Bool
  | .node .starred _ _ => true
  | .node .tuple _ ts => anyStarred ts
  | .node .list _ ts => anyStarred ts
  | _ => false

/-- Whether one of some targets is unpacked. -/
def anyStarred : List Tree → Bool
  | [] => false
  | t :: ts => holdsStarred t || anyStarred ts

end

def deletion (rules : Rules) (line : Nat) : Parser Tree := do
  let (items, _) ← commaSeparated (rules.expr (.operation 0)) Expression.begins
  if items.all fun t => Expression.isTarget false t && !holdsStarred t then
    return .node .deleted line items
  else throw .unexpected

/-- Expressions after a keyword, if there are any. -/
def optionalValue (rules : Rules) : Parser (List Tree) := do
  if ← Expression.begins then return [← rules.expr .expressions] else return []

def raising (rules : Rules) (line : Nat) : Parser Tree := do
  if ← Expression.begins then
    let raised ← rules.expr .expression
    if ← takeIf (atWord "from") then
      return .node .raised line [raised, ← rules.expr .expression]
    else return .node .raised line [raised]
  else return .node .raised line []

def assertion (rules : Rules) (line : Nat) : Parser Tree := do
  let test ← rules.expr .expression
  if ← takeIf (atOperator ",") then
    return .node .asserted line [test, ← rules.expr .expression]
  else return .node .asserted line [test]

def scoping (line : Nat) : Parser Tree := do
  let (names, trailing) ← commaSeparated name (return true)
  if trailing then refuse else return .node (.scope names) line []

def simple (rules : Rules) : Parser Tree := do
  let line ← line
  if ← takeIf (atWord "return") then return .node .returned line (← optionalValue rules)
  else if ← takeIf (atWord "import") then importModules line
  else if ← takeIf (atWord "from") then importFrom line
  else if ← takeIf (atWord "raise") then raising rules line
  else if ← takeIf (atWord "pass") then return .node .pass line []
  else if ← takeIf (atWord "del") then deletion rules line
  else if ← takeIf (atWord "assert") then assertion rules line
  else if ← takeIf (atWord "break") then return .node .breakLoop line []
  else if ← takeIf (atWord "continue") then return .node .continueLoop line []
  else if ← takeIf (atWord "global") then scoping line
  else if ← takeIf (atWord "nonlocal") then scoping line
  else assignment rules

/-- Simple statements on one line. -/
def simpleLine (rules : Rules) : Parser (List Tree) := do
  let first ← simple rules
  let (statements, _) ← loop ([first], true) fun (statements, more) => do
    if more ∧ (← takeIf (atOperator ";")) then
      if ← atKind .newline then return some (statements, false)
      else return some (statements ++ [← simple rules], true)
    else return none
  kind .newline
  return statements

/-! ### Blocks -/

/-- Statements up to the end of their block. -/
def statements (rules : Rules) : Parser (List Tree) :=
  loop [] fun done => do
    if (← atEnd) ∨ (← atKind .dedent) then return none
    else return some (done ++ (← rules.statement .statement))

def block (rules : Rules) : Parser (List Tree) := do
  if ← takeIf (atKind .newline) then
    if ← atKind .indent then
      skip
      let body ← statements rules
      kind .dedent
      return body
    else throw (.missingBlock (← atEnd))
  else simpleLine rules

/-- A colon and the block behind it. -/
def suite (rules : Rules) : Parser (List Tree) := do
  operator ":"
  rules.statement .block

/-! ### Compound statements -/

/-- The block behind `else`, if there is one. -/
def otherwise (rules : Rules) : Parser (List Tree) := do
  if ← takeIf (atWord "else") then suite rules else return []

/-- Arms of a choice: tests with their blocks, and the block behind `else`. -/
def choice (rules : Rules) (line : Nat) : Parser Tree := do
  let arm (line : Nat) : Parser (Nat × Tree × List Tree) := do
    let test ← rules.expr .named
    return (line, test, ← suite rules)
  let first ← arm line
  let arms ← loop [first] fun arms => do
    let line ← Parser.line
    if ← takeIf (atWord "elif") then return some (arms ++ [← arm line]) else return none
  let last ← otherwise rules
  let build (arm : Nat × Tree × List Tree) (rest : List Tree) : List Tree :=
    [.node (.choice arm.2.2.length) arm.1 (arm.2.1 :: arm.2.2 ++ rest)]
  match arms.foldr build last with
  | [t] => return t
  | _ => refuse

def whileLoop (rules : Rules) (line : Nat) : Parser Tree := do
  let test ← rules.expr .named
  let body ← suite rules
  return .node (.whileLoop body.length) line (test :: body ++ (← otherwise rules))

def forLoop (rules : Rules) (line : Nat) : Parser Tree := do
  let target ← rules.expr .targets
  word "in"
  let source ← rules.expr .expressions
  let body ← suite rules
  return .node (.forLoop body.length) line (target :: source :: body ++ (← otherwise rules))

/-- One resource of a `with` statement, and the name it is given. -/
def resource (rules : Rules) : Parser Tree := do
  let line ← line
  let value ← rules.expr .expression
  if ← takeIf (atWord "as") then
    let target ← Expression.starredOr rules.expr (.operation 0)
    if Expression.isTarget true target then return .node .expression line [value, target]
    else throw .unexpected
  else return .node .expression line [value]

def withBlock (rules : Rules) (line : Nat) : Parser Tree := do
  let bracketed ← attempt do
    operator "("
    let (items, _) ← commaSeparated (resource rules) (return !(← atOperator ")"))
    operator ")"
    if ← atOperator ":" then return items else refuse
  let items ← (match bracketed with
    | some items => pure items
    | none => do
      let (items, trailing) ← commaSeparated (resource rules) (return true)
      if trailing then refuse else return items : Parser (List Tree))
  return .node (.withBlock items.length) line (items ++ (← suite rules))

/-- The handlers of a `try` statement, those of groups of errors if `grouped` holds. -/
def handler (rules : Rules) (grouped : Bool) : Parser Tree := do
  let line ← line
  word "except"
  if grouped then operator "*"
  if ← atOperator ":" then
    if grouped then refuse
    else return .node (.handler none false) line (← suite rules)
  else
    let type ← rules.expr .expression
    let id ← asName
    return .node (.handler id true) line (type :: (← suite rules))

def tryBlock (rules : Rules) (line : Nat) : Parser Tree := do
  let body ← suite rules
  let grouped ← (do
    match ← get with
    | t :: u :: _ => return t.kind = .name && t.text = "except".toList && u.isOperator "*"
    | _ => return false : Parser Bool)
  let handlers ← loop [] fun hs => do
    if ← atWord "except" then return some (hs ++ [← handler rules grouped]) else return none
  let orelse ← if handlers = [] then pure [] else otherwise rules
  let final ← (do if ← takeIf (atWord "finally") then suite rules
                  else if handlers = [] then throw (if ← atEnd then .atEnd else .unexpected)
                  else return [] : Parser (List Tree))
  return .node (.tryBlock body.length handlers.length orelse.length) line
    (body ++ handlers ++ orelse ++ final)

def function (rules : Rules) (line : Nat) (decorators : List Tree) : Parser Tree := do
  let id ← name
  operator "("
  let params ← Expression.parameters rules.expr true ")"
  operator ")"
  let result ← (do if ← takeIf (atOperator "->") then return [← rules.expr .expression]
                   else return [] : Parser (List Tree))
  let body ← suite rules
  return .node (.function id body.length) line (params :: body ++ decorators ++ result)

def classBlock (rules : Rules) (line : Nat) (decorators : List Tree) : Parser Tree := do
  let id ← name
  let bases ← (do
    if ← takeIf (atOperator "(") then Expression.arguments rules.expr false else return [] :
    Parser (List Tree))
  return .node (.classBlock id) line (bases ++ (← suite rules) ++ decorators)

/-- A statement behind `async`. -/
def asynchronous (rules : Rules) (line : Nat) (decorators : List Tree) : Parser Tree := do
  if ← takeIf (atWord "def") then function rules line decorators
  else if decorators ≠ [] then refuse
  else if ← takeIf (atWord "with") then withBlock rules line
  else if ← takeIf (atWord "for") then forLoop rules line
  else refuse

/-- A definition behind its decorators. -/
def decorated (rules : Rules) : Parser Tree := do
  let decorators ← loop [] fun ds => do
    if ← takeIf (atOperator "@") then
      let d ← rules.expr .named
      kind .newline
      return some (ds ++ [d])
    else return none
  let line ← line
  if ← takeIf (atWord "def") then function rules line decorators
  else if ← takeIf (atWord "class") then classBlock rules line decorators
  else if ← takeIf (atWord "async") then asynchronous rules line decorators
  else refuse

/-- One case of a `match` statement. -/
def matchCase (rules : Rules) : Parser Tree := do
  let line ← line
  word "case"
  let pattern ← rules.pattern .sequence
  let guard ← (do if ← takeIf (atWord "if") then return [← rules.expr .named] else return [] :
    Parser (List Tree))
  return .node .matchCase line (pattern :: guard ++ (← suite rules))

/-- The subject of a `match` statement, up to the end of the header's line. -/
def subject (rules : Rules) : Parser Tree := do
  word "match"
  let line ← line
  let (items, trailing) ← commaSeparated (Expression.starredOr rules.expr .named) Expression.begins
  operator ":"
  kind .newline
  match items, trailing with
  | [.node .starred _ _], false => refuse
  | [one], false => return one
  | _, _ => return .node .tuple line items

/-- The cases of a `match` statement whose header has been read. -/
def matchBlock (rules : Rules) (line : Nat) (subject : Tree) : Parser Tree := do
  if ← atKind .indent then
    skip
    let first ← matchCase rules
    let cases ← loop [first] fun cases => do
      if ← atWord "case" then return some (cases ++ [← matchCase rules]) else return none
    kind .dedent
    return .node .matchBlock line (subject :: cases)
  else throw (.missingBlock (← atEnd))

def statement (rules : Rules) : Parser (List Tree) := do
  let line ← line
  if ← takeIf (atWord "if") then return [← choice rules line]
  else if ← takeIf (atWord "while") then return [← whileLoop rules line]
  else if ← takeIf (atWord "for") then return [← forLoop rules line]
  else if ← takeIf (atWord "try") then return [← tryBlock rules line]
  else if ← takeIf (atWord "with") then return [← withBlock rules line]
  else if ← takeIf (atWord "def") then return [← function rules line []]
  else if ← takeIf (atWord "class") then return [← classBlock rules line []]
  else if ← takeIf (atWord "async") then return [← asynchronous rules line []]
  else if ← atOperator "@" then return [← decorated rules]
  else if ← atWord "match" then
    match ← attempt (subject rules) with
    | some s => return [← matchBlock rules line s]
    | none => simpleLine rules
  else simpleLine rules

/-! ### All rules -/

/-- The parser for a goal, rules nested at most `bound` deep. -/
def parse (expr : Goal → Parser Tree) (pattern : PatternGoal → Parser Tree) :
    Nat → StatementGoal → Parser (List Tree)
  | 0, _ => Parser.refuse
  | bound + 1, goal =>
    let rules : Rules := ⟨expr, pattern, parse expr pattern bound⟩
    match goal with
    | .statement => statement rules
    | .block => block rules

end Statement

end Code

end ServerPages
