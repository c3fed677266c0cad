import ServerPages.Code.Grammar.Basic
import ServerPages.Code.Literal
import ServerPages.Number.Decimal

/-!
# The grammar of expressions

Each rule of the grammar is a parser that is given the parsers of the other rules (`Rules`).
The rules are tied together by recursion on a bound for their nesting (`Expression.parse`).
-/

namespace ServerPages

namespace Code

/-- What can be asked of the grammar of expressions. -/
inductive Goal where
  /-- An expression, or a name given a value on the way. -/
  | named
  | expression
  | disjunction
  | conjunction
  | inversion
  | comparison
  /-- An operation that binds at least as tightly as a level, from 0 for the loosest. -/
  | operation (level : Nat)
  | factor
  | primary
  | atom
  /-- Expressions with commas between them, some of them unpacked. -/
  | expressions
  /-- What a `for` gives values to. -/
  | targets
  /-- A `yield` with what it yields. -/
  | yielding
  deriving DecidableEq, Repr

namespace Expression

open Code.Parser

/-- The parsers of the rules. -/
abbrev Rules := Goal → Parser Tree

/-- Whether the next token may begin an expression or an unpacked one. -/
def begins : Parser Bool := do
  match ← peek with
  | none => return false
  | some t =>
    match t.kind with
    | .number | .string => return true
    | .name => return isName t ||
        ["False", "None", "True", "await", "lambda", "not"].any (t.text = ·.toList)
    | .operator => return ["(", "[", "\x7b", "+", "-", "~", "...", "*"].any (t.text = ·.toList)
    | _ => return false

/-! ### Operations -/

/-- The binary operators from the loosest level to the tightest. -/
def levels : List (List String) :=
  [["|"], ["^"], ["&"], ["<<", ">>"], ["+", "-"], ["*", "/", "//", "%", "@"]]

/-- Takes one of some operators, if one comes next. -/
def takeOperator (ops : List String) : Parser (Option Text) := do
  match ← peek with
  | some t =>
    if t.kind = .operator ∧ ops.any (t.text = ·.toList) then
      skip
      return some t.text
    else return none
  | none => return none

def operation (rules : Rules) (level : Nat) : Parser Tree := do
  let line ← line
  match levels[level]? with
  | none => rules .factor
  | some ops =>
    let left ← rules (.operation (level + 1))
    loop left fun left => do
      match ← takeOperator ops with
      | none => return none
      | some op => return some (.node (.binary op) line [left, ← rules (.operation (level + 1))])

/-- Takes an operator that compares, if one comes next. -/
def takeComparison : Parser (Option Text) := do
  match ← takeOperator ["==", "!=", "<=", "<", ">=", ">"] with
  | some op => return some op
  | none =>
    if ← takeIf (atWord "in") then return some "in".toList
    else if ← takeIf (atWord "is") then
      if ← takeIf (atWord "not") then return some "is not".toList
      else return some "is".toList
    else
      match ← get with
      | t :: u :: rest =>
        if t.kind = .name ∧ t.text = "not".toList ∧ u.kind = .name ∧ u.text = "in".toList then
          set rest
          return some "not in".toList
        else return none
      | _ => return none

def comparison (rules : Rules) : Parser Tree := do
  let line ← line
  let first ← rules (.operation 0)
  let (ops, operands) ← loop ([], [first]) fun (ops, operands) => do
    match ← takeComparison with
    | none => return none
    | some op => return some (ops ++ [op], operands ++ [← rules (.operation 0)])
  return if ops = [] then first else .node (.comparison ops) line operands

/-- Operands with a word between them. -/
def connected (w : String) (operand : Parser Tree) : Parser Tree := do
  let line ← line
  let first ← operand
  let operands ← loop [first] fun operands => do
    if ← takeIf (atWord w) then return some (operands ++ [← operand]) else return none
  return match operands with
    | [one] => one
    | _ => .node (.connective w.toList) line operands

def inversion (rules : Rules) : Parser Tree := do
  let line ← line
  if ← takeIf (atWord "not") then
    return .node (.unary "not".toList) line [← rules .inversion]
  else rules .comparison

def factor (rules : Rules) : Parser Tree := do
  let line ← line
  match ← takeOperator ["+", "-", "~"] with
  | some op => return .node (.unary op) line [← rules .factor]
  | none =>
    let base ← rules .primary
    if ← takeIf (atOperator "**") then
      return .node (.binary "**".toList) line [base, ← rules .factor]
    else return base

/-- Whether an item, `enclosed` in brackets or not, is more than one plain expression. -/
def isLoose (enclosed : Bool) : Tree → Bool
  | .node .starred _ _ => true
  | .node .named _ _ => !enclosed
  | _ => false

/-- An item that may be unpacked, where others are parsed by `item`. -/
def starredOr (rules : Rules) (item : Goal) : Parser Tree := do
  let line ← line
  if ← takeIf (atOperator "*") then return .node .starred line [← rules (.operation 0)]
  else rules item

/-! ### Parameters -/

/-- Parameters as they are read. -/
structure Parameters where
  positional : List Tree := []
  rest : Option Tree := none
  named : List Tree := []
  namedDefaults : List Tree := []
  keywords : Option Tree := none
  defaults : List Tree := []
  names : List Text := []
  /-- Whether the mark that ends the parameters given by place alone has been read. -/
  slash : Bool := false
  /-- Whether a star has been read. -/
  star : Bool := false
  /-- Whether a parameter must follow the star. -/
  owing : Bool := false

/-- One parameter: its name and, if it may have one, its annotation. -/
def parameter (rules : Rules) (annotated unpacked : Bool) : Parser (Text × Tree) := do
  let line ← line
  let id ← name
  if annotated then
    if ← takeIf (atOperator ":") then
      if unpacked then
        return (id, .node (.parameter id) line [← starredOr rules .expression])
      else return (id, .node (.parameter id) line [← rules .expression])
  return (id, .node (.parameter id) line [])

/-- One item of a list of parameters. -/
def parameterItem (rules : Rules) (annotated : Bool) (p : Parameters) : Parser Parameters := do
  if p.keywords.isSome then refuse
  else if ← atOperator "/" then
    if p.slash ∨ p.star ∨ p.positional = [] then refuse
    else
      skip
      return { p with slash := true }
  else if ← takeIf (atOperator "**") then
    if p.owing then refuse
    else
      let (id, tree) ← parameter rules annotated false
      return { p with keywords := some tree, names := p.names ++ [id] }
  else if ← atOperator "*" then
    if p.star then refuse
    else
      skip
      if ← atOperator "," then return { p with star := true, owing := true }
      else
        let (id, tree) ← parameter rules annotated true
        return { p with star := true, rest := some tree, names := p.names ++ [id] }
  else
    let (id, tree) ← parameter rules annotated false
    let value ← (do if ← takeIf (atOperator "=") then return some (← rules .expression)
                    else return none : Parser (Option Tree))
    let p := { p with names := p.names ++ [id] }
    if p.star then
      return { p with named := p.named ++ [tree], owing := false,
                      namedDefaults := p.namedDefaults ++ value.toList }
    else
      match value with
      | some v => return { p with positional := p.positional ++ [tree],
                                  defaults := p.defaults ++ [v] }
      | none =>
        if p.defaults = [] then return { p with positional := p.positional ++ [tree] }
        else throw .unexpected

/-- Parameters up to what closes them. -/
def parameters (rules : Rules) (annotated : Bool) (closing : String) : Parser Tree := do
  let line ← line
  let (p, _) ← loop (({} : Parameters), true) fun (p, more) => do
    if !more ∨ (← atOperator closing) then return none
    else
      let p ← parameterItem rules annotated p
      let more ← takeIf (atOperator ",")
      if !more ∧ !(← atOperator closing) then refuse
      else return some (p, more)
  if p.owing then refuse
  else
    return .node (.arguments p.names) line
      (p.positional ++ p.rest.toList ++ p.named ++ p.namedDefaults ++ p.keywords.toList ++
        p.defaults)

/-! ### Expressions -/

def lambda (rules : Rules) : Parser Tree := do
  let line ← line
  word "lambda"
  let params ← parameters rules false ":"
  operator ":"
  return .node .lambda line [params, ← rules .expression]

def expression (rules : Rules) : Parser Tree := do
  let line ← line
  if ← atWord "lambda" then lambda rules
  else
    let body ← rules .disjunction
    if ← takeIf (atWord "if") then
      let test ← rules .disjunction
      word "else"
      return .node .conditional line [test, body, ← rules .expression]
    else return body

def named (rules : Rules) : Parser Tree := do
  match ← get with
  | t :: u :: rest =>
    if isName t ∧ u.isOperator ":=" then
      set rest
      return .node .named t.line [.node (.name t.identifier) t.line [], ← rules .expression]
    else rules .expression
  | _ => rules .expression

def expressions (rules : Rules) : Parser Tree := do
  let line ← line
  let (items, trailing) ← commaSeparated (starredOr rules .expression) begins
  return match items, trailing with
    | [one], false => one
    | _, _ => .node .tuple line items

def yielding (rules : Rules) : Parser Tree := do
  let line ← line
  word "yield"
  if ← takeIf (atWord "from") then return .node .yielded line [← rules .expression]
  else if ← begins then return .node .yielded line [← rules .expressions]
  else return .node .yielded line []

/-! ### Targets -/

mutual

/-- Whether a value can be given to an expression; one in a list of targets may be unpacked. -/
def isTarget (unpacked : Bool) : Tree → Bool
  | .node (.name _) _ _ => true
  | .node (.attribute _) _ _ => true
  | .node .subscript _ _ => true
  | .node .starred _ [t] => unpacked && isTarget false t
  | .node .tuple _ ts => areTargets ts
  | .node .list _ ts => areTargets ts
  | _ => false

/-- Whether values can be given to expressions in a list. -/
def areTargets : List Tree → Bool
  | [] => true
  | t :: ts => isTarget true t && areTargets ts

end

/-- Whether a value can be given to an expression that is one name, attribute or item. -/
def isSingleTarget : Tree → Bool
  | .node (.name _) _ _ => true
  | .node (.attribute _) _ _ => true
  | .node .subscript _ _ => true
  | _ => false

def targets (rules : Rules) : Parser Tree := do
  let line ← line
  let (items, trailing) ←
    commaSeparated (starredOr rules (.operation 0)) (return !(← atWord "in"))
  if items.all (isTarget true) then
    return match items, trailing with
      | [one], false => one
      | _, _ => .node .tuple line items
  else throw .unexpected

/-! ### Comprehensions -/

/-- Whether a clause of a comprehension comes next. -/
def atClause : Parser Bool := do
  match ← get with
  | t :: u :: _ =>
    let isWord (t : Token) (w : String) : Bool := t.kind = .name && t.text = w.toList
    return isWord t "for" || (isWord t "async" && isWord u "for")
  | [t] => return t.kind = .name && t.text = "for".toList
  | [] => return false

/-- One clause: what is given values, what they come from, and the tests on them. -/
def clause (rules : Rules) : Parser Tree := do
  let line ← line
  let _ ← takeIf (atWord "async")
  word "for"
  let target ← rules .targets
  word "in"
  let source ← rules .disjunction
  let tests ← loop [] fun tests => do
    if ← takeIf (atWord "if") then return some (tests ++ [← rules .disjunction]) else return none
  return .node .generator line (target :: source :: tests)

/-- The clauses of a comprehension behind its elements. -/
def clauses (rules : Rules) : Parser (List Tree) :=
  loop [] fun cs => do
    if ← atClause then return some (cs ++ [← clause rules]) else return none

/-! ### Calls and items -/

/-- The arguments of a call as they are read. -/
structure Arguments where
  positional : List Tree := []
  keywords : List Tree := []
  /-- Whether an argument with a name has been read. -/
  named : Bool := false
  /-- Whether an unpacked table has been read. -/
  unpacked : Bool := false

/-- One argument of a call. -/
def argument (rules : Rules) (a : Arguments) : Parser Arguments := do
  let line ← line
  if ← takeIf (atOperator "**") then
    let value ← rules .expression
    return { a with keywords := a.keywords ++ [.node (.keyword none) line [value]], named := true,
                    unpacked := true }
  else if ← atOperator "*" then
    if a.unpacked then refuse
    else
      skip
      let value ← rules .expression
      return { a with positional := a.positional ++ [.node .starred line [value]] }
  else
    match ← get with
    | t :: u :: rest =>
      if isName t ∧ u.isOperator "=" then
        set rest
        let value ← rules .expression
        let keyword : Tree := .node (.keyword (some t.identifier)) line [value]
        return { a with keywords := a.keywords ++ [keyword], named := true }
      else if a.named then refuse
      else return { a with positional := a.positional ++ [← rules .named] }
    | _ => refuse

/-- The arguments of a call, the opening bracket taken already.  If `generator` holds, they may
be one comprehension without brackets of its own. -/
def arguments (rules : Rules) (generator : Bool) : Parser (List Tree) := do
  let (a, _) ← loop (({} : Arguments), true) fun (a, more) => do
    if !more ∨ (← atOperator ")") then return none
    else
      let a ← argument rules a
      if (← atClause) ∧ !a.named ∧ a.positional.length = 1 then return some (a, false)
      else
        let more ← takeIf (atOperator ",")
        if !more ∧ !(← atOperator ")") then refuse
        else return some (a, more)
  match a.positional, ← atClause with
  | [.node .starred _ _], true => refuse
  | [element], true =>
    if !generator then refuse
    let cs ← clauses rules
    operator ")"
    return [.node .comprehension element.line (element :: cs)]
  | _, _ =>
    operator ")"
    return a.positional ++ a.keywords

/-- One item between square brackets. -/
def sliceItem (rules : Rules) : Parser Tree := do
  let line ← line
  let bound : Parser (List Tree) := do
    if (← atOperator ":") ∨ (← atOperator ",") ∨ (← atOperator "]") then return []
    else return [← rules .expression]
  if ← takeIf (atOperator "*") then return .node .starred line [← rules .expression]
  else
    let enclosed ← atOperator "("
    let lower ← (do if ← atOperator ":" then return [] else return [← rules .named] :
      Parser (List Tree))
    if ← atOperator ":" then
      if lower.any (isLoose enclosed) then refuse
      skip
      let upper ← bound
      let step ← (do if ← takeIf (atOperator ":") then bound else return [] : Parser (List Tree))
      return .node .slice line (lower ++ upper ++ step)
    else
      match lower with
      | [one] => return one
      | _ => refuse

/-- What stands between square brackets behind a value. -/
def slices (rules : Rules) : Parser Tree := do
  let line ← line
  let (items, trailing) ← commaSeparated (sliceItem rules) (return !(← atOperator "]"))
  operator "]"
  return match items, trailing with
    | [.node .starred l ps], false => .node .tuple line [.node .starred l ps]
    | [one], false => one
    | _, _ => .node .tuple line items

/-- An atom with the attributes, calls and items behind it. -/
def operand (rules : Rules) : Parser Tree := do
  let start ← line
  let first ← rules .atom
  loop first fun value => do
    if ← takeIf (atOperator ".") then
      return some (.node (.attribute (← name)) start [value])
    else if ← takeIf (atOperator "(") then
      return some (.node .call start (value :: (← arguments rules true)))
    else if ← takeIf (atOperator "[") then
      return some (.node .subscript start [value, ← slices rules])
    else return none

def primary (rules : Rules) : Parser Tree := do
  let line ← line
  if ← takeIf (atWord "await") then return .node .awaited line [← operand rules]
  else operand rules

/-! ### Atoms -/

/-- The number that a token spells, if it is a whole one. -/
def wholeNumber (s : Text) : Option Nat :=
  let digits := s.filter (· ≠ '_')
  let based (base : Nat) (ds : Text) : Nat :=
    ds.foldl (fun v d => v * base + StringLiteral.hexValue d) 0
  match digits.map Char.toLower with
  | '0' :: 'x' :: ds => some (based 16 ds)
  | '0' :: 'o' :: ds => some (based 8 ds)
  | '0' :: 'b' :: ds => some (based 2 ds)
  | ds => if ds.all isDigit then some (based 10 ds) else none

def number (t : Token) : Parser Tree := do
  match wholeNumber t.text with
  | some n =>
    if t.text.all (fun c => isDigit c || c = '_') ∧
        Decimal.digitLimit < (t.text.filter isDigit).length then throw .unexpected
    else return .node (.constant (.int n)) t.line []
  | none => return .node (.constant .other) t.line []

mutual

/-- The expressions in the fields of a formatted string that begins on a line. -/
def fields (rules : Rules) (line : Nat) : List StringLiteral.Field → Parser (List Tree)
  | [] => return []
  | f :: fs => return (← field rules line f) :: (← fields rules line fs)

/-- The expression in a field, with those of its format. -/
def field (rules : Rules) (line : Nat) : StringLiteral.Field → Parser Tree
  | .mk source before format => do
    let start : LexState := { line := line + before }
    let (ts, fault) := scan .strict' start true ('(' :: source ++ [')', '\n'])
    if fault.isSome then throw .unexpected
    else
      let ts := ts.filter fun t => t.kind ≠ .comment ∧ t.kind ≠ .blankLine
      match (rules .expressions).run ts with
      | .ok (value, [t]) =>
        if t.kind = .newline then
          return .node .formatted line [value, .node .joined line (← fields rules line format)]
        else throw .unexpected
      | _ => throw .unexpected

end

/-- The string that neighbouring tokens make together. -/
def strings (rules : Rules) : Parser Tree := do
  let line ← line
  let ts ← loop [] fun ts => do
    match ← peek with
    | some t => if t.kind = .string then do skip; return some (ts ++ [t]) else return none
    | none => return none
  let literals := ts.map fun t => (StringLiteral.ofToken t.text, t.line)
  if literals.any (·.1.bytes) then
    if literals.all fun l => l.1.bytes && l.1.value?.isSome then
      return .node (.constant .other) line []
    else throw .unexpected
  else if literals.any (·.1.formatted) then
    let parts ← literals.mapM fun (l, line) => do
      if l.formatted then
        match l.fields? with
        | some fs => fields rules line fs
        | none => throw .unexpected
      else if l.value?.isSome then return []
      else throw .unexpected
    return .node .joined line parts.flatten
  else
    match literals.mapM (·.1.value?) with
    | some values => return .node (.constant (.ofLetters values.flatten)) line []
    | none => throw .unexpected

/-- What a round bracket opens, the bracket taken already. -/
def parenthesised (rules : Rules) (line : Nat) : Parser Tree := do
  if ← takeIf (atOperator ")") then return .node .tuple line []
  else if ← atWord "yield" then
    let value ← rules .yielding
    operator ")"
    return value
  else
    let first ← starredOr rules .named
    let isStarred := match first with
      | .node .starred _ _ => true
      | _ => false
    if ← atOperator "," then
      skip
      if ← takeIf (atOperator ")") then return .node .tuple line [first]
      else
        let (items, _) ← commaSeparated (starredOr rules .named) begins
        operator ")"
        return .node .tuple line (first :: items)
    else if isStarred then refuse
    else if ← atClause then
      let cs ← clauses rules
      operator ")"
      return .node .comprehension line (first :: cs)
    else
      operator ")"
      return first

/-- What a square bracket opens, the bracket taken already. -/
def bracketed (rules : Rules) (line : Nat) : Parser Tree := do
  if ← takeIf (atOperator "]") then return .node .list line []
  else
    let (items, trailing) ← commaSeparated (starredOr rules .named) begins
    match items, trailing, ← atClause with
    | [.node .starred _ _], false, true => refuse
    | [first], false, true =>
      let cs ← clauses rules
      operator "]"
      return .node .comprehension line (first :: cs)
    | _, _, _ =>
      operator "]"
      return .node .list line items

/-- One entry between curly brackets: a key, if it has one, and a value. -/
def entry (rules : Rules) : Parser (Option Tree × Tree) := do
  if ← takeIf (atOperator "**") then return (none, ← rules (.operation 0))
  else
    let key ← rules .expression
    operator ":"
    return (some key, ← rules .expression)

/-- A table whose first entry has been read, the opening bracket before it. -/
def table (rules : Rules) (line : Nat) (first : Option Tree × Tree) : Parser Tree := do
  let (entries, trailing) ← commaSeparatedFrom first (entry rules)
    (return (← begins) || (← atOperator "**"))
  match entries, trailing, ← atClause with
  | [(none, _)], false, true => refuse
  | [(some key, value)], false, true =>
    let cs ← clauses rules
    operator "\x7d"
    return .node .comprehension line (key :: value :: cs)
  | _, _, _ =>
    operator "\x7d"
    return .node .collection line (entries.filterMap (·.1) ++ entries.map (·.2))

/-- What a curly bracket opens, the bracket taken already. -/
def braced (rules : Rules) (line : Nat) : Parser Tree := do
  if ← takeIf (atOperator "\x7d") then return .node .collection line []
  else if ← atOperator "**" then table rules line (← entry rules)
  else
    let enclosed ← atOperator "("
    let first ← starredOr rules .named
    if ← atOperator ":" then
      if isLoose enclosed first then refuse
      else
        skip
        table rules line (some first, ← rules .expression)
    else
      let (items, trailing) ← commaSeparatedFrom first (starredOr rules .named) begins
      match items, trailing, ← atClause with
      | [.node .starred _ _], false, true => refuse
      | [first], false, true =>
        let cs ← clauses rules
        operator "\x7d"
        return .node .comprehension line (first :: cs)
      | _, _, _ =>
        operator "\x7d"
        return .node .collection line items

def atom (rules : Rules) : Parser Tree := do
  match ← peek with
  | none => refuse
  | some t =>
    match t.kind with
    | .number => do skip; number t
    | .string => strings rules
    | .name =>
      if isName t then do skip; return .node (.name t.identifier) t.line []
      else if t.text = "None".toList then do skip; return .node (.constant .none) t.line []
      else if t.text = "True".toList then do skip; return .node (.constant (.bool true)) t.line []
      else if t.text = "False".toList then do
        skip
        return .node (.constant (.bool false)) t.line []
      else refuse
    | .operator =>
      if t.text = ['('] then do skip; parenthesised rules t.line
      else if t.text = ['['] then do skip; bracketed rules t.line
      else if t.text = ['\x7b'] then do skip; braced rules t.line
      else if t.text = "...".toList then do skip; return .node (.constant .other) t.line []
      else refuse
    | _ => refuse

/-! ### All rules -/

/-- The rule for a goal. -/
def rule (rules : Rules) : Goal → Parser Tree
  | .named => named rules
  | .expression => expression rules
  | .disjunction => connected "or" (rules .conjunction)
  | .conjunction => connected "and" (rules .inversion)
  | .inversion => inversion rules
  | .comparison => comparison rules
  | .operation level => operation rules level
  | .factor => factor rules
  | .primary => primary rules
  | .atom => atom rules
  | .expressions => expressions rules
  | .targets => targets rules
  | .yielding => yielding rules

/-- The parser for a goal, rules nested at most `bound` deep. -/
def parse : Nat → Rules
  | 0, _ => Parser.refuse
  | bound + 1, goal => rule (parse bound) goal

end Expression

end Code

end ServerPages
