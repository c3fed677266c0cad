import ServerPages.Code.Lexer
import ServerPages.Code.Tree

/-!
# Parsing tokens

A parser takes what it needs from the tokens that are left, or refuses.  This module holds the
refusals and the parsers for single tokens.
-/

namespace ServerPages

namespace Code

/-- Why tokens are no program. -/
inductive Refusal where
  /-- A token that does not belong where it stands. -/
  | unexpected
  /-- A change of indentation that does not belong where it stands. -/
  | indentation
  /-- A header is followed by no indented block, be it by no token at all. -/
  | missingBlock (atEnd : Bool)
  /-- The tokens end too soon. -/
  | atEnd
  deriving DecidableEq, Repr

/-- A parser: what it makes of the tokens that are left, and the tokens it leaves. -/
abbrev Parser := StateT (List Token) (Except Refusal)

namespace Parser

/-- Refuses the next token. -/
def refuse {α : Type} : Parser α := do
  match ← get with
  | [] => throw .atEnd
  | t :: _ => throw (if t.kind = .indent ∨ t.kind = .dedent then .indentation else .unexpected)

/-- The next token, if there is one. -/
def peek : Parser (Option Token) := return (← get).head?

/-- Takes the next token, whatever it is. -/
def skip : Parser Unit := modify List.tail

/-- The line of the next token. -/
def line : Parser Nat := do
  match ← peek with
  | some t => return t.line
  | none => return 0

/-- Whether the tokens begin with a given operator. -/
def atOperator (op : String) : Parser Bool := do
  match ← peek with
  | some t => return t.isOperator op
  | none => return false

/-- Whether the tokens begin with a given word. -/
def atWord (w : String) : Parser Bool := do
  match ← peek with
  | some t => return t.kind = .name && t.text = w.toList
  | none => return false

/-- Whether the tokens begin with a token of a given kind. -/
def atKind (k : TokenKind) : Parser Bool := do
  match ← peek with
  | some t => return t.kind = k
  | none => return false

/-- Whether no tokens are left. -/
def atEnd : Parser Bool := return (← get).isEmpty

/-- Takes the next token if it satisfies a test. -/
def takeIf (test : Parser Bool) : Parser Bool := do
  if ← test then
    skip
    return true
  else return false

/-- Takes a given operator, or refuses. -/
def operator (op : String) : Parser Unit := do
  unless ← takeIf (atOperator op) do refuse

/-- Takes a given word, or refuses. -/
def word (w : String) : Parser Unit := do
  unless ← takeIf (atWord w) do refuse

/-- Takes a token of a given kind, or refuses. -/
def kind (k : TokenKind) : Parser Unit := do
  unless ← takeIf (atKind k) do refuse

/-- The words that are no names. -/
def keywords : List Text :=
  ["False", "None", "True", "and", "as", "assert", "async", "await", "break", "class", "continue",
   "def", "del", "elif", "else", "except", "finally", "for", "from", "global", "if", "import",
   "in", "is", "lambda", "nonlocal", "not", "or", "pass", "raise", "return", "try", "while",
   "with", "yield"].map String.toList

/-- Whether a token is a name. -/
def isName (t : Token) : Bool := t.kind = .name && !keywords.contains t.text

/-- Whether the tokens begin with a name. -/
def atName : Parser Bool := do
  match ← peek with
  | some t => return isName t
  | none => return false

/-- Takes a name, or refuses. -/
def name : Parser Text := do
  match ← peek with
  | some t => if isName t then do skip; return t.identifier else refuse
  | none => refuse

/-- What a parser makes of the tokens if it does not refuse; if it does, no token is taken. -/
def attempt {α : Type} (p : Parser α) : Parser (Option α) := fun ts =>
  match p ts with
  | .ok (a, rest) => .ok (some a, rest)
  | .error _ => .ok (none, ts)

/-- Goes on from a value as long as a step gives another one, at most `limit` times. -/
def iterate {α : Type} (step : α → Parser (Option α)) : Nat → α → Parser α
  | 0, a => pure a
  | limit + 1, a => do
    match ← step a with
    | none => pure a
    | some b => iterate step limit b

/-- Goes on from a value as long as a step gives another one. -/
def loop {α : Type} (a : α) (step : α → Parser (Option α)) : Parser α := do
  iterate step ((← get).length + 1) a

/-- One or more items with commas between them, the first of which has been read; a comma may
stand behind the last item where `another` does not hold. -/
def commaSeparatedFrom {α : Type} (first : α) (item : Parser α) (another : Parser Bool) :
    Parser (List α × Bool) :=
  loop ([first], false) fun (items, trailing) => do
    if trailing then return none
    if ← takeIf (atOperator ",") then
      if ← another then return some (items ++ [← item], false)
      else return some (items, true)
    else return none

/-- One or more items with commas between them. -/
def commaSeparated {α : Type} (item : Parser α) (another : Parser Bool) :
    Parser (List α × Bool) := do
  commaSeparatedFrom (← item) item another

end Parser

end Code

end ServerPages
