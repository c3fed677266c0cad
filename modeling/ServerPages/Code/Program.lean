import ServerPages.Code.Grammar.Statement

/-!
# Programs

The text of a program is read into tokens and the tokens are parsed into a tree.  Where both
fail, what the parser meets first decides, except that a lexeme which no program may hold
outweighs a missing block before it.
-/

namespace ServerPages

namespace Code

/-- Why a text is no program. -/
inductive ProgramError where
  | syntaxFault
  | indentationFault
  /-- Tabs and spaces are mixed so that the indentation is unclear. -/
  | tabFault
  | nullCharacter
  deriving DecidableEq, Repr

namespace Program

/-- What a fault of reading says of the program. -/
def ofFault : LexFault → ProgramError
  | .badDedent | .tooDeep => .indentationFault
  | .tabs => .tabFault
  | .openStatement | .openString | .brokenContinuation | .malformed => .syntaxFault

/-- What a refusal says of the program whose tokens stop with a fault or at its end. -/
def ofRefusal (fault : Option LexFault) : Refusal → ProgramError
  | .unexpected => .syntaxFault
  | .indentation => .indentationFault
  | .atEnd => (fault.map ofFault).getD .syntaxFault
  | .missingBlock true => (fault.map ofFault).getD .indentationFault
  | .missingBlock false =>
    if fault = some .malformed ∨ fault = some .openString then .syntaxFault
    else .indentationFault

/-- The nesting of rules that a text can reach. -/
def bound (s : Text) : Nat := 20 * s.length + 100

/-- The statements of a program up to the end of its tokens. -/
def statements (s : Text) : Parser (List Tree) := do
  let expr := Expression.parse (bound s)
  let pattern := Pattern.parse expr (bound s)
  let rules := Statement.parse expr pattern (bound s)
  Parser.loop [] fun done => do
    if ← Parser.atEnd then return none
    else return some (done ++ (← rules .statement))

/-- The tree of a program. -/
def parse (s : Text) : Except ProgramError Tree :=
  if '\x00' ∈ s then .error .nullCharacter
  else
    let (tokens, fault) := programTokens s
    let significant := tokens.filter fun t => t.kind ≠ .comment ∧ t.kind ≠ .blankLine
    match (statements s).run significant with
    | .error r => .error (ofRefusal fault r)
    | .ok (body, _) =>
      match fault with
      | some f => .error (ofFault f)
      | none => .ok (.node .module 1 body)

end Program

end Code

end ServerPages
