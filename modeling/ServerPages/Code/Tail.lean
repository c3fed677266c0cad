import ServerPages.Code.Lexer

/-!
# How code ends

A block of statements either ends with the colon of a header, and so opens a suite, or it leaves
off at some column: that of its last statement, or of a comment behind it.
-/

namespace ServerPages

namespace Code

/-- How code ends. -/
structure Tail where
  /-- Whether the last token is the colon that opens a suite. -/
  opens : Bool
  /-- The column at which the code leaves off. -/
  column : Nat
  deriving DecidableEq, Repr

namespace Tail

/-- What has been seen of code that is read token by token. -/
structure Seen where
  last : Option Token := none
  /-- The column of the last statement. -/
  column : Nat := 0
  /-- The column of the last comment that stands on a line of its own behind all statements. -/
  comment : Option Nat := none
  /-- Whether the next token begins a statement. -/
  atStart : Bool := true
  deriving DecidableEq, Repr

/-- What has been seen after one more token. -/
def Seen.step (seen : Seen) (t : Token) : Seen :=
  match t.kind with
  | .newline => { seen with atStart := true }
  | .comment => if seen.atStart then { seen with comment := some t.column } else seen
  | .blankLine | .indent | .dedent => seen
  | .name | .number | .string | .operator | .stray =>
    { last := some t, column := if seen.atStart then t.column else seen.column, comment := none,
      atStart := false }

/-- The width of the white space that begins the last line of a text, newlines at its end not
counted. -/
def lastMargin (code : Text) : Nat :=
  (Text.leadingBlanks (Text.lastPiece '\n' (Text.dropTrailing '\n' code))).length

/-- How code ends.  Where its tokens break off, the column is that of its last line. -/
def ofCode (code : Text) : Tail :=
  let (tokens, fault) := tokens code
  let seen := tokens.foldl Seen.step {}
  let opens := match seen.last with
    | some t => t.isOperator ":"
    | none => false
  match fault with
  | some _ => ⟨opens, lastMargin code⟩
  | none => ⟨opens, if opens then seen.column else seen.comment.getD seen.column⟩

end Tail

end Code

end ServerPages
