import ServerPages.Code.Tail
import ServerPages.Page.Node
import ServerPages.Number.Decimal
import ServerPages.Text.Dedent
import ServerPages.Text.Quoted

/-!
# Laying out the body of a module

The nodes of a page become lines of a module's body, one node after the other.  Literal text and
expressions become calls that write; blocks become statements.  A block that ends with the colon
of a header opens a suite, and so does one that leaves off indented: what follows is placed
inside.  A block of nothing but comments closes the innermost suite, and so does one that
continues the statement before it.
-/

namespace ServerPages

/-- A module that is being laid out. -/
structure Layout where
  /-- The code of the module's top level, a piece for each `top` directive. -/
  top : List Text := []
  /-- The lines of the body. -/
  body : List Text := []
  /-- The column, counted from that of the body, at which the next fragment is placed. -/
  column : Nat := 0
  /-- The columns at which the open suites were opened, the innermost first. -/
  suites : List Nat := []
  deriving DecidableEq, Repr

namespace Layout

/-- The column at which the statements of a page begin. -/
def bodyIndent : Nat := 8

/-- The width of one more level of indentation. -/
def indentWidth : Nat := 4

/-- A line of code placed at a column; one of white space becomes an empty line. -/
def lineAt (column : Nat) (line : Text) : Text :=
  if Text.isAllBlank line then ['\n']
  else List.replicate (bodyIndent + column) ' ' ++ line ++ ['\n']

/-- Adds a line at the current column. -/
def emit (l : Layout) (line : Text) : Layout := { l with body := l.body ++ [lineAt l.column line] }

/-- Adds lines at the current column. -/
def emitAll (l : Layout) (lines : List Text) : Layout := lines.foldl emit l

/-- Closes the innermost suite, if one is open. -/
def closeSuite (l : Layout) : Layout :=
  match l.suites with
  | [] => l
  | column :: rest => { l with column := column, suites := rest }

/-- Opens a suite: what follows is placed `width` columns further in. -/
def openSuite (l : Layout) (width : Nat) : Layout :=
  { l with suites := l.column :: l.suites, column := l.column + width }

/-! ### Fragments -/

/-- The beginning of the call that writes a value. -/
def writeCall : Text := "gosp.fprint(gosp_out, ".toList

/-- The code of a directive as a unit: its lines without their common indentation. -/
def dedented (n : Node) : Text := Text.dedent (n.indent ++ n.text)

/-- Adds a call that writes literal text. -/
def placeText (l : Layout) (s : Text) : Layout :=
  if s.isEmpty then l else l.emit (writeCall ++ Quoted.encode s ++ [')'])

/-- A text without the newlines at both of its ends. -/
def trimNewlines (s : Text) : Text := Text.dropTrailing '\n' (Text.dropLeading '\n' s)

/-- Adds a call that writes the value of an expression and the white space behind it.  An
expression of several lines, or one that may hold a comment, stands on lines of its own, so that
neither a comment nor a line end swallows the closing bracket. -/
def placeExpr (l : Layout) (n : Node) : Layout :=
  let expr := Text.trim n.text
  let closing := ", ".toList ++ Quoted.encode n.trailing ++ [')']
  if '\n' ∈ expr ∨ '#' ∈ expr then
    let lines := Text.splitOn '\n' (trimNewlines (dedented n))
    let opened := l.emit (writeCall ++ ['('])
    let filled := opened.emitAll (lines.map (List.replicate indentWidth ' ' ++ ·))
    filled.emit (')' :: closing)
  else l.emit (writeCall ++ expr ++ closing)

/-- The top-level code of a directive, ended by a newline; nothing if it is all white space. -/
def topCode (n : Node) : Text :=
  if Text.isAllBlank n.text then []
  else
    let code := trimNewlines (dedented n)
    if code.isEmpty then [] else code ++ ['\n']

/-- The lines of a block, without the lines of white space at both ends. -/
def blockLines (n : Node) : List Text :=
  let lines := (Text.splitOn '\n' (dedented n)).dropWhile Text.isAllBlank
  (lines.reverse.dropWhile Text.isAllBlank).reverse

/-- Whether a line holds nothing but a comment or white space. -/
def isInsignificant (line : Text) : Bool :=
  Text.isAllBlank line || Text.beginsWith ['#'] (Text.trimLeft line)

/-- The words that continue the statement whose suite stands before them. -/
def continuationWords : List Text :=
  ["else".toList, "elif".toList, "except".toList, "finally".toList]

/-- Whether a line begins with a word that continues a statement. -/
def continues (line : Text) : Bool :=
  continuationWords.any fun w =>
    match Text.after? w (Text.trimLeft line) with
    | some rest => Text.atWordEnd rest
    | none => false

/-- Opens the suite in which the code after a block stands, if the block leaves one open. -/
def follow (l : Layout) (tail : Code.Tail) : Layout :=
  if tail.opens then (l.openSuite (tail.column + indentWidth)).emit "pass".toList
  else if tail.column = 0 then l
  else l.openSuite tail.column

/-- Adds the statements of a block. -/
def placeBlock (l : Layout) (n : Node) : Layout :=
  let lines := blockLines n
  if lines.isEmpty then l
  else
    match lines.find? (!isInsignificant ·) with
    | none => l.closeSuite.emitAll lines
    | some first =>
      let l := if continues first then l.closeSuite else l
      (l.emitAll lines).follow (Code.Tail.ofCode (Text.joinWith ['\n'] lines))

/-- A node that a module cannot hold. -/
structure Misplaced where
  kind : Kind
  line : Nat
  deriving DecidableEq, Repr

/-- A misplaced node in words. -/
def Misplaced.message (m : Misplaced) : Text :=
  "Unexpected ".toList ++ m.kind.word ++ " node on line ".toList ++ Decimal.ofNat m.line

/-- Adds a node of a page. -/
def place (l : Layout) (n : Node) : Except Misplaced Layout :=
  match n.kind with
  | .text => .ok (l.placeText n.text)
  | .top => .ok { l with top := l.top ++ [topCode n] }
  | .block => .ok (l.placeBlock n)
  | .expr => .ok (l.placeExpr n)
  | .incl => .error ⟨n.kind, n.line⟩

/-- The layout of a page's nodes. -/
def ofNodes (nodes : List Node) : Except Misplaced Layout := nodes.foldlM place {}

end Layout

end ServerPages
