import ServerPages.Text.Blank
import ServerPages.Text.Word
import ServerPages.Text.Identifier
import ServerPages.Text.Normal

/-!
# Tokens of page code

Page code is a text of tokens: names, numbers, operators and strings, comments, line ends, and
the changes of indentation at the beginnings of statements.  This module holds the tokens and
the lengths of the lexemes that spell them.
-/

namespace ServerPages

namespace Code

/-- What a token is. -/
inductive TokenKind where
  | name
  | number
  | string
  | operator
  | comment
  /-- The end of a statement's line. -/
  | newline
  /-- A line end that ends no statement. -/
  | blankLine
  | indent
  | dedent
  /-- A character, or an unfinished string, that spells no token. -/
  | stray
  deriving DecidableEq, Repr

/-- A token with the place where it begins: its line, counted from 1, and the number of
characters before it on that line. -/
structure Token where
  kind : TokenKind
  text : Text
  line : Nat
  column : Nat
  deriving DecidableEq, Repr

namespace Token

/-- The name that a token spells: names that agree in normal form are the same. -/
def identifier (t : Token) : Text := Text.normalForm t.text

/-- Whether a token says something: it is neither a comment, nor a line end, nor a change of
indentation. -/
def isSignificant (t : Token) : Bool :=
  match t.kind with
  | .name | .number | .string | .operator | .stray => true
  | _ => false

/-- Whether a token is a given operator. -/
def isOperator (t : Token) (op : String) : Bool := t.kind = .operator && t.text = op.toList

end Token

/-! ### Operators -/

/-- The operators of three characters, of two, and of one. -/
def operators : List Text :=
  ["**=", "...", "//=", "<<=", ">>=", "!=", "%=", "&=", "**", "*=", "+=", "-=", "->", "//", "/=",
   ":=", "<<", "<=", "==", ">=", ">>", "@=", "^=", "|=", "%", "&", "(", ")", "*", "+", ",", "-",
   ".", "/", ":", ";", "<", "=", ">", "@", "[", "]", "^", "\x7b", "|", "\x7d", "~"].map
    String.toList

/-- The length of the longest operator that begins a text. -/
def operatorLength (s : Text) : Nat :=
  match operators.find? fun op => Text.beginsWith op s with
  | some op => op.length
  | none => 0

/-! ### Numbers -/

/-- The length of the digits that go on a run, each of which may follow one underscore. -/
def digitTail (isDigit : Char → Bool) : Text → Nat
  | [] => 0
  | '_' :: d :: t => if isDigit d then 2 + digitTail isDigit t else 0
  | c :: t => if isDigit c then 1 + digitTail isDigit t else 0

/-- The length of the longest run of digits in which single underscores stand between digits;
0 if the text begins with no digit. -/
def digitRun (isDigit : Char → Bool) : Text → Nat
  | [] => 0
  | c :: s => if isDigit c then 1 + digitTail isDigit s else 0

/-- Whether a character is a decimal digit of ASCII. -/
def isDigit (c : Char) : Bool := '0' ≤ c && c ≤ '9'

/-- Whether a character is a hexadecimal digit. -/
def isHexDigit (c : Char) : Bool := isDigit c || ('a' ≤ c && c ≤ 'f') || ('A' ≤ c && c ≤ 'F')

/-- The length of the exponent that begins a text, 0 if none does. -/
def exponentLength : Text → Nat
  | c :: s =>
    if c = 'e' ∨ c = 'E' then
      match s with
      | d :: t =>
        if d = '+' ∨ d = '-' then
          if digitRun isDigit t = 0 then 0 else 2 + digitRun isDigit t
        else if digitRun isDigit s = 0 then 0 else 1 + digitRun isDigit s
      | [] => 0
    else 0
  | [] => 0

/-- The length of the mark of an imaginary number. -/
def imaginaryMark : Text → Nat
  | c :: _ => if c = 'j' ∨ c = 'J' then 1 else 0
  | [] => 0

/-- The length `n` of a number's beginning, with the imaginary mark that may follow it. -/
def withMark (s : Text) (n : Nat) : Nat := n + imaginaryMark (s.drop n)

/-- The length of the integer that begins a text whose first character is a digit. -/
def integerLength (s : Text) : Nat :=
  match s with
  | '0' :: b :: t =>
    let based :=
      if b = 'x' ∨ b = 'X' then digitTail isHexDigit t
      else if b = 'b' ∨ b = 'B' then digitTail (fun c => c = '0' || c = '1') t
      else if b = 'o' ∨ b = 'O' then digitTail (fun c => '0' ≤ c && c ≤ '7') t
      else 0
    if based = 0 then digitRun (· = '0') s else 2 + based
  | '0' :: [] => 1
  | _ => digitRun isDigit s

/-- The length of the number that begins a text, 0 if none does. -/
def numberLength (s : Text) : Nat :=
  let whole := digitRun isDigit s
  match s.drop whole with
  | '.' :: t =>
    let fraction := digitRun isDigit t
    if whole = 0 ∧ fraction = 0 then 0
    else
      let n := whole + 1 + fraction
      withMark s (n + exponentLength (s.drop n))
  | rest =>
    if whole = 0 then 0
    else if exponentLength rest = 0 then
      if imaginaryMark rest = 1 then whole + 1 else integerLength s
    else withMark s (whole + exponentLength rest)

/-! ### Strings -/

/-- Whether letters before a quotation mark say how a string is read. -/
def isStringPrefix (p : Text) : Bool :=
  let lower := p.map Char.toLower
  ["", "b", "r", "u", "f", "br", "rb", "fr", "rf"].any fun w => lower = w.toList

/-- The beginning of a string. -/
structure StringOpening where
  /-- The length of the letters before the quotation mark. -/
  lead : Nat
  mark : Char
  /-- Whether three marks open and close the string. -/
  triple : Bool
  deriving DecidableEq, Repr

/-- The length of a string's beginning. -/
def StringOpening.length (o : StringOpening) : Nat := o.lead + if o.triple then 3 else 1

/-- The beginning of the string that begins a text. -/
def stringOpening? (s : Text) : Option StringOpening :=
  [0, 1, 2].findSome? fun n =>
    match s.drop n with
    | q :: t =>
      if (q = '"' ∨ q = '\'') ∧ isStringPrefix (s.take n) then
        some ⟨n, q, Text.beginsWith [q, q] t⟩
      else none
    | [] => none

/-- The length of the rest of a string that three marks close, up to and with them. -/
def tripleRest (q : Char) : Text → Option Nat
  | [] => none
  | c :: s =>
    if c = '\\' then
      match s with
      | [] => none
      | _ :: t => (tripleRest q t).map (· + 2)
    else if c = q ∧ Text.beginsWith [q, q] s then some 3
    else (tripleRest q s).map (· + 1)

/-- How the rest of a string that one mark closes goes on in its line. -/
inductive LineString where
  /-- It is closed after a number of characters. -/
  | closed (length : Nat)
  /-- An escaped newline ends the line; the length is that up to and with the newline. -/
  | escaped (length : Nat)
  /-- Neither. -/
  | open
  deriving DecidableEq, Repr

/-- More characters before what a string goes on with. -/
def LineString.after (n : Nat) : LineString → LineString
  | .closed m => .closed (n + m)
  | .escaped m => .escaped (n + m)
  | .open => .open

/-- How the rest of a string goes on in its line. -/
def lineString (q : Char) : Text → LineString
  | [] => .open
  | c :: s =>
    if c = q then .closed 1
    else if c = '\n' then .open
    else if c = '\\' then
      match s with
      | '\n' :: _ => .escaped 2
      | '\r' :: '\n' :: _ => .escaped 3
      | _ :: t => (lineString q t).after 2
      | [] => .open
    else (lineString q s).after 1

end Code

end ServerPages
