import ServerPages.Code.Token

/-!
# Reading tokens

Code is read from left to right, a line at a time.  At the beginning of a statement the white
space before it is measured and compared with the indentations that are open; inside brackets
and after a continued line it is skipped.

There are two dialects.  The lenient one serves to see how code ends, whatever it is: what
spells no token is kept as a stray.  The strict one serves to parse code and stops at the first
thing that no program may hold.
-/

namespace ServerPages

namespace Code

/-- How code is read. -/
structure Dialect where
  /-- The characters of which names are made. -/
  isNameChar : Char → Bool
  /-- Whether reading stops at what no program may hold. -/
  strict : Bool

namespace Dialect

/-- Reads any text. -/
def lenient : Dialect := ⟨Text.isWord, false⟩

/-- Reads programs. -/
def strict' : Dialect := ⟨fun c => Text.isPlainWord c || 0x80 ≤ c.toNat, true⟩

end Dialect

/-- Why tokens stop before the end of code. -/
inductive LexFault where
  /-- The text ends inside brackets or after a continued line. -/
  | openStatement
  /-- The text ends inside a string. -/
  | openString
  /-- A statement begins at an indentation that is not open. -/
  | badDedent
  /-- Whether two lines are indented alike depends on the width of a tab. -/
  | tabs
  /-- Too many indentations are open. -/
  | tooDeep
  /-- A backslash continues no line. -/
  | brokenContinuation
  /-- A lexeme, or a bracket, that no program may hold. -/
  | malformed
  deriving DecidableEq, Repr

/-- Whether a character may stand between tokens. -/
def isPad (c : Char) : Bool := c == ' ' || c == '\t' || c == '\x0c'

/-! ### Indentation -/

/-- The white space before a statement: its width with tab stops every eight columns, its width
when a tab counts as one, and its length in characters. -/
structure Margin where
  width : Nat := 0
  tabless : Nat := 0
  length : Nat := 0
  deriving DecidableEq, Repr

/-- A margin with one more character of white space. -/
def Margin.push (m : Margin) (c : Char) : Margin :=
  if c = '\t' then ⟨(m.width / 8 + 1) * 8, m.tabless + 1, m.length + 1⟩
  else if c = '\x0c' then ⟨0, 0, m.length + 1⟩
  else ⟨m.width + 1, m.tabless + 1, m.length + 1⟩

/-- The margin that begins a text. -/
def margin (s : Text) : Margin := (s.takeWhile isPad).foldl Margin.push {}

/-- The margin of a program's statement, which may be split over continued lines: the first
backslash behind white space settles the width.  `settled` is that width, 0 if none is settled
yet.  There is no margin if such a backslash continues no line. -/
def splitMargin (settled : Nat) (m : Margin) : Text → Option Margin
  | '\\' :: '\n' :: c :: s =>
    splitMargin (if settled = 0 then m.width else settled) { m with length := m.length + 2 }
      (c :: s)
  | '\\' :: _ => none
  | c :: s =>
    if isPad c then splitMargin settled (m.push c) s
    else if settled = 0 then some m else some ⟨settled, settled, m.length⟩
  | [] => if settled = 0 then some m else some ⟨settled, settled, m.length⟩

/-! ### State -/

/-- Where reading stands. -/
structure LexState where
  line : Nat := 1
  column : Nat := 0
  /-- The widths of the indentations that are open, the innermost first, each with the width
  when a tab counts as one. -/
  indents : List (Nat × Nat) := []
  /-- How many more brackets have been opened than closed. -/
  depth : Int := 0
  /-- The brackets that are open, the innermost first. -/
  brackets : List Char := []
  deriving DecidableEq, Repr

namespace LexState

/-- The place behind a text. -/
def advance (st : LexState) (s : Text) : LexState :=
  let newlines := s.count '\n'
  if newlines = 0 then { st with column := st.column + s.length }
  else { st with line := st.line + newlines, column := (Text.lastPiece '\n' s).length }

/-- A token that begins here. -/
def token (st : LexState) (kind : TokenKind) (s : Text) : Token := ⟨kind, s, st.line, st.column⟩

/-- The innermost width that is open. -/
def width (st : LexState) : Nat × Nat := st.indents.headD (0, 0)

/-- The most indentations a program may have open. -/
def indentLimit : Nat := 99

/-- The most brackets a program may have open. -/
def bracketLimit : Nat := 200

/-- The tokens and the indentations that follow when a statement begins behind a margin.  The
state is that behind the margin. -/
def settle (strict : Bool) (m : Margin) (lead : Text) (st : LexState) :
    Except LexFault (List Token × LexState) :=
  let (top, topTabless) := st.width
  if top < m.width then
    if strict ∧ indentLimit ≤ st.indents.length then .error .tooDeep
    else if strict ∧ m.tabless ≤ topTabless then .error .tabs
    else
      .ok ([⟨.indent, lead, st.line, 0⟩],
        { st with indents := (m.width, m.tabless) :: st.indents })
  else
    let kept := st.indents.dropWhile fun i => m.width < i.1
    let (outer, outerTabless) := kept.headD (0, 0)
    if outer ≠ m.width then .error .badDedent
    else if strict ∧ m.tabless ≠ outerTabless then .error .tabs
    else
      .ok (List.replicate (st.indents.length - kept.length) (st.token .dedent []),
        { st with indents := kept })

/-- Whether a closing bracket belongs to an opening one. -/
def closes (opening closing : Char) : Bool :=
  (opening = '(' && closing = ')') || (opening = '[' && closing = ']') ||
    (opening = '\x7b' && closing = '\x7d')

/-- The state after an operator. -/
def bracket (strict : Bool) (st : LexState) (op : Text) : Except LexFault LexState :=
  match op with
  | [c] =>
    if c = '(' ∨ c = '[' ∨ c = '\x7b' then
      if strict ∧ bracketLimit ≤ st.brackets.length then .error .malformed
      else .ok { st with depth := st.depth + 1, brackets := c :: st.brackets }
    else if c = ')' ∨ c = ']' ∨ c = '\x7d' then
      match st.brackets with
      | b :: rest =>
        if strict ∧ !closes b c then .error .malformed
        else .ok { st with depth := st.depth - 1, brackets := rest }
      | [] => if strict then .error .malformed else .ok { st with depth := st.depth - 1 }
    else .ok st
  | _ => .ok st

/-- What follows at the end of the text: the indentations still open are closed, unless the end
comes inside a statement. -/
def finish (st : LexState) (continued : Bool) : List Token × Option LexFault :=
  if st.depth ≠ 0 ∨ continued then ([], some .openStatement)
  else (List.replicate st.indents.length (st.token .dedent []), none)

end LexState

/-! ### Lexemes -/

/-- What begins a text that does not begin with white space. -/
inductive Lexeme where
  | token (kind : TokenKind) (length : Nat)
  /-- A newline, and whether a carriage return stands before it. -/
  | lineEnd (length : Nat)
  /-- A backslash that continues the line. -/
  | continuation (length : Nat)
  | fault (f : LexFault)
  | stray
  deriving DecidableEq, Repr

/-- The length of the closing of a string on a line. -/
def closingIn (q : Char) : Text → Option Nat
  | [] => none
  | c :: s =>
    if c = q then some 1
    else if c = '\\' then
      match s with
      | [] => none
      | d :: t => if d = '\n' then none else (closingIn q t).map (· + 2)
    else (closingIn q s).map (· + 1)

/-- Whether a line ends with a backslash before its newline. -/
def endsEscaped (line : Text) : Bool :=
  Text.endsWith ['\\', '\n'] line || Text.endsWith ['\\', '\r', '\n'] line

/-- The string that goes on over lines, after `n` characters. -/
def continuedString (q : Char) (n : Nat) : List Text → Lexeme
  | [] => .fault .openString
  | line :: rest =>
    match closingIn q line with
    | some m => .token .string (n + m)
    | none =>
      if endsEscaped line then continuedString q (n + line.length) rest
      else .token .stray (n + line.length)

/-- The string behind an opening. -/
def stringLexeme (o : StringOpening) (s : Text) : Option Lexeme :=
  let body := s.drop o.length
  if o.triple then
    match tripleRest o.mark body with
    | some n => some (.token .string (o.length + n))
    | none => some (.fault .openString)
  else
    match lineString o.mark body with
    | .closed n => some (.token .string (o.length + n))
    | .escaped n => some (continuedString o.mark (o.length + n) (Text.lines (body.drop n)))
    | .open => none

/-- Whether a number may be followed by a text without a blank: by no digit, and by a name only
if that begins like a word operator. -/
def mayFollowNumber (d : Dialect) (number s : Text) : Bool :=
  match s with
  | [] => true
  | c :: _ =>
    if isDigit c then false
    else if d.isNameChar c then
      (["and", "else", "for", "if", "in", "is", "or", "not"].any fun w =>
        Text.beginsWith w.toList s) && !(c = 'o' && number = ['0'])
    else true

/-- The lexeme of a name, if one begins the text. -/
def nameLexeme (d : Dialect) (s : Text) : Lexeme :=
  match s.takeWhile d.isNameChar with
  | [] => .stray
  | c :: t =>
    if d.strict then
      if Text.isIdentifier (c :: t) then .token .name (t.length + 1) else .fault .malformed
    else .token (if Text.isIdentifierStart c then .name else .operator) (t.length + 1)

/-- What begins a text that does not begin with white space. -/
def lexeme (d : Dialect) (s : Text) : Lexeme :=
  match s with
  | '\\' :: '\n' :: _ => .continuation 2
  | '\\' :: '\r' :: '\n' :: _ => .continuation 3
  | '\n' :: _ => .lineEnd 1
  | '\r' :: '\n' :: _ => .lineEnd 2
  | '#' :: t => .token .comment (1 + (t.takeWhile fun c => c ≠ '\r' ∧ c ≠ '\n').length)
  | _ =>
    let number := numberLength s
    if number ≠ 0 then
      if d.strict ∧ !mayFollowNumber d (s.take number) (s.drop number) then .fault .malformed
      else .token .number number
    else
      match (stringOpening? s).bind (stringLexeme · s) with
      | some l => l
      | none =>
        if operatorLength s ≠ 0 then .token .operator (operatorLength s)
        else nameLexeme d s

/-- What becomes of a character that spells no token: a program may hold a few of them as far as
its tokens go. -/
def strayLexeme (d : Dialect) (c : Char) : Except LexFault TokenKind :=
  if !d.strict then .ok .stray
  else if c ∈ ['$', '?', '!', '\x60'] then .ok .operator
  else if c = '\\' then .error .brokenContinuation
  else .error .malformed

/-! ### Lines -/

/-- The length of a line without its newline, and that of the comment that begins it. -/
def blankLine (s : Text) : Nat × Nat :=
  let line := s.takeWhile (· ≠ '\n')
  if Text.beginsWith ['#'] s then
    (line.length, (line.reverse.dropWhile (· = '\r')).length)
  else (line.length, 0)

/-- The tokens of a text, and why they stop if they do before its end.  At the beginning of a
line `fresh` holds. -/
def scan (d : Dialect) (st : LexState) (fresh : Bool) (s : Text) :
    List Token × Option LexFault :=
  if fresh then
    match s with
    | [] => st.finish false
    | c :: t =>
      if st.depth ≠ 0 then scan d st false (c :: t)
      else
        match if d.strict then splitMargin 0 {} (c :: t) else some (margin (c :: t)) with
        | none => ([], some .brokenContinuation)
        | some m =>
          let lead := (c :: t).take m.length
          let st := st.advance lead
          match h : (c :: t).drop m.length with
          | [] => st.finish false
          | e :: u =>
            have : u.length < t.length + 1 := by
              have := congrArg List.length h
              simp at this; omega
            if e = '#' ∨ e = '\r' ∨ e = '\n' then
              let (length, comment) := blankLine (e :: u)
              let line := (e :: u).take length
              let tail := st.advance (line.take comment)
              let marks := if comment = 0 then [] else [st.token .comment (line.take comment)]
              let (tokens, fault) := scan d (st.advance (line ++ ['\n'])) true (u.drop length)
              (marks ++ tail.token .blankLine (line.drop comment ++ ['\n']) :: tokens, fault)
            else
              match st.settle d.strict m lead with
              | .error f => ([], some f)
              | .ok (marks, st) =>
                let (tokens, fault) := scan d st false (e :: u)
                (marks ++ tokens, fault)
  else
    let before := st
    let st := st.advance (s.takeWhile isPad)
    match h : s.dropWhile isPad with
    | [] =>
      let (tokens, fault) := st.finish false
      (st.token .newline [] :: tokens, fault)
    | c :: t =>
      have : t.length < s.length := by
        have := (List.dropWhile_suffix isPad (l := s)).length_le
        rw [h] at this
        exact Nat.lt_of_succ_le this
      match lexeme d (c :: t) with
      | .fault f => ([], some f)
      | .lineEnd n =>
        let spelled := c :: t.take (n - 1)
        let kind : TokenKind := if 0 < st.depth then .blankLine else .newline
        let (tokens, fault) := scan d (st.advance spelled) true (t.drop (n - 1))
        (st.token kind spelled :: tokens, fault)
      | .continuation n =>
        let st := st.advance (c :: t.take (n - 1))
        match h : t.drop (n - 1) with
        | [] => st.finish true
        | e :: u =>
          have : u.length + 1 ≤ t.length := by
            have := congrArg List.length h
            simp at this; omega
          scan d st false (e :: u)
      | .token kind n =>
        let spelled := c :: t.take (n - 1)
        match (if kind = .operator then st.bracket d.strict spelled else .ok st) with
        | .error f => ([], some f)
        | .ok after =>
          let next := after.advance spelled
          let (tokens, fault) := scan d next (kind = .stray) (t.drop (n - 1))
          (st.token kind spelled :: tokens, fault)
      | .stray =>
        match s with
        | [] => st.finish false
        | p :: rest =>
          match (if d.strict ∧ isPad p then strayLexeme d c else strayLexeme d p) with
          | .error f => ([], some f)
          | .ok kind =>
            if d.strict then
              let (tokens, fault) := scan d (st.advance [c]) false t
              (st.token kind [c] :: tokens, fault)
            else
              let (tokens, fault) := scan d (before.advance [p]) false rest
              (before.token kind [p] :: tokens, fault)
termination_by 2 * s.length + fresh.toNat
decreasing_by
  all_goals simp_all [Bool.toNat]
  all_goals try omega
  cases decide (_ = TokenKind.stray) <;> simp <;> omega

/-- The tokens of any text, and why they stop if they do before its end. -/
def tokens (s : Text) : List Token × Option LexFault := scan .lenient {} true s

/-- A text with a newline at its end, unless it is empty. -/
def closeLine (s : Text) : Text := if s = [] ∨ Text.endsWith ['\n'] s then s else s ++ ['\n']

/-- The tokens of a program, and why they stop if they do before its end. -/
def programTokens (s : Text) : List Token × Option LexFault :=
  scan .strict' {} true (closeLine (Text.unifyNewlines s))

end Code

end ServerPages
