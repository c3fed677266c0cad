import ServerPages.Code.Token
import ServerPages.Text.Letter

/-!
# String literals

The token of a string is its prefix, its marks and its body.  The body of a plain string is read
by its escapes; the body of a formatted one is cut into text and fields, and each field holds
the source of an expression.
-/

namespace ServerPages

namespace Code

/-- The parts of a string's token. -/
structure StringLiteral where
  raw : Bool
  bytes : Bool
  formatted : Bool
  body : Text
  deriving DecidableEq, Repr

namespace StringLiteral

/-- The parts of a string's token. -/
def ofToken (s : Text) : StringLiteral :=
  match stringOpening? s with
  | none => ⟨false, false, false, s⟩
  | some o =>
    let letters := (s.take o.lead).map Char.toLower
    let rest := s.drop o.length
    ⟨'r' ∈ letters, 'b' ∈ letters, 'f' ∈ letters,
      rest.take (rest.length - if o.triple then 3 else 1)⟩

/-! ### Escapes -/

/-- The value of a hexadecimal digit. -/
def hexValue (c : Char) : Nat :=
  if isDigit c then c.toNat - 48 else if c.toNat < 97 then c.toNat - 55 else c.toNat - 87

/-- The letter that `n` hexadecimal digits stand for. -/
def hexEscape (n : Nat) (s : Text) : Option (List Letter × Nat) :=
  let digits := s.take n
  if digits.length = n ∧ digits.all isHexDigit then
    let code := digits.foldl (fun v d => v * 16 + hexValue d) 0
    if code < 0x110000 then
      some ([if code.isValidChar then .char (Char.ofNat code) else .half code], n + 1)
    else none
  else none

/-- Whether a character is an octal digit. -/
def isOctal (c : Char) : Bool := '0' ≤ c && c ≤ '7'

/-- What an escape stands for, and how many characters behind the backslash belong to it; a
malformed escape stands for nothing. -/
def escape (bytes : Bool) (s : Text) : Option (List Letter × Nat) :=
  match s with
  | [] => some ([.char '\\'], 0)
  | c :: t =>
    if c = '\n' then some ([], 1)
    else if c = '\\' ∨ c = '\'' ∨ c = '"' then some ([.char c], 1)
    else if c = 'a' then some ([.char '\x07'], 1)
    else if c = 'b' then some ([.char '\x08'], 1)
    else if c = 'f' then some ([.char '\x0c'], 1)
    else if c = 'n' then some ([.char '\n'], 1)
    else if c = 'r' then some ([.char '\r'], 1)
    else if c = 't' then some ([.char '\t'], 1)
    else if c = 'v' then some ([.char '\x0b'], 1)
    else if c = 'x' then hexEscape 2 t
    else if isOctal c then
      let digits := (s.take 3).takeWhile isOctal
      some ([.char (Char.ofNat (digits.foldl (fun v d => v * 8 + (d.toNat - 48)) 0))], digits.length)
    else if bytes then some ([.char '\\', .char c], 1)
    else if c = 'u' then hexEscape 4 t
    else if c = 'U' then hexEscape 8 t
    else if c = 'N' then
      let name := (t.drop 1).takeWhile (· ≠ '\x7d')
      if Text.beginsWith ['\x7b'] t ∧ name ≠ [] ∧ name.length + 1 < t.length then
        some ([.char '\uFFFD'], name.length + 3)
      else none
    else some ([.char '\\', .char c], 1)

/-- The letters that a body stands for, `skip` characters of which have been read already. -/
def unescape (bytes : Bool) (skip : Nat) : Text → Option (List Letter)
  | [] => some []
  | c :: s =>
    match skip with
    | n + 1 => unescape bytes n s
    | 0 =>
      if c ≠ '\\' then (unescape bytes 0 s).map (.char c :: ·)
      else
        match escape bytes s with
        | none => none
        | some (value, n) => (unescape bytes n s).map (value ++ ·)

/-- The letters that a string stands for; none if it is malformed. -/
def value? (l : StringLiteral) : Option (List Letter) :=
  if l.bytes ∧ l.body.any (fun c => 0x80 ≤ c.toNat) then none
  else if l.raw then some (Letter.ofText l.body)
  else unescape l.bytes 0 l.body

/-! ### Fields -/

/-- A field of a formatted string: the source of its expression, the number of lines of the
string before it, and the fields of its format. -/
inductive Field where
  | mk (source : Text) (line : Nat) (format : List Field)
  deriving Repr

/-- The length of the expression that begins a field, up to the character that ends it. -/
def expressionLength (quote : Option (Char × Bool)) (brackets : List Char) (skip : Nat) :
    Text → Option Nat
  | [] => none
  | c :: s =>
    match skip with
    | n + 1 => (expressionLength quote brackets n s).map (· + 1)
    | 0 =>
      let go (quote : Option (Char × Bool)) (brackets : List Char) (skip : Nat) :=
        (expressionLength quote brackets skip s).map (· + 1)
      if c = '\\' then none
      else
        match quote with
        | some (q, triple) =>
          if c ≠ q then go quote brackets 0
          else if triple ∧ Text.beginsWith [q, q] s then go none brackets 2
          else go none brackets 0
        | none =>
          if c = '\'' ∨ c = '"' then
            if Text.beginsWith [c, c] s then go (some (c, true)) brackets 2
            else go (some (c, false)) brackets 0
          else if c = '(' ∨ c = '[' ∨ c = '\x7b' then go none (c :: brackets) 0
          else if c = '#' then none
          else
            match brackets with
            | [] =>
              if c ∈ ['!', '=', '<', '>'] ∧ Text.beginsWith ['='] s then go none [] 1
              else if c = '<' ∨ c = '>' then go none [] 0
              else if c ∈ ['!', ':', '\x7d', '='] then some 0
              else if c = ')' ∨ c = ']' then none
              else go none [] 0
            | b :: rest =>
              if c = ')' ∨ c = ']' ∨ c = '\x7d' then
                if (b = '(' ∧ c = ')') ∨ (b = '[' ∧ c = ']') ∨ (b = '\x7b' ∧ c = '\x7d') then
                  go none rest 0
                else none
              else go none brackets 0

/-- The length of the text before the next brace, in which a pair of braces stands for one if
`pairs` holds. -/
def literalLength (raw pairs : Bool) (skip : Nat) : Text → Nat
  | [] => 0
  | c :: s =>
    match skip with
    | n + 1 => literalLength raw pairs n s + 1
    | 0 =>
      if c = '\\' ∧ !raw then
        match s with
        | 'N' :: '\x7b' :: t =>
          literalLength raw pairs (3 + (t.takeWhile (· ≠ '\x7d')).length) s + 1
        | d :: _ => literalLength raw pairs (if d = '\x7b' ∨ d = '\x7d' then 0 else 1) s + 1
        | [] => 1
      else if c = '\x7b' ∨ c = '\x7d' then
        if pairs ∧ Text.beginsWith [c] s then literalLength raw pairs 1 s + 1 else 0
      else literalLength raw pairs 0 s + 1

/-- The white space of a text's beginning as far as it is ASCII. -/
def dropPlainBlanks (s : Text) : Text :=
  s.dropWhile fun c => c = ' ' || (9 ≤ c.toNat && c.toNat ≤ 13)

/-- The fields of a formatted string, and what follows them: nothing, or inside a format the
brace that closes it.  `depth` counts the formats around; `line` the lines before. -/
def fields (raw : Bool) : Nat → Nat → Nat → Text → Option (List Field × Text)
  | 0, _, _, _ => none
  | fuel + 1, depth, line, s =>
    let n := literalLength raw (depth = 0) 0 s
    let line := line + (s.take n).count '\n'
    match s.drop n with
    | [] => if depth = 0 then some ([], []) else none
    | c :: t =>
      if c = '\x7d' then if depth = 0 then none else some ([], c :: t)
      else if 2 ≤ depth then none
      else do
        let m ← expressionLength none [] 0 t
        let source := t.take m
        if source.all (fun c => c = ' ' || c = '\t' || c = '\n' || c = '\x0c' || c = '\r') then none
        else
          let rest := t.drop m
          let rest := match rest with
            | '=' :: u => dropPlainBlanks u
            | u => u
          let rest ← match rest with
            | '!' :: k :: u => if k = 's' ∨ k = 'r' ∨ k = 'a' then some u else none
            | '!' :: [] => none
            | u => some u
          let spent := fun (u : Text) => line + (s.drop n).count '\n' - u.count '\n'
          let (format, rest) ← match rest with
            | ':' :: u => fields raw fuel (depth + 1) (spent u) u
            | u => some ([], u)
          match rest with
          | '\x7d' :: u =>
            let (more, last) ← fields raw fuel depth (spent u) u
            some (.mk source line format :: more, last)
          | _ => none

/-- The fields of a formatted string; none if it is malformed. -/
def fields? (l : StringLiteral) : Option (List Field) :=
  match fields l.raw (l.body.length + 1) 0 0 l.body with
  | some (fs, []) => if l.raw ∨ (unescape false 0 l.body).isSome then some fs else none
  | _ => none

end StringLiteral

end Code

end ServerPages
