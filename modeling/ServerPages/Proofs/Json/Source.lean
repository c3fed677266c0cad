import ServerPages.Json.Reader

/-!
# JSON as it is written

The grammar of JSON texts as syntax trees: every tree spells a text (`Source.text`), and every
JSON text is spelled by one. Blanks, escapes and the digits of numbers are kept as they are
written. There are no constants but `null`, `true` and `false`.

A tree has a meaning (`Source.denote`), which bounds the nesting and the digits of integers; it
does not mention how texts are read.
-/

namespace ServerPages

namespace Json

/-- Blanks between tokens. -/
structure Blanks where
  text : Text
  all : ∀ c ∈ text, isSpace c = true

/-! ### Constants -/

/-- The constants of JSON. -/
inductive Constant where
  | null
  | true
  | false

/-- A constant as it is written. -/
def Constant.text : Constant → Text
  | .null => "null".toList
  | .true => "true".toList
  | .false => "false".toList

/-- What a constant denotes. -/
def Constant.json : Constant → Json
  | .null => .null
  | .true => .bool Bool.true
  | .false => .bool Bool.false

/-! ### Strings -/

/-- A part of a string as it is written: a character, an escape with one letter, or an escape
with the four digits of a code. -/
inductive Mark where
  | plain (c : Char) (quote : c ≠ '"') (backslash : c ≠ '\\') (control : ¬ c.toNat < 0x20)
  | escape (c e : Char) (h : escaped? c = some e)
  | code (a b c d : Char) (n : Nat) (h : hexFour? a b c d = some n)

/-- A part of a string as text. -/
def Mark.text : Mark → Text
  | .plain c .. => [c]
  | .escape c .. => ['\\', c]
  | .code a b c d .. => ['\\', 'u', a, b, c, d]

/-- The parts of a string, and the closing quote. -/
def closedText (marks : List Mark) : Text := marks.flatMap Mark.text ++ ['"']

/-- The letters that a string denotes: two codes that make up a surrogate pair are one letter. -/
def letters : List Mark → List Letter
  | [] => []
  | .plain c .. :: rest => .char c :: letters rest
  | .escape _ e _ :: rest => .char e :: letters rest
  | .code _ _ _ _ n _ :: .code a b c d m h :: rest =>
    if isHigh n && isLow m then joinPair n m :: letters rest
    else letterOf n :: letters (.code a b c d m h :: rest)
  | .code _ _ _ _ n _ :: rest => letterOf n :: letters rest

/-! ### Numbers -/

/-- A row of digits, at least one. -/
structure Digits where
  text : Text
  ne_nil : text ≠ []
  all : ∀ c ∈ text, Decimal.isDigit c = true

/-- The exponent of a number as it is written. -/
structure Exponent where
  mark : Char
  isMark : mark = 'e' ∨ mark = 'E'
  sign : Text
  isSign : sign = [] ∨ sign = ['+'] ∨ sign = ['-']
  digits : Digits

/-- An exponent as text. -/
def Exponent.text (e : Exponent) : Text := e.mark :: (e.sign ++ e.digits.text)

/-- A number as it is written. -/
structure NumberText where
  negative : Bool
  whole : Digits
  /-- Zero stands alone. -/
  lead : whole.text = ['0'] ∨ whole.text.head? ≠ some '0'
  fraction : Option Digits
  exponent : Option Exponent

namespace NumberText

/-- The sign of a number. -/
def signText (n : NumberText) : Text := if n.negative then ['-'] else []

/-- The point and the digits behind it. -/
def fractionText (n : NumberText) : Text :=
  match n.fraction with
  | none => []
  | some ds => '.' :: ds.text

/-- The exponent of a number. -/
def exponentText (n : NumberText) : Text :=
  match n.exponent with
  | none => []
  | some e => e.text

/-- A number as text. -/
def text (n : NumberText) : Text :=
  n.signText ++ (n.whole.text ++ (n.fractionText ++ n.exponentText))

/-- The parts of a number. -/
def numeral (n : NumberText) : Numeral where
  negative := n.negative
  whole := n.whole.text
  fraction := (n.fraction.map Digits.text).getD []
  exponent := n.exponent.map fun e => (e.sign = ['-'], e.digits.text)

end NumberText

/-! ### Values -/

mutual

/-- A value as it is written. -/
inductive Source where
  | constant (c : Constant)
  | number (n : NumberText)
  | string (marks : List Mark)
  | emptyArray (inside : Blanks)
  | array (before : Blanks) (items : Items)
  | emptyObject (inside : Blanks)
  | object (before : Blanks) (members : Members)

/-- The items of an array and its closing bracket as they are written. -/
inductive Items where
  | last (v : Source) (after : Blanks)
  | more (v : Source) (after before : Blanks) (rest : Items)

/-- The members of an object and its closing brace as they are written. -/
inductive Members where
  | last (name : List Mark) (colon before : Blanks) (v : Source) (after : Blanks)
  | more (name : List Mark) (colon before : Blanks) (v : Source) (after next : Blanks)
      (rest : Members)

end

mutual

/-- A value as text. -/
def Source.text : Source → Text
  | .constant c => c.text
  | .number n => n.text
  | .string marks => '"' :: closedText marks
  | .emptyArray inside => '[' :: (inside.text ++ [']'])
  | .array before items => '[' :: (before.text ++ items.text)
  | .emptyObject inside => '\x7b' :: (inside.text ++ ['\x7d'])
  | .object before members => '\x7b' :: (before.text ++ members.text)

/-- The items of an array and its closing bracket as text. -/
def Items.text : Items → Text
  | .last v after => v.text ++ (after.text ++ [']'])
  | .more v after before rest => v.text ++ (after.text ++ ',' :: (before.text ++ rest.text))

/-- The members of an object and its closing brace as text. -/
def Members.text : Members → Text
  | .last name colon before v after =>
    '"' :: (closedText name ++ (colon.text ++ ':' :: (before.text ++
      (v.text ++ (after.text ++ ['\x7d'])))))
  | .more name colon before v after next rest =>
    '"' :: (closedText name ++ (colon.text ++ ':' :: (before.text ++
      (v.text ++ (after.text ++ ',' :: (next.text ++ rest.text))))))

end

mutual

/-- What a value denotes, if containers may nest `depth` deep. -/
def Source.denote : Nat → Source → Except Refusal Json
  | _, .constant c => .ok c.json
  | _, .number n => n.numeral.value
  | _, .string marks => .ok (.string (letters marks))
  | 0, .emptyArray _ | 0, .array _ _ | 0, .emptyObject _ | 0, .object _ _ => .error .tooDeep
  | _ + 1, .emptyArray _ => .ok (.array [])
  | depth + 1, .array _ items => (items.denote depth).map .array
  | _ + 1, .emptyObject _ => .ok (.object [])
  | depth + 1, .object _ members => (members.denote depth).map ofMembers

/-- What the items of an array denote. -/
def Items.denote (depth : Nat) : Items → Except Refusal (List Json)
  | .last v _ => (v.denote depth).map ([·])
  | .more v _ _ rest => do
    let j ← v.denote depth
    return j :: (← rest.denote depth)

/-- What the members of an object denote. -/
def Members.denote (depth : Nat) : Members → Except Refusal (List (List Letter × Json))
  | .last name _ _ v _ => (v.denote depth).map fun j => [(letters name, j)]
  | .more name _ _ v _ _ rest => do
    let j ← v.denote depth
    return (letters name, j) :: (← rest.denote depth)

end

mutual

/-- The numbers in a value. -/
def Source.numbers : Source → List NumberText
  | .number n => [n]
  | .array _ items => items.numbers
  | .object _ members => members.numbers
  | _ => []

/-- The numbers in the items of an array. -/
def Items.numbers : Items → List NumberText
  | .last v _ => v.numbers
  | .more v _ _ rest => v.numbers ++ rest.numbers

/-- The numbers in the members of an object. -/
def Members.numbers : Members → List NumberText
  | .last _ _ _ v _ => v.numbers
  | .more _ _ _ v _ _ rest => v.numbers ++ rest.numbers

end

/-- Whether a value is an object. -/
def Source.IsObject : Source → Prop
  | .emptyObject _ | .object _ _ => True
  | _ => False

/-- A number whose digits before the point are no more than an integer may have. -/
def NumberText.IsShort (n : NumberText) : Prop := n.whole.text.length ≤ Decimal.digitLimit

end Json

end ServerPages
