import ServerPages.Text.Quoted
import ServerPages.Text.Utf8
import ServerPages.Number.Binary64

/-!
# Values that pages write

A page writes values of a few kinds.  Bytes go out as they are; every other value goes out as
text.  A text stands for itself where it is written, and quoted inside a list or a table.
-/

namespace ServerPages

/-- A value that a page handles. -/
inductive Value where
  | none
  | bool (b : Bool)
  | int (n : Int)
  | real (r : Binary64)
  | text (s : Text)
  | bytes (s : Bytes)
  | list (items : List Value)
  | table (entries : List (Text × Value))
  deriving Repr, Inhabited

namespace Value

mutual

/-- A value as it stands inside a list or a table. -/
def quoted : Value → Text
  | .none => "None".toList
  | .bool true => "True".toList
  | .bool false => "False".toList
  | .int n => Decimal.ofInt n
  | .real r => r.text
  | .text s => Quoted.encode s
  | .bytes s => Quoted.encodeBytes s
  | .list items => '[' :: quotedItems items ++ [']']
  | .table entries => '\x7b' :: quotedEntries entries ++ ['\x7d']

/-- Items with commas between them. -/
def quotedItems : List Value → Text
  | [] => []
  | [v] => quoted v
  | v :: w :: rest => quoted v ++ ", ".toList ++ quotedItems (w :: rest)

/-- Entries with commas between them. -/
def quotedEntries : List (Text × Value) → Text
  | [] => []
  | [(k, v)] => Quoted.encode k ++ ": ".toList ++ quoted v
  | (k, v) :: e :: rest =>
    Quoted.encode k ++ ": ".toList ++ quoted v ++ ", ".toList ++ quotedEntries (e :: rest)

end

/-- A value as text. -/
def shown : Value → Text
  | .text s => s
  | v => quoted v

/-- A value as a page's body takes it: bytes as they are, anything else as text. -/
def written : Value → Bytes
  | .bytes s => s
  | v => Utf8.encode v.shown

/-- Whether a value counts as true: it is neither nothing, false, zero nor empty. -/
def isTrue : Value → Bool
  | .none => false
  | .bool b => b
  | .int n => n != 0
  | .real r => !r.isZero
  | .text s => !s.isEmpty
  | .bytes s => !s.isEmpty
  | .list items => !items.isEmpty
  | .table entries => !entries.isEmpty

/-- The name of a value's kind. -/
def kindName : Value → Text
  | .none => "NoneType".toList
  | .bool _ => "bool".toList
  | .int _ => "int".toList
  | .real _ => "float".toList
  | .text _ => "str".toList
  | .bytes _ => "bytes".toList
  | .list _ => "list".toList
  | .table _ => "dict".toList

end Value

end ServerPages
