import ServerPages.Text.Quoted
import ServerPages.Text.Utf8
import ServerPages.Number.Decimal

/-!
# Character sets of files

The character sets a page may name when it opens a file, what it does with bytes or characters
that the set does not have, and how it treats line ends.
-/

namespace ServerPages

/-- A character set. -/
inductive Charset where
  | utf8
  | latin1
  | ascii
  deriving DecidableEq, Repr

namespace Charset

/-- The character set with a name; case, underscores and hyphens do not matter. -/
def ofName? (name : Text) : Option Charset :=
  let plain := (name.map Char.toLower).filter fun c => c != '-' && c != '_' && c != ' '
  let oneOf (names : List String) : Bool := names.any (·.toList = plain)
  if oneOf ["utf8", "u8", "utf", "cp65001"] then some .utf8
  else if oneOf ["latin1", "iso88591", "8859", "cp819", "latin", "l1", "iso8859"] then some .latin1
  else if oneOf ["ascii", "usascii", "646", "us", "ansix3.41968"] then some .ascii
  else none

/-- The first code point beyond a set of single bytes. -/
def bound : Charset → Nat
  | .utf8 => 0x110000
  | .latin1 => 0x100
  | .ascii => 0x80

/-- The name of a set in messages. -/
def name : Charset → Text
  | .utf8 => "utf-8".toList
  | .latin1 => "latin-1".toList
  | .ascii => "ascii".toList

end Charset

/-- What is done with bytes or characters outside the set. -/
inductive Outsiders where
  | strict
  | ignore
  | replace
  | backslash
  /-- Characters are spelled by their numbers; there is no such way to mend bytes. -/
  | reference
  | unknown (name : Text)
  deriving DecidableEq, Repr

/-- Why bytes are no text in a set, or a text has no bytes. -/
inductive CharsetError where
  | refused (message : Text)
  /-- The treatment of outsiders does not apply to bytes. -/
  | unsuited
  | unknownTreatment (name : Text)
  deriving DecidableEq, Repr

namespace Outsiders

/-- The treatment with a name. -/
def ofName (name : Text) : Outsiders :=
  if name = "strict".toList then .strict
  else if name = "ignore".toList then .ignore
  else if name = "replace".toList then .replace
  else if name = "backslashreplace".toList then .backslash
  else if name = "xmlcharrefreplace".toList then .reference
  else .unknown name

/-- What stands for bytes that are no character; `refusal` says why, if they are refused. -/
def mend (o : Outsiders) (bytes : Bytes) (refusal : Text) : Except CharsetError Text :=
  match o with
  | .strict => .error (.refused refusal)
  | .ignore => .ok []
  | .replace => .ok ['\uFFFD']
  | .backslash => .ok (bytes.flatMap fun b => '\\' :: 'x' :: Quoted.hex 2 b.toNat)
  | .reference => .error .unsuited
  | .unknown name => .error (.unknownTreatment name)

/-- The spelling of a character by its number in hexadecimal. -/
def escaped (c : Char) : Text :=
  if c.toNat ≤ 0xFF then '\\' :: 'x' :: Quoted.hex 2 c.toNat
  else if c.toNat ≤ 0xFFFF then '\\' :: 'u' :: Quoted.hex 4 c.toNat
  else '\\' :: 'U' :: Quoted.hex 8 c.toNat

/-- What stands for a character that the set does not have; `refusal` says why, if it is
refused. -/
def spell (o : Outsiders) (c : Char) (refusal : Text) : Except CharsetError Text :=
  match o with
  | .strict => .error (.refused refusal)
  | .ignore => .ok []
  | .replace => .ok ['?']
  | .backslash => .ok (escaped c)
  | .reference => .ok ('&' :: '#' :: Decimal.ofNat c.toNat ++ [';'])
  | .unknown name => .error (.unknownTreatment name)

end Outsiders

namespace Charset

/-- Decodes UTF-8, mending what is wrong; `tries` bounds the number of mended places. -/
def decodeUtf8 (outsiders : Outsiders) : Nat → Nat → Bytes → Except CharsetError Text
  | 0, _, _ => .ok []
  | tries + 1, position, bytes =>
    match Utf8.decode bytes with
    | .ok s => .ok s
    | .error fault => do
      let refusal := { fault with position := position + fault.position }.message
      let stand ← outsiders.mend ((bytes.drop fault.position).take fault.width) refusal
      let used := fault.position + fault.width
      match Utf8.decode (bytes.take fault.position) with
      | .error f => .error (.refused f.message)
      | .ok before =>
        return before ++ stand ++ (← decodeUtf8 outsiders tries (position + used) (bytes.drop used))

/-- Why a byte or a run of characters is refused: it is out of a set's range. -/
def outOfRange (set : Charset) : Text :=
  ": ordinal not in range(".toList ++ Decimal.ofNat set.bound ++ [')']

/-- Decodes a set of single bytes. -/
def decodeSingle (set : Charset) (outsiders : Outsiders) :
    Nat → Bytes → Except CharsetError Text
  | _, [] => .ok []
  | position, b :: rest => do
    let stand ← if b.toNat < set.bound then .ok [Char.ofNat b.toNat]
      else outsiders.mend [b] ("'".toList ++ set.name ++ "' codec can't decode byte 0x".toList ++
        Utf8.hexPair b ++ " in position ".toList ++ Decimal.ofNat position ++ set.outOfRange)
    return stand ++ (← decodeSingle set outsiders (position + 1) rest)

/-- The text that bytes stand for in a set, or why they stand for none. -/
def decode (set : Charset) (outsiders : Outsiders) (bytes : Bytes) : Except CharsetError Text :=
  match set with
  | .utf8 => decodeUtf8 outsiders (bytes.length + 1) 0 bytes
  | _ => decodeSingle set outsiders 0 bytes

/-- Why a text cannot be written in a set of single bytes: the run of characters at fault, seen
from their position. -/
def refusal (set : Charset) (position : Nat) (c : Char) (rest : Text) : Text :=
  let run := 1 + (rest.takeWhile fun c => set.bound ≤ c.toNat).length
  "'".toList ++ set.name ++ "' codec can't encode character".toList ++
    (if run = 1 then
      " '".toList ++ Outsiders.escaped c ++ "' in position ".toList ++ Decimal.ofNat position
    else
      "s in position ".toList ++ Decimal.ofNat position ++ '-' ::
        Decimal.ofNat (position + run - 1)) ++ set.outOfRange

/-- The bytes of a text that begins at a position, or why it has none. -/
def encodeFrom (set : Charset) (outsiders : Outsiders) :
    Nat → Text → Except CharsetError Bytes
  | _, [] => .ok []
  | position, c :: rest => do
    let bytes ← if set = .utf8 then .ok (Utf8.encodeChar c)
      else if c.toNat < set.bound then .ok [UInt8.ofNat c.toNat]
      else (outsiders.spell c (set.refusal position c rest)).map fun s : Text =>
        s.map fun c => UInt8.ofNat c.toNat
    return bytes ++ (← encodeFrom set outsiders (position + 1) rest)

/-- The bytes of a text in a set, or why it has none. -/
def encode (set : Charset) (outsiders : Outsiders) (s : Text) : Except CharsetError Bytes :=
  encodeFrom set outsiders 0 s

end Charset

/-- How line ends are treated: `none` reads every line end as a newline and writes newlines as
they are; a given text is written for each newline, and nothing is changed on reading. -/
abbrev LineEnd := Option Text

namespace LineEnd

/-- Whether a text may be given as a line end. -/
def isKnown (s : Text) : Bool :=
  s = [] || s = ['\n'] || s = ['\r'] || s = ['\r', '\n']

/-- A text as read. -/
def afterReading (e : LineEnd) (s : Text) : Text :=
  match e with
  | none => Text.unifyNewlines s
  | some _ => s

/-- A text as written. -/
def beforeWriting (e : LineEnd) (s : Text) : Text :=
  match e with
  | some ['\r'] => s.map fun c => if c = '\n' then '\r' else c
  | some ['\r', '\n'] => s.flatMap fun c => if c = '\n' then ['\r', '\n'] else [c]
  | _ => s

end LineEnd

end ServerPages
