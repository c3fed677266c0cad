import ServerPages.Text.Basic

/-!
# UTF-8

Encoding and strict decoding.  A decoding failure says where it stands, how many bytes it spans
and why: a byte that can begin no character, a byte that cannot continue the character begun, or
bytes that end inside a character.  The last one alone can be mended by more bytes.
-/

namespace ServerPages

namespace Utf8

/-- Why bytes are no UTF-8. -/
inductive Reason where
  /-- The byte begins no character. -/
  | invalidStart
  /-- The character begun is not continued as it must be. -/
  | invalidContinuation
  /-- The bytes end inside a character. -/
  | unexpectedEnd
  deriving DecidableEq, Repr

/-- The wording of a reason. -/
def Reason.text : Reason → Text
  | .invalidStart => "invalid start byte".toList
  | .invalidContinuation => "invalid continuation byte".toList
  | .unexpectedEnd => "unexpected end of data".toList

/-- A place where bytes are no UTF-8. -/
structure Fault where
  reason : Reason
  /-- The offset of the first byte at fault. -/
  position : Nat
  /-- The first byte at fault. -/
  byte : UInt8
  /-- The number of bytes at fault, at least one. -/
  width : Nat
  deriving DecidableEq, Repr

/-- Two lower-case hexadecimal digits. -/
def hexPair (b : UInt8) : Text :=
  [Nat.digitChar (b.toNat / 16), Nat.digitChar (b.toNat % 16)]

/-- The wording of a decoding failure. -/
def Fault.message (f : Fault) : Text :=
  "'utf-8' codec can't decode ".toList ++
    (if f.width = 1 then
      "byte 0x".toList ++ hexPair f.byte ++ " in position ".toList ++ Nat.toDigits 10 f.position
    else
      "bytes in position ".toList ++ Nat.toDigits 10 f.position ++ ['-'] ++
        Nat.toDigits 10 (f.position + f.width - 1)) ++
    ": ".toList ++ f.reason.text

/-- The bytes of one character. -/
def encodeChar (c : Char) : Bytes := String.utf8EncodeChar c

/-- The bytes of a text. -/
def encode (s : Text) : Bytes := s.flatMap encodeChar

/-- A text as far as its first `room` bytes show it; a replacement character stands for one that
is cut in two. -/
def clip (room : Nat) : Text → Text
  | [] => []
  | c :: s =>
    if (encodeChar c).length ≤ room then c :: clip (room - (encodeChar c).length) s
    else if room = 0 then []
    else ['\ufffd']

/-- Whether a byte may stand after the first one of a character. -/
def isTail (b : UInt8) : Bool := 0x80 ≤ b && b ≤ 0xBF

/-- Whether `b` may be the second byte after the first byte `lead`: a tail byte that makes the
character neither longer than it must be, nor half of a surrogate pair, nor beyond the last
code point. -/
def isSecond (lead b : UInt8) : Bool :=
  isTail b &&
    (if lead = 0xE0 then 0xA0 ≤ b
    else if lead = 0xED then b ≤ 0x9F
    else if lead = 0xF0 then 0x90 ≤ b
    else if lead = 0xF4 then b ≤ 0x8F
    else true)

/-- The character with a code point. -/
def scalar (n : Nat) : Char := Char.ofNat n

/-- The low six bits of a tail byte. -/
def payload (b : UInt8) : Nat := b.toNat % 64

/-- Decodes bytes that begin at offset `pos` of the whole. -/
def decodeAt (pos : Nat) : Bytes → Except Fault Text
  | [] => .ok []
  | b :: s =>
    if b < 0x80 then
      (decodeAt (pos + 1) s).map (scalar b.toNat :: ·)
    else if b < 0xC2 then .error ⟨.invalidStart, pos, b, 1⟩
    else if b < 0xE0 then
      match s with
      | [] => .error ⟨.unexpectedEnd, pos, b, 1⟩
      | b2 :: s =>
        if isTail b2 then
          (decodeAt (pos + 2) s).map (scalar (b.toNat % 32 * 64 + payload b2) :: ·)
        else .error ⟨.invalidContinuation, pos, b, 1⟩
    else if b < 0xF0 then
      match s with
      | [] => .error ⟨.unexpectedEnd, pos, b, 1⟩
      | b2 :: s =>
        if isSecond b b2 then
          match s with
          | [] => .error ⟨.unexpectedEnd, pos, b, 2⟩
          | b3 :: s =>
            if isTail b3 then
              (decodeAt (pos + 3) s).map
                (scalar ((b.toNat % 16 * 64 + payload b2) * 64 + payload b3) :: ·)
            else .error ⟨.invalidContinuation, pos, b, 2⟩
        else .error ⟨.invalidContinuation, pos, b, 1⟩
    else if b < 0xF5 then
      match s with
      | [] => .error ⟨.unexpectedEnd, pos, b, 1⟩
      | b2 :: s =>
        if isSecond b b2 then
          match s with
          | [] => .error ⟨.unexpectedEnd, pos, b, 2⟩
          | b3 :: s =>
            if isTail b3 then
              match s with
              | [] => .error ⟨.unexpectedEnd, pos, b, 3⟩
              | b4 :: s =>
                if isTail b4 then
                  (decodeAt (pos + 4) s).map
                    (scalar (((b.toNat % 8 * 64 + payload b2) * 64 + payload b3) * 64 +
                      payload b4) :: ·)
                else .error ⟨.invalidContinuation, pos, b, 3⟩
            else .error ⟨.invalidContinuation, pos, b, 2⟩
        else .error ⟨.invalidContinuation, pos, b, 1⟩
    else .error ⟨.invalidStart, pos, b, 1⟩

/-- The text that bytes encode. -/
def decode (bytes : Bytes) : Except Fault Text := decodeAt 0 bytes

end Utf8

end ServerPages
