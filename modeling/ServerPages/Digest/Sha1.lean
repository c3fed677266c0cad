import ServerPages.Text.Utf8

/-!
# Digests

The SHA-1 digest of a message: the message is padded to whole blocks of 64 bytes, and each block
stirs five words.
-/

namespace ServerPages

namespace Sha1

/-- The five words of a digest in the making. -/
structure State where
  a : UInt32
  b : UInt32
  c : UInt32
  d : UInt32
  e : UInt32

/-- The words that a digest starts from. -/
def start : State := ⟨0x67452301, 0xEFCDAB89, 0x98BADCFE, 0x10325476, 0xC3D2E1F0⟩

/-- A word turned to the left. -/
def turn (x : UInt32) (n : UInt32) : UInt32 := (x <<< n) ||| (x >>> (32 - n))

/-- The `n` lowest bytes of a number, the highest of them first. -/
def bytesOf (n : Nat) (x : Nat) : Bytes :=
  (List.range n).reverse.map fun i => UInt8.ofNat (x / Nat.pow 256 i % 256)

/-- A message with its padding: a bit that ends it, zeros up to a whole block, and its length in
bits. -/
def padded (m : Bytes) : Bytes :=
  m ++ 0x80 :: List.replicate ((55 + 64 - m.length % 64) % 64) 0 ++ bytesOf 8 (8 * m.length)

/-- The words that bytes make, four at a time. -/
def words : Bytes → List UInt32
  | a :: b :: c :: d :: rest =>
    (a.toUInt32 <<< 24 ||| b.toUInt32 <<< 16 ||| c.toUInt32 <<< 8 ||| d.toUInt32) :: words rest
  | _ => []

/-- The words of a block and `n` more that follow from them; the latest word comes first. -/
def expanded : Nat → List UInt32 → List UInt32
  | 0, ws => ws
  | n + 1, ws =>
    let word (i : Nat) : UInt32 := ws.getD i 0
    expanded n (turn (word 2 ^^^ word 7 ^^^ word 13 ^^^ word 15) 1 :: ws)

/-- One step of stirring, numbered from 0. -/
def stir (s : State) (step : Nat) (word : UInt32) : State :=
  let (f, k) : UInt32 × UInt32 :=
    if step < 20 then ((s.b &&& s.c) ||| ((s.b ^^^ 0xFFFFFFFF) &&& s.d), 0x5A827999)
    else if step < 40 then (s.b ^^^ s.c ^^^ s.d, 0x6ED9EBA1)
    else if step < 60 then ((s.b &&& s.c) ||| (s.b &&& s.d) ||| (s.c &&& s.d), 0x8F1BBCDC)
    else (s.b ^^^ s.c ^^^ s.d, 0xCA62C1D6)
  ⟨turn s.a 5 + f + s.e + k + word, s.a, turn s.b 30, s.c, s.d⟩

/-- The words after a block of sixteen words. -/
def addBlock (s : State) (block : List UInt32) : State :=
  let ws := (expanded 64 block.reverse).reverse
  let t := (ws.zipIdx).foldl (fun t (w, step) => stir t step w) s
  ⟨s.a + t.a, s.b + t.b, s.c + t.c, s.d + t.d, s.e + t.e⟩

/-- The words after some blocks. -/
def addBlocks (s : State) (ws : List UInt32) : State :=
  match ws with
  | [] => s
  | w :: rest => addBlocks (addBlock s ((w :: rest).take 16)) (rest.drop 15)
termination_by ws.length

/-- The digest of a message. -/
def digest (m : Bytes) : Bytes :=
  let s := addBlocks start (words (padded m))
  [s.a, s.b, s.c, s.d, s.e].flatMap fun w => bytesOf 4 w.toNat

/-- The digest of a message in hexadecimal. -/
def hexDigest (m : Bytes) : Text := (digest m).flatMap Utf8.hexPair

end Sha1

end ServerPages
