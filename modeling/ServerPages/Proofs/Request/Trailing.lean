import Mathlib
import ServerPages.Proofs.Request.Refusing

/-!
# What stands behind a message

Bytes behind an accepted message change nothing exactly if they are text of their own
(`Message.decode_trailing`): the bytes are decoded as a whole before the message is looked for in
them, so a byte that is no UTF-8 undoes the message before it (`Message.decode_strayByte`).
-/

namespace ServerPages

namespace Message

variable {d : Bytes} {env : Envelope}

/-- The failure of bytes that are no text. -/
def Failure.ofFault (fault : Utf8.Fault) : Failure :=
  if fault.reason = .unexpectedEnd then .incomplete (.bytes fault) else .malformed (.bytes fault)

private theorem decode_of_fault {fault : Utf8.Fault} (h : Utf8.decode d = .error fault) :
    decode d = .error (.ofFault fault) := by
  rw [decode, h]
  rfl

/-- An accepted message is text. -/
theorem exists_encode (h : decode d = .ok env) : ∃ t, d = Utf8.encode t := by
  obtain ⟨t, -, -, -, ht, -⟩ := exists_object h
  exact ⟨t, Utf8.decode_eq_ok_iff.mp ht⟩

/-- Behind an accepted message, bytes are decoded as if they stood alone, but for their place. -/
theorem utf8_decode_append (h : decode d = .ok env) (e : Bytes) :
    ∃ t, Utf8.decode (d ++ e) = (Utf8.decodeAt d.length e).map (t ++ ·) := by
  obtain ⟨t, rfl⟩ := exists_encode h
  refine ⟨t, ?_⟩
  rw [Utf8.decode, Utf8.decodeAt_encode_append, Nat.zero_add]

/-- **Trailing bytes.** Behind an accepted message, any bytes leave the message accepted as it was
if and only if they are the UTF-8 of some text. Otherwise the whole is refused at the first byte
that belongs to no character: for good, unless the bytes only stop within a character. -/
theorem decode_trailing (h : decode d = .ok env) (e : Bytes) :
    (decode (d ++ e) = .ok env ↔ ∃ u, e = Utf8.encode u) ∧
    ∀ fault, Utf8.decodeAt d.length e = .error fault →
      decode (d ++ e) = .error (.ofFault fault) := by
  obtain ⟨t, ht⟩ := utf8_decode_append h e
  have hfault : ∀ fault, Utf8.decodeAt d.length e = .error fault →
      decode (d ++ e) = .error (.ofFault fault) := fun fault hf => by
    rw [hf] at ht
    exact decode_of_fault ht
  refine ⟨⟨fun hok => ?_, ?_⟩, hfault⟩
  · cases he : Utf8.decodeAt d.length e with
    | ok u => exact ⟨u, Utf8.eq_encode_of_decodeAt he⟩
    | error fault => cases hok.symm.trans (hfault fault he)
  · rintro ⟨u, rfl⟩
    rw [Utf8.decodeAt_encode] at ht
    exact decode_append h ht

/-- Another message behind a message is ignored, and so is text that is no message. -/
theorem decode_trailing_exit : decode (Utf8.encode "\x7b\x7d".toList) = .ok {} ∧
    decode (Utf8.encode "\x7b\x7d".toList ++ Utf8.encode "\x7b\"ExitNow\": true\x7d é".toList) =
      .ok {} := by
  have h : decode (Utf8.encode "\x7b\x7d".toList) = .ok {} := by cbv
  exact ⟨h, (decode_trailing h _).1.mpr ⟨_, rfl⟩⟩

/-- **A message is undone.** The empty object is an acceptable message. With the byte `FF` behind
it, which begins no character, it is refused for good; with the first byte of a character of two
bytes, it is given as incomplete. -/
theorem decode_strayByte : decode (Utf8.encode "\x7b\x7d".toList) = .ok {} ∧
    decode (Utf8.encode "\x7b\x7d".toList ++ [0xFF]) =
      .error (.malformed (.bytes ⟨.invalidStart, 2, 0xFF, 1⟩)) ∧
    decode (Utf8.encode "\x7b\x7d".toList ++ [0xC3]) =
      .error (.incomplete (.bytes ⟨.unexpectedEnd, 2, 0xC3, 1⟩)) := by
  have hstart : Utf8.decode (Utf8.encode "\x7b\x7d".toList ++ [0xFF]) =
      .error ⟨.invalidStart, 2, 0xFF, 1⟩ := by cbv
  have hend : Utf8.decode (Utf8.encode "\x7b\x7d".toList ++ [0xC3]) =
      .error ⟨.unexpectedEnd, 2, 0xC3, 1⟩ := by cbv
  exact ⟨by cbv, decode_of_fault hstart, decode_of_fault hend⟩

end Message

end ServerPages
