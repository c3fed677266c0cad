import Mathlib.Data.List.Basic
import ServerPages.Proofs.Text.Cut
import ServerPages.Text.Utf8

/-!
# Decoding what was encoded

Decoding undoes encoding (`Utf8.decode_encode`), and bytes that stop within a text decode to the
beginning of the text, or are refused because they stop within a character (`Utf8.decode_cut`).
-/

namespace ServerPages

namespace Utf8

theorem encode_append (a b : Text) : encode (a ++ b) = encode a ++ encode b :=
  List.flatMap_append

theorem encode_cons (c : Char) (s : Text) : encode (c :: s) = encodeChar c ++ encode s :=
  List.flatMap_cons

/-! ### The bytes of one character -/

/-- The bytes of a character, by their number, with what decoding asks of them. -/
inductive Spells (c : Char) : Bytes → Prop
  | one {b : UInt8} (h : b < 0x80) (hc : scalar b.toNat = c) : Spells c [b]
  | two {b b₂ : UInt8} (hlow : ¬ b < 0xC2) (hhigh : b < 0xE0) (h₂ : isTail b₂ = true)
      (hc : scalar (b.toNat % 32 * 64 + payload b₂) = c) : Spells c [b, b₂]
  | three {b b₂ b₃ : UInt8} (hlow : ¬ b < 0xE0) (hhigh : b < 0xF0) (h₂ : isSecond b b₂ = true)
      (h₃ : isTail b₃ = true)
      (hc : scalar ((b.toNat % 16 * 64 + payload b₂) * 64 + payload b₃) = c) :
      Spells c [b, b₂, b₃]
  | four {b b₂ b₃ b₄ : UInt8} (hlow : ¬ b < 0xF0) (hhigh : b < 0xF5) (h₂ : isSecond b b₂ = true)
      (h₃ : isTail b₃ = true) (h₄ : isTail b₄ = true)
      (hc : scalar (((b.toNat % 8 * 64 + payload b₂) * 64 + payload b₃) * 64 + payload b₄) = c) :
      Spells c [b, b₂, b₃, b₄]

private theorem toNat_byte {n : Nat} (h : n < 256) : (UInt8.ofNat n).toNat = n :=
  UInt8.toNat_ofNat_of_lt' h

private theorem byte_lt_iff {n : Nat} {b : UInt8} (hn : n < 256) : UInt8.ofNat n < b ↔ n < b.toNat := by
  rw [UInt8.lt_iff_toNat_lt, toNat_byte hn]

private theorem byte_eq {n : Nat} {b : UInt8} (hn : n < 256) (h : UInt8.ofNat n = b) : n = b.toNat := by
  rw [← h, toNat_byte hn]

private theorem isTail_byte {n : Nat} (h : n < 64) : isTail (UInt8.ofNat (n + 0x80)) = true := by
  have hn : n + 0x80 < 256 := by omega
  simp only [isTail, Bool.and_eq_true, decide_eq_true_eq, UInt8.le_iff_toNat_le, toNat_byte hn]
  constructor
  · exact Nat.le_add_left 0x80 n
  · show n + 0x80 ≤ 0xBF
    omega

private theorem payload_byte {n : Nat} (h : n < 64) : payload (UInt8.ofNat (n + 0x80)) = n := by
  rw [payload, toNat_byte (by omega)]
  omega

/-- The second byte of a character, where the first one does not forbid it. -/
theorem isSecond_byte {l n : Nat} (hl : l < 256) (hn : n < 64) (hE0 : l = 0xE0 → 0x20 ≤ n)
    (hED : l = 0xED → n < 0x20) (hF0 : l = 0xF0 → 0x10 ≤ n) (hF4 : l = 0xF4 → n < 0x10) :
    isSecond (UInt8.ofNat l) (UInt8.ofNat (n + 0x80)) = true := by
  have hb : n + 0x80 < 256 := by omega
  rw [isSecond, isTail_byte hn, Bool.true_and]
  split
  · next h =>
    have := hE0 (byte_eq hl h)
    rw [decide_eq_true_eq, UInt8.le_iff_toNat_le, toNat_byte hb]
    show 0xA0 ≤ n + 0x80
    omega
  split
  · next h =>
    have := hED (byte_eq hl h)
    rw [decide_eq_true_eq, UInt8.le_iff_toNat_le, toNat_byte hb]
    show n + 0x80 ≤ 0x9F
    omega
  split
  · next h =>
    have := hF0 (byte_eq hl h)
    rw [decide_eq_true_eq, UInt8.le_iff_toNat_le, toNat_byte hb]
    show 0x90 ≤ n + 0x80
    omega
  split
  · next h =>
    have := hF4 (byte_eq hl h)
    rw [decide_eq_true_eq, UInt8.le_iff_toNat_le, toNat_byte hb]
    show n + 0x80 ≤ 0x8F
    omega
  · rfl

theorem spells_encodeChar (c : Char) : Spells c (encodeChar c) := by
  have hvalid : c.val.toNat < 0xD800 ∨ 0xDFFF < c.val.toNat ∧ c.val.toNat < 0x110000 := c.valid
  have hc : scalar c.val.toNat = c := Char.ofNat_toNat c
  unfold encodeChar String.utf8EncodeChar
  -- from here on only the number of the character matters
  generalize c.val.toNat = v at hc hvalid
  dsimp only
  split
  · next h =>
    refine .one ((byte_lt_iff (by omega)).mpr ?_) ?_
    · show v < 0x80
      omega
    · rw [toNat_byte (by omega), hc]
  split
  · next h =>
    refine .two ?_ ((byte_lt_iff (by omega)).mpr ?_) (isTail_byte (by omega)) ?_
    · rw [byte_lt_iff (by omega)]
      show ¬ v / 64 % 32 + 0xC0 < 0xC2
      omega
    · show v / 64 % 32 + 0xC0 < 0xE0
      omega
    · rw [toNat_byte (by omega), payload_byte (by omega), ← hc]
      congr 1
      omega
  split
  · next h =>
    refine .three ?_ ((byte_lt_iff (by omega)).mpr ?_)
      (isSecond_byte (by omega) (by omega) (by omega) (by omega) (by omega) (by omega))
      (isTail_byte (by omega)) ?_
    · rw [byte_lt_iff (by omega)]
      show ¬ v / 4096 % 16 + 0xE0 < 0xE0
      omega
    · show v / 4096 % 16 + 0xE0 < 0xF0
      omega
    · rw [toNat_byte (by omega), payload_byte (by omega), payload_byte (by omega), ← hc]
      congr 1
      omega
  · refine .four ?_ ((byte_lt_iff (by omega)).mpr ?_)
      (isSecond_byte (by omega) (by omega) (by omega) (by omega) (by omega) (by omega))
      (isTail_byte (by omega)) (isTail_byte (by omega)) ?_
    · rw [byte_lt_iff (by omega)]
      show ¬ v / 262144 % 8 + 0xF0 < 0xF0
      omega
    · show v / 262144 % 8 + 0xF0 < 0xF5
      omega
    · rw [toNat_byte (by omega), payload_byte (by omega), payload_byte (by omega),
        payload_byte (by omega), ← hc]
      congr 1
      omega

/-! ### Decoding one character -/

variable {c : Char} {bytes s : Bytes} {b b₂ b₃ : UInt8} {pos : Nat}

private theorem not_lt_of_le {k m : UInt8} (h : ¬ b < m) (hk : k ≤ m) : ¬ b < k :=
  fun hb => h (UInt8.lt_of_lt_of_le hb hk)

private theorem decodeAt_two (hlow : ¬ b < 0xC2) (hhigh : b < 0xE0) :
    decodeAt pos (b :: s) = match s with
      | [] => .error ⟨.unexpectedEnd, pos, b, 1⟩
      | b₂ :: s =>
        if isTail b₂ then
          (decodeAt (pos + 2) s).map (scalar (b.toNat % 32 * 64 + payload b₂) :: ·)
        else .error ⟨.invalidContinuation, pos, b, 1⟩ := by
  rw [decodeAt.eq_def]
  dsimp only
  rw [if_neg (not_lt_of_le hlow (by decide)), if_neg hlow, if_pos hhigh]
  rfl

private theorem decodeAt_three (hlow : ¬ b < 0xE0) (hhigh : b < 0xF0) :
    decodeAt pos (b :: s) = match s with
      | [] => .error ⟨.unexpectedEnd, pos, b, 1⟩
      | b₂ :: s =>
        if isSecond b b₂ then
          match s with
          | [] => .error ⟨.unexpectedEnd, pos, b, 2⟩
          | b₃ :: s =>
            if isTail b₃ then
              (decodeAt (pos + 3) s).map
                (scalar ((b.toNat % 16 * 64 + payload b₂) * 64 + payload b₃) :: ·)
            else .error ⟨.invalidContinuation, pos, b, 2⟩
        else .error ⟨.invalidContinuation, pos, b, 1⟩ := by
  rw [decodeAt.eq_def]
  dsimp only
  rw [if_neg (not_lt_of_le hlow (by decide)), if_neg (not_lt_of_le hlow (by decide)), if_neg hlow,
    if_pos hhigh]
  rfl

private theorem decodeAt_four (hlow : ¬ b < 0xF0) (hhigh : b < 0xF5) :
    decodeAt pos (b :: s) = match s with
      | [] => .error ⟨.unexpectedEnd, pos, b, 1⟩
      | b₂ :: s =>
        if isSecond b b₂ then
          match s with
          | [] => .error ⟨.unexpectedEnd, pos, b, 2⟩
          | b₃ :: s =>
            if isTail b₃ then
              match s with
              | [] => .error ⟨.unexpectedEnd, pos, b, 3⟩
              | b₄ :: s =>
                if isTail b₄ then
                  (decodeAt (pos + 4) s).map
                    (scalar (((b.toNat % 8 * 64 + payload b₂) * 64 + payload b₃) * 64 +
                      payload b₄) :: ·)
                else .error ⟨.invalidContinuation, pos, b, 3⟩
            else .error ⟨.invalidContinuation, pos, b, 2⟩
        else .error ⟨.invalidContinuation, pos, b, 1⟩ := by
  rw [decodeAt.eq_def]
  dsimp only
  rw [if_neg (not_lt_of_le hlow (by decide)), if_neg (not_lt_of_le hlow (by decide)),
    if_neg (not_lt_of_le hlow (by decide)), if_neg hlow, if_pos hhigh]
  rfl

theorem Spells.exists_cons (h : Spells c bytes) : ∃ b w, bytes = b :: w := by
  cases h <;> exact ⟨_, _, rfl⟩

/-- The bytes of a character decode to it. -/
theorem Spells.decodeAt_append (h : Spells c bytes) (pos : Nat) (s : Bytes) :
    decodeAt pos (bytes ++ s) = (decodeAt (pos + bytes.length) s).map (c :: ·) := by
  cases h with
  | one hb hc =>
    rw [List.singleton_append, decodeAt.eq_def]
    dsimp only
    rw [if_pos hb, hc]
    rfl
  | two hlow hhigh h₂ hc =>
    rw [List.cons_append, List.singleton_append, decodeAt_two hlow hhigh]
    dsimp only
    rw [if_pos h₂, hc]
    rfl
  | three hlow hhigh h₂ h₃ hc =>
    rw [List.cons_append, List.cons_append, List.singleton_append, decodeAt_three hlow hhigh]
    dsimp only
    rw [if_pos h₂, if_pos h₃, hc]
    rfl
  | four hlow hhigh h₂ h₃ h₄ hc =>
    rw [List.cons_append, List.cons_append, List.cons_append, List.singleton_append,
      decodeAt_four hlow hhigh]
    dsimp only
    rw [if_pos h₂, if_pos h₃, if_pos h₄, hc]
    rfl

/-- Bytes that stop within a character are refused for that. -/
theorem Spells.decodeAt_cut {p : Bytes} (h : Spells c bytes) (hp : Cut p bytes) (hne : p ≠ []) :
    ∃ f, decodeAt pos p = .error f ∧ f.reason = .unexpectedEnd := by
  obtain ⟨b, t, rfl⟩ := List.exists_cons_of_ne_nil hne
  cases h with
  | one => exact absurd (Cut.singleton_iff.mp hp) hne
  | two hlow hhigh h₂ =>
    obtain ⟨rfl, ht⟩ := Cut.cons_cons_iff.mp hp
    obtain rfl := Cut.singleton_iff.mp ht
    rw [decodeAt_two hlow hhigh]
    exact ⟨_, rfl, rfl⟩
  | three hlow hhigh h₂ h₃ =>
    obtain ⟨rfl, ht⟩ := Cut.cons_cons_iff.mp hp
    rw [decodeAt_three hlow hhigh]
    rcases Cut.cons_iff.mp ht with rfl | ⟨u, rfl, hu⟩
    · exact ⟨_, rfl, rfl⟩
    obtain rfl := Cut.singleton_iff.mp hu
    dsimp only
    rw [if_pos h₂]
    exact ⟨_, rfl, rfl⟩
  | four hlow hhigh h₂ h₃ h₄ =>
    obtain ⟨rfl, ht⟩ := Cut.cons_cons_iff.mp hp
    rw [decodeAt_four hlow hhigh]
    rcases Cut.cons_iff.mp ht with rfl | ⟨u, rfl, hu⟩
    · exact ⟨_, rfl, rfl⟩
    dsimp only
    rw [if_pos h₂]
    rcases Cut.cons_iff.mp hu with rfl | ⟨w, rfl, hw⟩
    · exact ⟨_, rfl, rfl⟩
    obtain rfl := Cut.singleton_iff.mp hw
    dsimp only
    rw [if_pos h₃]
    exact ⟨_, rfl, rfl⟩

/-! ### Decoding a text -/

theorem decodeAt_encode (pos : Nat) (s : Text) : decodeAt pos (encode s) = .ok s := by
  induction s generalizing pos with
  | nil => rfl
  | cons c s ih =>
    rw [encode_cons, (spells_encodeChar c).decodeAt_append, ih]
    rfl

/-- Decoding undoes encoding. -/
theorem decode_encode (s : Text) : decode (encode s) = .ok s := decodeAt_encode 0 s

theorem decodeAt_cut {s : Text} {p : Bytes} (pos : Nat) (hp : Cut p (encode s)) :
    (∃ t, Cut t s ∧ decodeAt pos p = .ok t) ∨
      ∃ f, decodeAt pos p = .error f ∧ f.reason = .unexpectedEnd := by
  induction s generalizing pos p with
  | nil => exact absurd hp Cut.not_nil
  | cons c s ih =>
    rw [encode_cons] at hp
    rcases Cut.append_iff.mp hp with hc | ⟨q, rfl, hq⟩
    · by_cases hne : p = []
      · subst hne
        exact .inl ⟨[], Cut.nil_cons c s, rfl⟩
      · exact .inr ((spells_encodeChar c).decodeAt_cut hc hne)
    · rw [(spells_encodeChar c).decodeAt_append]
      rcases ih (pos + (encodeChar c).length) hq with ⟨t, ht, hd⟩ | ⟨f, hd, hf⟩
      · rw [hd]
        exact .inl ⟨c :: t, ht.cons c, rfl⟩
      · rw [hd]
        exact .inr ⟨f, rfl, hf⟩

/-- Bytes that stop within a text decode to a beginning of the text, or stop within a
character. -/
theorem decode_cut {s : Text} {p : Bytes} (hp : Cut p (encode s)) :
    (∃ t, Cut t s ∧ decode p = .ok t) ∨ ∃ f, decode p = .error f ∧ f.reason = .unexpectedEnd :=
  decodeAt_cut 0 hp

theorem cut_encode {s t : Text} (h : Cut t s) : Cut (encode t) (encode s) := by
  obtain ⟨u, rfl⟩ := h.isPrefix
  have hu : u ≠ [] := fun hnil => h.ne (by rw [hnil, List.append_nil])
  obtain ⟨c, u, rfl⟩ := List.exists_cons_of_ne_nil hu
  rw [encode_append]
  obtain ⟨b, w, hb⟩ : ∃ b w, encode (c :: u) = b :: w := by
    obtain ⟨b, w, hb⟩ := (spells_encodeChar c).exists_cons
    exact ⟨b, w ++ encode u, by rw [encode_cons, hb]; rfl⟩
  have hcut := (Cut.nil_cons b w).append_left (encode t)
  rwa [List.append_nil, ← hb] at hcut

end Utf8

end ServerPages
