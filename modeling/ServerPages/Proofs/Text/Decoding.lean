import ServerPages.Proofs.Text.Utf8

/-!
# What is decoded

Bytes decode to a text only if they encode it (`Utf8.decode_eq_ok_iff`), so a row of bytes that
more bytes complete encodes a text, perhaps with the first bytes of one more character behind it.
`Utf8.Begins` says so.
-/

namespace ServerPages

namespace Utf8

variable {c : Char} {bytes p : Bytes} {b : UInt8} {n pos : Nat} {t : Text}

/-! ### One character -/

private theorem le_toNat_of_not_lt {k : UInt8} (h : ¬ b < k) : k.toNat ≤ b.toNat :=
  Nat.le_of_not_lt fun hlt => h (UInt8.lt_iff_toNat_lt.mpr hlt)

private theorem isTail_iff : isTail b = true ↔ 0x80 ≤ b.toNat ∧ b.toNat ≤ 0xBF := by
  simp only [isTail, Bool.and_eq_true, decide_eq_true_eq, UInt8.le_iff_toNat_le]
  exact Iff.rfl

/-- What the first byte of a character asks of the second one. -/
theorem isSecond_bounds {l : UInt8} (h : isSecond l b = true) : isTail b = true ∧
    (l.toNat = 0xE0 → 0xA0 ≤ b.toNat) ∧ (l.toNat = 0xED → b.toNat ≤ 0x9F) ∧
      (l.toNat = 0xF0 → 0x90 ≤ b.toNat) ∧ (l.toNat = 0xF4 → b.toNat ≤ 0x8F) := by
  rw [isSecond, Bool.and_eq_true] at h
  obtain ⟨htail, hb⟩ := h
  refine ⟨htail, fun hl => ?_, fun hl => ?_, fun hl => ?_, fun hl => ?_⟩
  · obtain rfl : l = 0xE0 := UInt8.toNat_inj.mp hl
    simpa [UInt8.le_iff_toNat_le] using hb
  · obtain rfl : l = 0xED := UInt8.toNat_inj.mp hl
    simpa [UInt8.le_iff_toNat_le] using hb
  · obtain rfl : l = 0xF0 := UInt8.toNat_inj.mp hl
    simpa [UInt8.le_iff_toNat_le] using hb
  · obtain rfl : l = 0xF4 := UInt8.toNat_inj.mp hl
    simpa [UInt8.le_iff_toNat_le] using hb

private theorem ofNat_eq (h : n = b.toNat) : UInt8.ofNat n = b := by rw [h, UInt8.ofNat_toNat]

private theorem toNat_scalar (h : n.isValidChar) : (scalar n).val.toNat = n := by
  unfold scalar Char.ofNat
  rw [dif_pos h]
  rfl

/-- The bytes that decode to a character are the ones that encode it. -/
theorem Spells.eq_encodeChar (h : Spells c bytes) : bytes = encodeChar c := by
  cases h with
  | @one b hb hc =>
    have hb : b.toNat < 0x80 := UInt8.lt_iff_toNat_lt.mp hb
    subst hc
    rw [encodeChar, String.utf8EncodeChar, toNat_scalar (.inl (by omega))]
    rw [if_pos (by omega), ofNat_eq rfl]
  | @two b b₂ hlow hhigh h₂ hc =>
    have hlow : 0xC2 ≤ b.toNat := le_toNat_of_not_lt hlow
    have hhigh : b.toNat < 0xE0 := UInt8.lt_iff_toNat_lt.mp hhigh
    obtain ⟨hl₂, hr₂⟩ := isTail_iff.mp h₂
    subst hc
    rw [encodeChar, String.utf8EncodeChar, payload, toNat_scalar (.inl (by omega))]
    rw [if_neg (by omega), if_pos (by omega), ofNat_eq (b := b) (by omega),
      ofNat_eq (b := b₂) (by omega)]
  | @three b b₂ b₃ hlow hhigh h₂ h₃ hc =>
    have hlow : 0xE0 ≤ b.toNat := le_toNat_of_not_lt hlow
    have hhigh : b.toNat < 0xF0 := UInt8.lt_iff_toNat_lt.mp hhigh
    obtain ⟨h₂, hE0, hED, -⟩ := isSecond_bounds h₂
    obtain ⟨hl₂, hr₂⟩ := isTail_iff.mp h₂
    obtain ⟨hl₃, hr₃⟩ := isTail_iff.mp h₃
    have hvalid : ((b.toNat % 16 * 64 + payload b₂) * 64 + payload b₃).isValidChar := by
      unfold payload Nat.isValidChar
      omega
    subst hc
    rw [encodeChar, String.utf8EncodeChar, toNat_scalar hvalid, payload, payload]
    rw [if_neg (by omega), if_neg (by omega), if_pos (by omega), ofNat_eq (b := b) (by omega),
      ofNat_eq (b := b₂) (by omega), ofNat_eq (b := b₃) (by omega)]
  | @four b b₂ b₃ b₄ hlow hhigh h₂ h₃ h₄ hc =>
    have hlow : 0xF0 ≤ b.toNat := le_toNat_of_not_lt hlow
    have hhigh : b.toNat < 0xF5 := UInt8.lt_iff_toNat_lt.mp hhigh
    obtain ⟨h₂, -, -, hF0, hF4⟩ := isSecond_bounds h₂
    obtain ⟨hl₂, hr₂⟩ := isTail_iff.mp h₂
    obtain ⟨hl₃, hr₃⟩ := isTail_iff.mp h₃
    obtain ⟨hl₄, hr₄⟩ := isTail_iff.mp h₄
    have hvalid : (((b.toNat % 8 * 64 + payload b₂) * 64 + payload b₃) * 64 +
        payload b₄).isValidChar := by
      unfold payload Nat.isValidChar
      omega
    subst hc
    rw [encodeChar, String.utf8EncodeChar, toNat_scalar hvalid, payload, payload, payload]
    rw [if_neg (by omega), if_neg (by omega), if_neg (by omega), ofNat_eq (b := b) (by omega),
      ofNat_eq (b := b₂) (by omega), ofNat_eq (b := b₃) (by omega), ofNat_eq (b := b₄) (by omega)]

/-! ### A text -/

private theorem Spells.append_eq_encode {s : Bytes} (hb : Spells c bytes)
    (ih : ∀ {t}, decodeAt pos s = .ok t → s = encode t)
    (h : (decodeAt pos s).map (c :: ·) = .ok t) : bytes ++ s = encode t := by
  cases hs : decodeAt pos s with
  | error f => rw [hs] at h; cases h
  | ok u =>
    rw [hs] at h
    cases h
    rw [encode_cons, ← hb.eq_encodeChar, ← ih hs]

/-- Bytes that decode to a text encode it. -/
theorem eq_encode_of_decodeAt (h : decodeAt pos bytes = .ok t) : bytes = encode t := by
  fun_induction decodeAt pos bytes generalizing t
  -- in most of the cases the bytes are refused
  all_goals try cases h
  case case1 => rfl
  case case2 h₁ ih => exact (Spells.one h₁ rfl).append_eq_encode ih h
  case case5 hlow hhigh _ _ h₂ ih => exact (Spells.two hlow hhigh h₂ rfl).append_eq_encode ih h
  case case9 hlow hhigh _ h₂ _ _ h₃ ih =>
    exact (Spells.three hlow hhigh h₂ h₃ rfl).append_eq_encode ih h
  case case15 hlow hhigh _ h₂ _ h₃ _ _ h₄ ih =>
    exact (Spells.four hlow hhigh h₂ h₃ h₄ rfl).append_eq_encode ih h

/-- **Decoding and encoding.** Bytes decode to a text exactly if they encode it. -/
theorem decode_eq_ok_iff : decode bytes = .ok t ↔ bytes = encode t :=
  ⟨eq_encode_of_decodeAt, fun h => h ▸ decode_encode t⟩

/-- What stands behind an encoded text is decoded by itself. -/
theorem decodeAt_encode_append (s : Text) (e : Bytes) (pos : Nat) :
    decodeAt pos (encode s ++ e) = (decodeAt (pos + (encode s).length) e).map (s ++ ·) := by
  induction s generalizing pos with
  | nil => cases h : decodeAt pos e <;> simp [encode, Except.map, h]
  | cons c s ih =>
    rw [encode_cons, List.append_assoc, (spells_encodeChar c).decodeAt_append, ih,
      List.length_append, Nat.add_assoc]
    cases decodeAt _ e <;> rfl

theorem exists_append_of_decode {s : Text} {e : Bytes} (h : decode (encode s ++ e) = .ok t) :
    ∃ u, t = s ++ u := by
  rw [decode, decodeAt_encode_append] at h
  cases hu : decodeAt (0 + (encode s).length) e with
  | error f => rw [hu] at h; cases h
  | ok u =>
    rw [hu] at h
    cases h
    exact ⟨u, rfl⟩

/-! ### Beginnings -/

/-- Bytes begin a text: they encode it, or all of it but its last character, of which the first
bytes are there. -/
inductive Begins (d : Bytes) (t : Text) : Prop
  | whole (h : d = encode t)
  | broken {s : Text} {p : Bytes} {c : Char} (h : d = encode s ++ p) (hne : p ≠ [])
      (hp : Cut p (encodeChar c)) (ht : t = s ++ [c])

/-- A beginning of an encoded text begins a text that it begins with. -/
theorem exists_begins {d : Bytes} (h : d <+: encode t) : ∃ s u, t = s ++ u ∧ Begins d s := by
  induction t generalizing d with
  | nil => exact ⟨[], [], rfl, .whole (List.prefix_nil.mp h)⟩
  | cons c t ih =>
    rw [encode_cons] at h
    rcases List.prefix_or_prefix_of_prefix h (List.prefix_append _ _) with hd | ⟨d', rfl⟩
    · by_cases heq : d = encodeChar c
      · refine ⟨[c], t, rfl, .whole ?_⟩
        rw [heq, encode_cons]
        exact (List.append_nil _).symm
      by_cases hne : d = []
      · exact ⟨[], c :: t, rfl, .whole hne⟩
      · exact ⟨[c], t, rfl, .broken (s := []) rfl hne ⟨hd, heq⟩ rfl⟩
    · obtain ⟨s, u, rfl, hs⟩ := ih ((List.prefix_append_right_inj _).mp h)
      refine ⟨c :: s, u, rfl, ?_⟩
      cases hs with
      | whole h => exact .whole (by rw [h, encode_cons])
      | broken h hne hp ht =>
        exact .broken (by rw [h, encode_cons, List.append_assoc]) hne hp (by rw [ht]; rfl)

/-- What begins a text is completed to it. -/
theorem Begins.exists_append {d : Bytes} (h : Begins d t) : ∃ e, d ++ e = encode t := by
  cases h with
  | whole h => exact ⟨[], by rw [h, List.append_nil]⟩
  | broken h _ hp ht =>
    obtain ⟨q, hq⟩ := hp.isPrefix
    refine ⟨q, ?_⟩
    rw [h, ht, encode_append, encode_cons, List.append_assoc, hq]
    exact congrArg _ (List.append_nil _).symm

/-- A character of which only some bytes are there is not one of ASCII. -/
theorem le_of_cut_encodeChar (hp : Cut p (encodeChar c)) (hne : p ≠ []) : 0x80 ≤ c.val.toNat := by
  by_contra hlt
  rw [encodeChar, String.utf8EncodeChar, if_pos (by omega)] at hp
  exact hne (Cut.singleton_iff.mp hp)

end Utf8

end ServerPages
