import ServerPages.Code.Literal
import ServerPages.Proofs.Code.Lines
import ServerPages.Proofs.Number.Digits
import ServerPages.Text.Quoted

/-!
# Quoted texts as string literals

A quoted text is one string on one line, and a program that holds it means the text: reading undoes
quoting, character by character (`Spells.encode`, `Spells.value?`).
-/

namespace ServerPages

namespace Code

variable {q c : Char} {v w : Text}

/-! ### Spellings -/

/-- Text between marks that is one line of a string literal and stands for some text. -/
structure Spells (q : Char) (w v : Text) : Prop where
  spelled : isSpelled q w = true
  read : StringLiteral.unescape false 0 w = some (Letter.ofText v)
  inLine : ∀ a ∈ w, isInLine a = true

/-- A spelling of one character, whatever follows it. -/
structure SpellsOne (q : Char) (w : Text) (c : Char) : Prop where
  spelled : ∀ s, isSpelled q (w ++ s) = isSpelled q s
  read : ∀ s, StringLiteral.unescape false 0 (w ++ s) =
    (StringLiteral.unescape false 0 s).map (.char c :: ·)
  inLine : ∀ a ∈ w, isInLine a = true

theorem Spells.nil : Spells q [] [] := ⟨rfl, rfl, fun _ h => absurd h List.not_mem_nil⟩

theorem Spells.cons {u : Text} (h : SpellsOne q u c) (hw : Spells q w v) :
    Spells q (u ++ w) (c :: v) := by
  refine ⟨(h.spelled w).trans hw.spelled, ?_, fun a ha => ?_⟩
  · rw [h.read, hw.read]
    rfl
  · exact (List.mem_append.1 ha).elim (h.inLine a) (hw.inLine a)

private theorem isSpelled_cons {s : Text} (hq : c ≠ q) (hb : c ≠ '\\') (hn : c ≠ '\n') :
    isSpelled q (c :: s) = isSpelled q s := by
  rw [isSpelled.eq_def]
  split
  · next h => cases h
  · next h => exact absurd (List.cons.inj h).1 hb
  · next h =>
    obtain ⟨rfl, rfl⟩ := List.cons.inj h
    simp [hq, hb, hn]

theorem ne_newline_of_isInLine (h : isInLine c = true) : c ≠ '\n' := by
  rintro rfl
  cases h

/-- A character may stand for itself. -/
theorem SpellsOne.plain (hq : c ≠ q) (hb : c ≠ '\\') (hc : isInLine c = true) :
    SpellsOne q [c] c where
  spelled _ := isSpelled_cons hq hb (ne_newline_of_isInLine hc)
  read s := by simp [StringLiteral.unescape, hb]
  inLine a ha := List.mem_singleton.1 ha ▸ hc

private theorem unescape_skip (s t : Text) : StringLiteral.unescape false s.length (s ++ t) =
    StringLiteral.unescape false 0 t := by
  induction s with
  | nil => rfl
  | cons c s ih => exact ih

private theorem isSpelled_append {u s : Text} (h : ∀ a ∈ u, isInLine a = true ∧ a ≠ q ∧ a ≠ '\\') :
    isSpelled q (u ++ s) = isSpelled q s := by
  induction u with
  | nil => rfl
  | cons a u ih =>
    obtain ⟨hin, hq, hb⟩ := h a List.mem_cons_self
    rw [List.cons_append, isSpelled_cons hq hb (ne_newline_of_isInLine hin),
      ih fun b hmem => h b (List.mem_cons_of_mem a hmem)]

/-- A character may be escaped: by a letter, and by what that letter calls for. -/
theorem SpellsOne.escape {d : Char} {u : Text} (hd : isInLine d = true)
    (hu : ∀ a ∈ u, isInLine a = true ∧ a ≠ q ∧ a ≠ '\\')
    (h : ∀ s, StringLiteral.escape false (d :: (u ++ s)) = some ([.char c], u.length + 1)) :
    SpellsOne q ('\\' :: d :: u) c where
  spelled s := by
    have hn : d ≠ '\n' ∧ d ≠ '\r' := by
      constructor <;> rintro rfl <;> cases hd
    rw [List.cons_append, List.cons_append, isSpelled]
    simp [hn.1, hn.2, isSpelled_append hu]
  read s := by
    have hskip : StringLiteral.unescape false (u.length + 1) (d :: (u ++ s)) =
        StringLiteral.unescape false 0 s := unescape_skip (d :: u) s
    rw [List.cons_append, List.cons_append, StringLiteral.unescape]
    simp only [ne_eq, not_true_eq_false, if_false, h, hskip]
    rfl
  inLine a ha := by
    simp only [List.mem_cons] at ha
    obtain rfl | rfl | ha := ha
    · rfl
    · exact hd
    · exact (hu a ha).1

/-! ### Escapes by codes -/

private theorem isHexDigit_of_mem_hex {width n : Nat} {a : Char} (h : a ∈ Quoted.hex width n) :
    isHexDigit a = true := by
  have hdigits : ∀ a ∈ Nat.toDigits 16 n, isHexDigit a = true :=
    forall_mem_toDigits (by decide) (by decide)
  obtain h | h := List.mem_append.1 h
  · rw [List.eq_of_mem_replicate h]
    rfl
  · exact hdigits a h

private theorem length_hex {width n : Nat} (hpos : 0 < width) (hn : n < 16 ^ width) :
    (Quoted.hex width n).length = width := by
  have hle := Nat.toDigits_length 16 n width hpos hn
  simp only [Quoted.hex, List.length_append, List.length_replicate]
  omega

private theorem foldl_hex (width n : Nat) :
    (Quoted.hex width n).foldl (fun v d => v * 16 + StringLiteral.hexValue d) 0 = n := by
  have hzeros : ∀ k, (List.replicate k '0').foldl
      (fun v d => v * 16 + StringLiteral.hexValue d) 0 = 0 := by
    intro k
    induction k with
    | zero => rfl
    | succ k ih => exact ih
  simp only [Quoted.hex]
  rw [List.foldl_append, hzeros, foldl_toDigits (by decide) (by decide)]

private theorem toNat_lt (c : Char) : c.toNat < 0x110000 := by
  obtain h | h := c.valid
  · exact Nat.lt_trans h (by decide)
  · exact h.2

/-- A code is read back. -/
theorem hexEscape_hex {width : Nat} (c : Char) (s : Text) (hpos : 0 < width)
    (hn : c.toNat < 16 ^ width) :
    StringLiteral.hexEscape width (Quoted.hex width c.toNat ++ s) = some ([.char c], width + 1) := by
  have hlen := length_hex hpos hn
  have htake : (Quoted.hex width c.toNat ++ s).take width = Quoted.hex width c.toNat :=
    List.take_left' hlen
  have hall : (Quoted.hex width c.toNat).all isHexDigit = true :=
    List.all_eq_true.2 fun a => isHexDigit_of_mem_hex
  have hmax := toNat_lt c
  have hvalid : c.toNat.isValidChar := c.valid
  rw [StringLiteral.hexEscape]
  simp only [htake, foldl_hex]
  rw [if_pos ⟨hlen, hall⟩, if_pos hmax, if_pos hvalid, Char.ofNat_toNat]

/-- A character may be escaped by its code. -/
theorem SpellsOne.code {k : Char} {width : Nat} (hk : isInLine k = true) (hpos : 0 < width)
    (hn : c.toNat < 16 ^ width) (hq : q = '"' ∨ q = '\'')
    (h : ∀ s, StringLiteral.escape false (k :: s) = StringLiteral.hexEscape width s) :
    SpellsOne q ('\\' :: k :: Quoted.hex width c.toNat) c := by
  refine .escape hk (fun a ha => ?_) fun s => ?_
  · have hhex := isHexDigit_of_mem_hex ha
    have hne : ∀ b, isHexDigit b = false → a ≠ b := by
      rintro b hb rfl
      rw [hhex] at hb
      cases hb
    refine ⟨?_, ?_, hne _ rfl⟩
    · simp [isInLine, hne '\n' rfl, hne '\r' rfl, hne '\x00' rfl]
    · obtain rfl | rfl := hq <;> exact hne _ rfl
  · rw [h, hexEscape_hex c s hpos hn, length_hex hpos hn]

theorem isInLine_of_isPrintable (h : Text.isPrintable c = true) : isInLine c = true := by
  simp only [isInLine, Bool.and_eq_true, bne_iff_ne]
  refine ⟨⟨?_, ?_⟩, ?_⟩ <;> rintro rfl <;> cases h

theorem SpellsOne.encodeChar (hq : q = '"' ∨ q = '\'') (c : Char) :
    SpellsOne q (Quoted.encodeChar q c) c := by
  unfold Quoted.encodeChar
  split
  · next h =>
    have hmark : c = '"' ∨ c = '\'' ∨ c = '\\' := by
      simp only [Bool.or_eq_true, decide_eq_true_eq] at h
      obtain rfl | rfl := h
      · exact hq.imp_right .inl
      · exact .inr (.inr rfl)
    obtain rfl | rfl | rfl := hmark <;> exact .escape rfl (by simp) fun s => rfl
  · next h =>
    simp only [Bool.or_eq_true, decide_eq_true_eq, not_or] at h
    split
    · next h => exact h ▸ .escape rfl (by simp) fun s => rfl
    · split
      · next h => exact h ▸ .escape rfl (by simp) fun s => rfl
      · split
        · next h => exact h ▸ .escape rfl (by simp) fun s => rfl
        · split
          · next hp => exact .plain h.1 h.2 (isInLine_of_isPrintable hp)
          · split
            · next hle => exact .code rfl (by decide) (by omega) hq fun s => rfl
            · split
              · next hle => exact .code rfl (by decide) (by omega) hq fun s => rfl
              · exact .code rfl (by decide) ((toNat_lt c).trans (by decide)) hq fun s => rfl

/-! ### String literals -/

theorem mark_eq (s : Text) : Quoted.mark s = '"' ∨ Quoted.mark s = '\'' := by
  rw [Quoted.mark]
  split
  · exact .inl rfl
  · exact .inr rfl

/-- What stands between the marks of a quoted text spells it. -/
theorem Spells.encode (hq : q = '"' ∨ q = '\'') (s : Text) :
    Spells q (s.flatMap (Quoted.encodeChar q)) s := by
  induction s with
  | nil => exact .nil
  | cons c s ih => exact .cons (.encodeChar hq c) ih

/-- Characters that need no escape spell themselves. -/
theorem Spells.plain {s : Text} (h : ∀ c ∈ s, c ≠ q ∧ c ≠ '\\' ∧ Text.isPrintable c = true) :
    Spells q s s := by
  induction s with
  | nil => exact .nil
  | cons c s ih =>
    obtain ⟨hq, hb, hp⟩ := h c List.mem_cons_self
    exact .cons (.plain hq hb (isInLine_of_isPrintable hp))
      (ih fun a ha => h a (List.mem_cons_of_mem c ha))

/-- The literal between marks. -/
theorem Spells.ofToken (hq : q = '"' ∨ q = '\'') (h : Spells q w v) :
    StringLiteral.ofToken (q :: w ++ [q]) = ⟨false, false, false, w⟩ := by
  have hb : q ≠ '\\' := by obtain rfl | rfl := hq <;> decide
  have hsingle : Text.beginsWith [q, q] (w ++ [q]) = false := by
    cases w with
    | nil => simp [Text.beginsWith, Text.after?]
    | cons c w =>
      simp [Text.beginsWith, Text.after?, Ne.symm (ne_of_isSpelled hb h.spelled)]
  rw [List.cons_append, StringLiteral.ofToken, stringOpening?_quote hq, hsingle]
  simp [StringOpening.length]

theorem Spells.value? (hq : q = '"' ∨ q = '\'') (h : Spells q w v) :
    (StringLiteral.ofToken (q :: w ++ [q])).value? = some (Letter.ofText v) := by
  rw [h.ofToken hq]
  simp [StringLiteral.value?, h.read]

/-- A literal fits where no mark follows. -/
theorem Spells.fits {e : Char} (hq : q = '"' ∨ q = '\'') (h : Spells q w v) (he : e ≠ q) :
    (Piece.mk .string (q :: w ++ [q])).fits e = true := by
  have hin : ∀ a ∈ q :: w ++ [q], isInLine a = true := by
    intro a ha
    simp only [List.cons_append, List.mem_cons, List.mem_append, List.not_mem_nil, or_false] at ha
    have hmark : isInLine q = true := by obtain rfl | rfl := hq <;> rfl
    obtain rfl | ha | rfl := ha
    · exact hmark
    · exact h.inLine a ha
    · exact hmark
  have hfirst : isFirst q = true := by obtain rfl | rfl := hq <;> rfl
  have hquoted : isQuoted e (q :: w ++ [q]) = true := by
    have hmark : (q == '"' || q == '\'') = true := by simpa using hq
    simp [isQuoted, hmark, h.spelled, he]
  simp only [Piece.fits, Bool.and_eq_true, Bool.or_eq_true]
  exact ⟨⟨by simpa using hfirst, List.all_eq_true.2 hin⟩, .inl hquoted⟩

end Code

end ServerPages
