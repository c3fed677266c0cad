import ServerPages.Proofs.Json.Source
import ServerPages.Proofs.Text.Cut
import ServerPages.Request.Message

/-!
# Reading strings

A string that is written down is read as the letters it denotes (`took_readString`). If it is cut
short, reading it fails in a way that says so (`readString_cut`).
-/

namespace ServerPages

namespace Json

/-- What a reader takes off a text, and the rest. -/
def took {α : Type} {s : Text} (r : Except Refusal (Taken α s)) : Except Refusal (α × Text) :=
  r.map (·.1)

theorem took_eq_error {α : Type} {s : Text} {r : Except Refusal (Taken α s)} {e : Refusal} :
    took r = .error e ↔ r = .error e := by
  cases r <;> simp [took, Except.map]

/-- A refusal that only says that the text stops too early. -/
def Refusal.IsTruncated : Refusal → Prop
  | .refused complaint rest => Message.isTruncated complaint rest = true
  | _ => False

/-- What is read, with one letter before it. -/
def prepend (l : Letter) (r : Except Refusal (List Letter × Text)) :
    Except Refusal (List Letter × Text) :=
  r.map fun p => (l :: p.1, p.2)

variable {opening s t : Text} {c : Char} {n : Nat}

/-! ### One step -/

theorem took_readString_quote : took (readString opening ('"' :: t)) = .ok ([], t) := by
  rw [readString, if_pos rfl]
  rfl

theorem took_readString_plain (hq : c ≠ '"') (hb : c ≠ '\\') (hc : ¬ c.toNat < 0x20) :
    took (readString opening (c :: t)) = prepend (.char c) (took (readString opening t)) := by
  rw [readString, if_neg hq, if_neg hb, if_neg hc]
  cases readString opening t <;> rfl

theorem took_readString_escape {l : Letter} {r : Text} (h : took (readEscape opening t) = .ok (l, r)) :
    took (readString opening ('\\' :: t)) = prepend l (took (readString opening r)) := by
  rw [readString, if_neg (by decide), if_pos rfl]
  cases he : readEscape opening t with
  | error e =>
    rw [he] at h
    cases h
  | ok p =>
    obtain ⟨⟨l', r'⟩, hlt⟩ := p
    rw [he] at h
    cases h
    dsimp only
    cases readString opening r <;> rfl

theorem readString_escape_error {e : Refusal} (h : readEscape opening t = .error e) :
    readString opening ('\\' :: t) = .error e := by
  rw [readString, if_neg (by decide), if_pos rfl, h]

theorem took_readEscape_letter {e : Char} (h : escaped? c = some e) :
    took (readEscape opening (c :: t)) = .ok (.char e, t) := by
  have hu : c ≠ 'u' := by
    rintro rfl
    cases h
  rw [readEscape, if_neg hu, h]
  rfl

theorem took_readEscape_code : took (readEscape opening ('u' :: t)) = took (readCode t) := by
  rw [readEscape, if_pos rfl]
  cases readCode t <;> rfl

/-! ### Codes -/

/-- A code whose pair is not complete yet, or that has none, is a letter of its own. -/
theorem took_readCode_alone {a b c d e : Char} (h : hexFour? a b c d = some n)
    (hs : isHigh n = true → secondHalf? (e :: t) = .ok none) :
    took (readCode (a :: b :: c :: d :: e :: t)) = .ok (letterOf n, e :: t) := by
  rw [readCode, h]
  dsimp only
  by_cases hn : isHigh n = true
  · rw [if_pos hn, hs hn]
    rfl
  · rw [if_neg hn]
    rfl

private theorem took_readCode_pair {a b c d a' b' c' d' e : Char} {m : Nat}
    (h : hexFour? a b c d = some n) (hn : isHigh n = true) (h' : hexFour? a' b' c' d' = some m)
    (hm : isLow m = true) :
    took (readCode (a :: b :: c :: d :: '\\' :: 'u' :: a' :: b' :: c' :: d' :: e :: t)) =
      .ok (joinPair n m, e :: t) := by
  rw [readCode, h]
  dsimp only
  rw [if_pos hn, secondHalf?, h']
  dsimp only
  rw [if_pos hm]
  rfl

theorem took_readString_code {a b c d e : Char} (h : hexFour? a b c d = some n)
    (hs : isHigh n = true → secondHalf? (e :: t) = .ok none) :
    took (readString opening ('\\' :: 'u' :: a :: b :: c :: d :: e :: t)) =
      prepend (letterOf n) (took (readString opening (e :: t))) :=
  took_readString_escape (took_readEscape_code.trans (took_readCode_alone h hs))

theorem took_readString_pair {a b c d a' b' c' d' e : Char} {m : Nat}
    (h : hexFour? a b c d = some n) (hn : isHigh n = true) (h' : hexFour? a' b' c' d' = some m)
    (hm : isLow m = true) :
    took (readString opening
        ('\\' :: 'u' :: a :: b :: c :: d :: '\\' :: 'u' :: a' :: b' :: c' :: d' :: e :: t)) =
      prepend (joinPair n m) (took (readString opening (e :: t))) :=
  took_readString_escape (took_readEscape_code.trans (took_readCode_pair h hn h' hm))

/-- A code without a character behind it is not read. -/
theorem readCode_short (h : s.length ≤ 4) :
    readCode s = .error (.refused .badUnicodeEscape ('u' :: s)) := by
  unfold readCode
  split
  · simp only [List.length_cons] at h
    omega
  · rfl

/-- Behind a code, the text of marks begins with the second half of a pair only if the first of
the marks is one. -/
theorem secondHalf?_cases {marks : List Mark} (hs : s <+: closedText marks ++ t) :
    secondHalf? s = .ok none ∨ ∃ a b c d m h rest e u, marks = .code a b c d m h :: rest ∧
      isLow m = true ∧ s = '\\' :: 'u' :: a :: b :: c :: d :: e :: u := by
  unfold secondHalf?
  split
  · next a b c d e u =>
    cases marks with
    | nil =>
      obtain ⟨hc, -⟩ := List.cons_prefix_cons.mp hs
      exact absurd hc (by decide)
    | cons mark rest =>
      cases mark with
      | plain x hq hb hc =>
        obtain ⟨hx, -⟩ := List.cons_prefix_cons.mp hs
        exact absurd hx.symm hb
      | escape x y hx =>
        obtain ⟨-, hs⟩ := List.cons_prefix_cons.mp hs
        obtain ⟨rfl, -⟩ := List.cons_prefix_cons.mp hs
        cases hx
      | code a' b' c' d' m hm =>
        have hdigits : a = a' ∧ b = b' ∧ c = c' ∧ d = d' := by
          simp only [closedText, List.flatMap_cons, Mark.text, List.cons_append,
            List.cons_prefix_cons] at hs
          exact ⟨hs.2.2.1, hs.2.2.2.1, hs.2.2.2.2.1, hs.2.2.2.2.2.1⟩
        obtain ⟨rfl, rfl, rfl, rfl⟩ := hdigits
        rw [hm]
        by_cases hlow : isLow m = true
        · exact .inr ⟨a, b, c, d, m, hm, rest, e, u, rfl, hlow, rfl⟩
        · exact .inl (if_neg hlow)
  · exact .inl rfl

/-! ### Whole strings -/

theorem closedText_cons (mark : Mark) (rest : List Mark) :
    closedText (mark :: rest) = mark.text ++ closedText rest := by
  rw [closedText, List.flatMap_cons, List.append_assoc, closedText]

private theorem exists_closedText (marks : List Mark) : ∃ c u, closedText marks = c :: u := by
  cases marks with
  | nil => exact ⟨_, _, rfl⟩
  | cons mark rest => cases mark <;> exact ⟨_, _, rfl⟩

/-- **Strings are read.** The marks of a string and its closing quote are read as the letters they
denote. -/
theorem took_readString (marks : List Mark) (rest : Text) :
    took (readString opening (closedText marks ++ rest)) = .ok (letters marks, rest) := by
  induction marks using letters.induct with
  | case1 => rw [closedText, List.flatMap_nil, List.nil_append, List.singleton_append,
      took_readString_quote, letters]
  | case2 c hq hb hc marks ih =>
    rw [closedText_cons, Mark.text, List.singleton_append, List.cons_append,
      took_readString_plain hq hb hc, ih, letters]
    rfl
  | case3 c e h marks ih =>
    rw [closedText_cons, Mark.text, List.cons_append, List.cons_append, List.cons_append,
      List.nil_append, List.cons_append,
      took_readString_escape (took_readEscape_letter h), ih, letters]
    rfl
  | case4 a b c d n h a' b' c' d' m h' marks hpair ih =>
    obtain ⟨hn, hm⟩ := Bool.and_eq_true_iff.mp hpair
    obtain ⟨e, u, heu⟩ := exists_closedText marks
    have hstep : took (readString opening
        (closedText (.code a b c d n h :: .code a' b' c' d' m h' :: marks) ++ rest)) =
          prepend (joinPair n m) (took (readString opening (closedText marks ++ rest))) := by
      rw [closedText_cons, closedText_cons, heu]
      exact took_readString_pair h hn h' hm
    rw [hstep, ih, letters, if_pos hpair]
    rfl
  | case5 a b c d n h a' b' c' d' m h' marks hpair ih =>
    have hstep : took (readString opening
        (closedText (.code a b c d n h :: .code a' b' c' d' m h' :: marks) ++ rest)) =
          prepend (letterOf n) (took (readString opening
            (closedText (.code a' b' c' d' m h' :: marks) ++ rest))) := by
      have hnone : isHigh n = true →
          secondHalf? (closedText (.code a' b' c' d' m h' :: marks) ++ rest) = .ok none := by
        intro hn
        rcases secondHalf?_cases List.prefix_rfl with hs | ⟨_, _, _, _, _, _, _, _, _, hcode, hm, -⟩
        · exact hs
        · cases hcode
          exact absurd (Bool.and_eq_true_iff.mpr ⟨hn, hm⟩) hpair
      exact took_readString_code h hnone
    rw [hstep, ih, letters, if_neg hpair]
    rfl
  | case6 a b c d n h marks hne ih =>
    obtain ⟨e, u, heu⟩ := exists_closedText marks
    have hstep : took (readString opening (closedText (.code a b c d n h :: marks) ++ rest)) =
        prepend (letterOf n) (took (readString opening (closedText marks ++ rest))) := by
      have hnone : secondHalf? (closedText marks ++ rest) = .ok none := by
        rcases secondHalf?_cases List.prefix_rfl with hs | ⟨_, _, _, _, _, _, _, _, _, hcode, -⟩
        · exact hs
        · exact absurd hcode (hne _ _ _ _ _ _ _)
      rw [closedText_cons, heu] at *
      exact took_readString_code h fun _ => hnone
    rw [hstep, ih, letters]
    · rfl
    · exact hne

/-! ### Cut strings -/

/-- Reading a string says that it is cut short. -/
def IsOpen (opening s : Text) : Prop :=
  ∃ e, took (readString opening s) = .error e ∧ e.IsTruncated

private theorem isOpen_nil : IsOpen opening [] := by
  refine ⟨.refused .openString opening, ?_, by simp [Refusal.IsTruncated, Message.isTruncated]⟩
  rw [readString]
  rfl

private theorem isOpen_backslash : IsOpen opening ['\\'] := by
  refine ⟨.refused .openString opening, ?_, by simp [Refusal.IsTruncated, Message.isTruncated]⟩
  rw [readString_escape_error rfl]
  rfl

private theorem isOpen_code (h : s.length ≤ 4) : IsOpen opening ('\\' :: 'u' :: s) := by
  refine ⟨.refused .badUnicodeEscape ('u' :: s), ?_, ?_⟩
  · have hcode : readEscape opening ('u' :: s) = .error (.refused .badUnicodeEscape ('u' :: s)) := by
      rw [← took_eq_error, took_readEscape_code, readCode_short h]
      rfl
    rw [readString_escape_error hcode]
    rfl
  · have hlen : ('u' :: s).length < 6 := by
      rw [List.length_cons]
      omega
    simpa [Refusal.IsTruncated, Message.isTruncated] using hlen

theorem IsOpen.prepend {l : Letter} {q : Text}
    (h : took (readString opening s) = prepend l (took (readString opening q)))
    (hq : IsOpen opening q) : IsOpen opening s := by
  obtain ⟨e, he, ht⟩ := hq
  refine ⟨e, ?_, ht⟩
  rw [h, he]
  rfl

private theorem secondHalf?_short (h : s.length ≤ 6) : secondHalf? s = .ok none := by
  unfold secondHalf?
  split
  · simp only [List.length_cons] at h
    omega
  · rfl

/-- Where a code and what follows it can be cut. -/
theorem cut_code {a b c d : Char} {tail p : Text}
    (hp : Cut p ('\\' :: 'u' :: a :: b :: c :: d :: tail)) :
    p = [] ∨ p = ['\\'] ∨ (∃ s, s.length ≤ 4 ∧ p = '\\' :: 'u' :: s) ∨
      ∃ e t, p = '\\' :: 'u' :: a :: b :: c :: d :: e :: t ∧ Cut (e :: t) tail := by
  rcases Cut.cons_iff.mp hp with rfl | ⟨p₁, rfl, hp₁⟩
  · exact .inl rfl
  rcases Cut.cons_iff.mp hp₁ with rfl | ⟨p₂, rfl, hp₂⟩
  · exact .inr (.inl rfl)
  refine .inr (.inr ?_)
  rcases Cut.append_iff (a := [a, b, c, d]).mp hp₂ with hshort | ⟨q, rfl, hq⟩
  · exact .inl ⟨p₂, hshort.isPrefix.length_le, rfl⟩
  · cases q with
    | nil => exact .inl ⟨[a, b, c, d], Nat.le_refl 4, rfl⟩
    | cons e t => exact .inr ⟨e, t, rfl, hq⟩

/-- **Cut strings are known as such.** -/
theorem readString_cut {marks : List Mark} {p : Text} (hp : Cut p (closedText marks)) :
    IsOpen opening p := by
  induction marks using letters.induct generalizing p with
  | case1 =>
    obtain rfl := Cut.singleton_iff.mp hp
    exact isOpen_nil
  | case2 c hq hb hc marks ih =>
    rw [closedText_cons] at hp
    rcases Cut.cons_iff.mp hp with rfl | ⟨q, rfl, hq'⟩
    · exact isOpen_nil
    · exact (ih hq').prepend (took_readString_plain hq hb hc)
  | case3 c e h marks ih =>
    rw [closedText_cons] at hp
    rcases Cut.cons_iff.mp hp with rfl | ⟨q, rfl, hq⟩
    · exact isOpen_nil
    rcases Cut.cons_iff.mp hq with rfl | ⟨r, rfl, hr⟩
    · exact isOpen_backslash
    · exact (ih hr).prepend (took_readString_escape (took_readEscape_letter h))
  | case4 a b c d n h a' b' c' d' m h' marks hpair ih =>
    obtain ⟨hn, hm⟩ := Bool.and_eq_true_iff.mp hpair
    rw [closedText_cons] at hp
    rcases cut_code hp with rfl | rfl | ⟨s, hs, rfl⟩ | ⟨e, t, rfl, hq⟩
    · exact isOpen_nil
    · exact isOpen_backslash
    · exact isOpen_code hs
    -- the second half of the pair is cut as well, or read with the first
    rw [closedText_cons] at hq
    rcases cut_code hq with hq | hq | ⟨s, hs, hq⟩ | ⟨e', t', hq, hcut⟩
    · cases hq
    · rw [hq]
      exact isOpen_backslash.prepend (took_readString_code h fun _ => secondHalf?_short (by simp))
    · rw [hq]
      refine (isOpen_code hs).prepend (took_readString_code h fun _ => secondHalf?_short ?_)
      simp only [List.length_cons]
      omega
    · rw [hq]
      exact (ih hcut).prepend (took_readString_pair h hn h' hm)
  | case5 a b c d n h a' b' c' d' m h' marks hpair ih =>
    -- a beginning of what follows shows no second half either
    rw [closedText_cons] at hp
    rcases cut_code hp with rfl | rfl | ⟨s, hs, rfl⟩ | ⟨e, t, rfl, hq⟩
    · exact isOpen_nil
    · exact isOpen_backslash
    · exact isOpen_code hs
    · refine (ih hq).prepend (took_readString_code h fun hn => ?_)
      rcases secondHalf?_cases (t := []) (by simpa using hq.isPrefix) with
        hs | ⟨_, _, _, _, _, _, _, _, _, hcode, hm, -⟩
      · exact hs
      · cases hcode
        exact absurd (Bool.and_eq_true_iff.mpr ⟨hn, hm⟩) hpair
  | case6 a b c d n h marks hne ih =>
    rw [closedText_cons] at hp
    rcases cut_code hp with rfl | rfl | ⟨s, hs, rfl⟩ | ⟨e, t, rfl, hq⟩
    · exact isOpen_nil
    · exact isOpen_backslash
    · exact isOpen_code hs
    · refine (ih hq).prepend (took_readString_code h fun _ => ?_)
      rcases secondHalf?_cases (t := []) (by simpa using hq.isPrefix) with
        hs | ⟨_, _, _, _, _, _, _, _, _, hcode, -⟩
      · exact hs
      · exact absurd hcode (hne _ _ _ _ _ _ _)

end Json

end ServerPages
