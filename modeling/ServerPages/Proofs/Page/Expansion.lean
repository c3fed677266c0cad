import ServerPages.Page.Include

/-!
# Pages that include nothing

An `include` directive begins with its opening and white space, names a target on one line, and
ends with a terminator (`Inclusion.Begins`). A page in which no such directive begins is its own
expansion (`Inclusion.expand_of_absent`).
-/

namespace ServerPages

namespace Inclusion

/-- An `include` directive begins the text. -/
def Begins (s : Text) : Prop :=
  ∃ spacing target gap rest, spacing ≠ [] ∧ (∀ c ∈ spacing, Text.isBlank c = true) ∧
    target ≠ [] ∧ (∀ c ∈ target.head?, Text.isBlank c = false) ∧ '\n' ∉ target.tail ∧
    (∀ c ∈ gap, Text.isBlank c = true) ∧
    s = opening ++ spacing ++ target ++ gap ++ Directive.terminator ++ rest

/-- No `include` directive begins anywhere in the text. -/
def Absent (s : Text) : Prop := ∀ t, t <:+ s → ¬ Begins t

private theorem mem_leadingBlanks {c : Char} {s : Text} (h : c ∈ Text.leadingBlanks s) :
    Text.isBlank c = true := by
  induction s with
  | nil => cases h
  | cons d s ih =>
    rw [Text.leadingBlanks, List.takeWhile_cons] at h
    split at h
    · next hd =>
      rcases List.mem_cons.mp h with rfl | h
      · exact hd
      · exact ih h
    · cases h

theorem beforeClosing_append {s t rest : Text} (h : beforeClosing closing? s = some (t, rest)) :
    '\n' ∉ t ∧ ∃ gap, (∀ c ∈ gap, Text.isBlank c = true) ∧
      s = t ++ gap ++ Directive.terminator ++ rest := by
  induction s generalizing t with
  | nil => cases h
  | cons c s ih =>
    rw [beforeClosing] at h
    cases hc : closing? (c :: s) with
    | some r =>
      rw [hc] at h
      cases h
      have hr := Text.after?_eq_some_iff.mp hc
      refine ⟨List.not_mem_nil, Text.leadingBlanks (c :: s), fun _ => mem_leadingBlanks, ?_⟩
      rw [List.nil_append, List.append_assoc, ← hr, Text.leadingBlanks_append_trimLeft]
    | none =>
      rw [hc] at h
      by_cases hn : c = '\n'
      · simp [hn] at h
      · simp only [hn, ↓reduceIte, Option.map_eq_some_iff] at h
        obtain ⟨⟨t', r'⟩, hs, he⟩ := h
        cases he
        obtain ⟨ht, gap, hgap, hs⟩ := ih hs
        refine ⟨fun hmem => ?_, gap, hgap, congrArg (c :: ·) hs⟩
        rcases List.mem_cons.mp hmem with rfl | hmem
        · exact hn rfl
        · exact ht hmem

/-- A directive that is found follows the grammar. -/
theorem begins_of_match {s : Text} {m : Target} (h : match? s = some m) : Begins s := by
  obtain ⟨a, ha, hm⟩ := Option.bind_eq_some_iff.mp h
  obtain rfl := Text.after?_eq_some_iff.mp ha
  unfold target? at hm
  split at hm
  · cases hm
  · next hspacing =>
    split at hm
    · cases hm
    · next c t hc =>
      obtain ⟨⟨tail, rest⟩, ht, -⟩ := Option.map_eq_some_iff.mp hm
      obtain ⟨htail, gap, hgap, rfl⟩ := beforeClosing_append ht
      refine ⟨Text.leadingBlanks a, c :: tail, gap, rest, by simpa using hspacing,
        fun _ => mem_leadingBlanks, by simp, ?_, htail, hgap, ?_⟩
      · intro x hx
        obtain rfl : c = x := Option.some.inj hx
        have := List.head?_dropWhile_not Text.isBlank a
        rw [show a.dropWhile Text.isBlank = _ from hc] at this
        simpa using this
      · have ha := Text.leadingBlanks_append_trimLeft a
        rw [hc] at ha
        simpa using congrArg (opening ++ ·) ha.symm

theorem absent_of_not_infix {s : Text} (h : ¬ opening <:+: s) : Absent s := by
  rintro t ht ⟨spacing, target, gap, rest, -, -, -, -, -, -, rfl⟩
  refine h (List.IsInfix.trans ?_ ht.isInfix)
  simp only [List.append_assoc]
  exact (List.prefix_append opening _).isInfix

private theorem Absent.match?_eq_none {s t : Text} (h : Absent s) (ht : t <:+ s) : match? t = none := by
  cases hm : match? t with
  | none => rfl
  | some m => exact absurd (begins_of_match hm) (h t ht)

theorem Absent.tail {c : Char} {s : Text} (h : Absent (c :: s)) : Absent s :=
  fun t ht => h t (ht.trans (List.suffix_cons c s))

/-- The pieces of a page that includes nothing: its text. -/
theorem pieces_of_absent {s : Text} (h : Absent s) :
    pieces s = if s = [] then [] else [.literal s] := by
  induction s with
  | nil => rw [pieces]; rfl
  | cons c s ih =>
    have hnone := h.match?_eq_none List.suffix_rfl
    rw [pieces]
    split
    · next hm => cases hm.symm.trans hnone
    · rw [ih h.tail]
      cases s with
      | nil => rfl
      | cons d s => rfl

/-- **A page that includes nothing is its own expansion.** -/
theorem expand_of_absent {s : Text} (h : Absent s) (e : Setting) (st : State) :
    expand e s st = (.ok s, st) := by
  rw [expand, pieces_of_absent h]
  split
  · next hs => rw [hs, expandPieces]
  · rw [expandPieces, expandPieces]
    exact congrArg (Except.ok · , st) (List.append_nil s)

end Inclusion

end ServerPages
