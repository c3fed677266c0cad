import ServerPages.Proofs.Code.Spans
import ServerPages.Proofs.Text.Pieces

/-!
# Moving the lines of code

Lines stand behind a line with a newline before each (`behind`). Moving them changes the white space
with which they begin, or empties those of white space (`IsMove`). Part of a line that is moved is
found where it began only if the line stands where it stood (`IsMove.behind_prefix_iff`).
-/

namespace ServerPages

namespace Code

variable {move : Text → Text} {l p q r s t u w x y z : Text} {ls mid back : List Text} {c : Char}
  {k : Nat}

/-! ### Lines -/

/-- Lines that stand behind a line, a newline before each. -/
def behind (ls : List Text) : Text := ls.flatMap ('\n' :: ·)

@[simp]
theorem behind_nil : behind [] = [] := rfl

@[simp]
theorem behind_cons (l : Text) (ls : List Text) : behind (l :: ls) = '\n' :: (l ++ behind ls) := rfl

@[simp]
theorem behind_append (ls back : List Text) : behind (ls ++ back) = behind ls ++ behind back :=
  List.flatMap_append

theorem joinWith_cons (l : Text) (ls : List Text) :
    Text.joinWith ['\n'] (l :: ls) = l ++ behind ls := by
  induction ls generalizing l with
  | nil => simp [Text.joinWith]
  | cons m ls ih => simp [Text.joinWith, ih]

theorem flatMap_newline_cons (l : Text) (ls : List Text) :
    (l :: ls).flatMap (· ++ ['\n']) = l ++ behind (ls ++ [[]]) := by
  induction ls generalizing l with
  | nil => simp
  | cons m ls ih =>
    rw [List.flatMap_cons, ih]
    simp

/-- What stands behind a line begins with a newline. -/
theorem head?_behind (ls : List Text) : ∀ c ∈ (behind ls).head?, c = '\n' := by
  cases ls <;> simp

theorem forall_mem_behind {P : Char → Prop} (hnewline : P '\n') (h : ∀ l ∈ ls, ∀ c ∈ l, P c) :
    ∀ c ∈ behind ls, P c := by
  intro c hc
  obtain ⟨l, hl, hc⟩ := List.mem_flatMap.mp hc
  obtain rfl | hc := List.mem_cons.mp hc
  · exact hnewline
  · exact h l hl c hc

theorem isAllBlank_joinWith (h : ∀ l ∈ ls, Text.isAllBlank l = true) :
    Text.isAllBlank (Text.joinWith ['\n'] ls) = true := by
  refine List.all_eq_true.mpr fun c hc => ?_
  obtain hsep | ⟨l, hl, hcl⟩ := Text.mem_joinWith hc
  · rw [List.mem_singleton.mp hsep]
    rfl
  · exact List.all_eq_true.mp (h l hl) c hcl

/-- Where a line ends in a text is told by its first newline. -/
theorem eq_of_append_newline (hl : '\n' ∉ l) (hr : '\n' ∉ r) (hy : ∀ c ∈ y.head?, c = '\n')
    (h : l ++ y = r ++ '\n' :: u) : l = r ∧ y = '\n' :: u := by
  have htake : (l ++ y).takeWhile (· ≠ '\n') = (r ++ '\n' :: u).takeWhile (· ≠ '\n') := by rw [h]
  have hself : ∀ v : Text, '\n' ∉ v → v.takeWhile (· ≠ '\n') = v := by
    intro v hv
    refine List.takeWhile_eq_self_iff.mpr fun c hc => ?_
    simpa using ne_of_mem_of_not_mem hc hv
  rw [takeWhile_append_line hy (by decide), takeWhile_append_line (by simp) (by decide), hself l hl,
    hself r hr] at htake
  subst htake
  exact ⟨rfl, List.append_cancel_left h⟩

theorem eq_of_append_lineEnds (hl : '\n' ∉ l) (hr : '\n' ∉ r) (hy : ∀ c ∈ y.head?, c = '\n')
    (hu : LineEnds u w) (h : l ++ y = r ++ u) : l = r ∧ y = u := by
  cases hu with
  | newline => exact eq_of_append_newline hl hr hy h
  | eof =>
    rw [List.append_nil] at h
    obtain rfl | ⟨y, rfl⟩ := eq_nil_or_newline hy
    · exact ⟨by simpa using h, rfl⟩
    · exact absurd (by rw [← h]; simp) hr

theorem dropWhile_append_line (hy : ∀ c ∈ y.head?, c = '\n') :
    (x ++ y).dropWhile isPad = x.dropWhile isPad ++ y := by
  induction x with
  | nil => obtain rfl | ⟨y, rfl⟩ := eq_nil_or_newline hy <;> rfl
  | cons c x ih =>
    rw [List.cons_append, List.dropWhile_cons, List.dropWhile_cons, ih]
    split <;> rfl

/-- A part of the lines behind a line that ends with a visible character ends in one of them. -/
theorem exists_take_behind (hback : ∀ l ∈ back, Text.isAllBlank l = true)
    (hc : Text.isBlank c = false) (hk : 0 < k) (hle : k ≤ (behind (ls ++ back)).length)
    (hend : [c] <:+ (behind (ls ++ back)).take k) :
    ∃ mid p r rest, ls = mid ++ (p ++ r) :: rest ∧ c ∈ p ∧
      (behind (ls ++ back)).take k = behind (mid ++ [p]) ∧
      (behind (ls ++ back)).drop k = r ++ behind (rest ++ back) := by
  have hne : c ≠ '\n' := by
    rintro rfl
    cases hc
  induction ls generalizing k with
  | nil =>
    have hmem : c ∈ behind back := List.mem_of_mem_take (hend.mem (List.mem_singleton.mpr rfl))
    have hblank := forall_mem_behind (P := fun c => Text.isBlank c = true) rfl
      (fun l hl => List.all_eq_true.mp (hback l hl)) c hmem
    rw [hc] at hblank
    cases hblank
  | cons l ls ih =>
    obtain ⟨k, rfl⟩ := Nat.exists_eq_succ_of_ne_zero hk.ne'
    rw [List.cons_append, behind_cons] at hle hend ⊢
    rw [List.take_succ_cons, List.drop_succ_cons]
    rw [List.take_succ_cons] at hend
    by_cases hkl : k ≤ l.length
    · rw [List.take_append_of_le_length hkl] at hend ⊢
      rw [List.drop_append_of_le_length hkl]
      refine ⟨[], l.take k, l.drop k, ls, by simp, ?_, by simp, rfl⟩
      obtain heq | hend := List.suffix_cons_iff.mp hend
      · exact absurd (List.cons.inj heq).1 hne
      · exact hend.mem (List.mem_singleton.mpr rfl)
    · obtain ⟨j, rfl⟩ := Nat.exists_eq_add_of_le (not_le.mp hkl).le
      have hj : 0 < j := by omega
      have hlej : j ≤ (behind (ls ++ back)).length := by
        rw [List.length_cons, List.length_append] at hle
        omega
      rw [List.take_length_add_append] at hend ⊢
      rw [List.drop_length_add_append]
      have hend' : [c] <:+ (behind (ls ++ back)).take j := by
        refine List.suffix_of_suffix_length_le hend ?_ ?_
        · exact (List.suffix_append _ _).trans (List.suffix_cons _ _)
        · rw [List.length_take, List.length_singleton]
          omega
      obtain ⟨mid, p, r, rest, rfl, hp, htake, hdrop⟩ := ih hj hlej hend'
      exact ⟨l :: mid, p, r, rest, rfl, hp, by rw [htake]; rfl, hdrop⟩

/-! ### Moving lines -/

/-- A way to move lines: it changes the white space that begins a line, and may empty a line of
white space. -/
structure IsMove (move : Text → Text) : Prop where
  not_mem : ∀ l, '\n' ∉ l → '\n' ∉ move l
  alike : ∀ l, (move l).dropWhile isPad = l.dropWhile isPad ∨
    Text.isAllBlank l = true ∧ move l = []
  append : ∀ l r, Text.isAllBlank l = false → move (l ++ r) = move l ++ r

theorem IsMove.code (hmove : IsMove move) (hl : Text.isAllBlank l = false) :
    (move l).dropWhile isPad = l.dropWhile isPad :=
  (hmove.alike l).resolve_right fun h => by simp [hl] at h

private theorem dropWhile_isBlank_eq (h : s.dropWhile isPad = t.dropWhile isPad) :
    s.dropWhile Text.isBlank = t.dropWhile Text.isBlank := by
  have hpads : ∀ v : Text,
      v.dropWhile Text.isBlank = (v.dropWhile isPad).dropWhile Text.isBlank := by
    intro v
    induction v with
    | nil => rfl
    | cons c v ih =>
      by_cases hc : isPad c = true
      · rw [List.dropWhile_cons_of_pos hc, List.dropWhile_cons_of_pos (isBlank_of_isPad hc), ih]
      · rw [List.dropWhile_cons_of_neg hc]
  rw [hpads s, h, ← hpads t]

/-- A line that is moved begins as it began only if it stands where it stood. -/
theorem IsMove.prefix_iff (hmove : IsMove move) (hp : Text.isAllBlank p = false) (w : Text) :
    p <+: move p ++ w ↔ move p = p := by
  have hvisible : p.dropWhile Text.isBlank ≠ [] := by
    intro hnil
    rw [List.dropWhile_eq_nil_iff] at hnil
    rw [Text.isAllBlank, List.all_eq_true.mpr hnil] at hp
    cases hp
  constructor
  · -- both begin with white space up to the same visible character, so this is the same
    intro hprefix
    have hsame := dropWhile_isBlank_eq (hmove.code hp)
    obtain ⟨v, hv⟩ := hprefix
    have htake : (p ++ v).takeWhile Text.isBlank = (move p ++ w).takeWhile Text.isBlank := by
      rw [hv]
    have hstop : ∀ a b : Text, a.dropWhile Text.isBlank ≠ [] →
        (a ++ b).takeWhile Text.isBlank = a.takeWhile Text.isBlank := by
      intro a b ha
      induction a with
      | nil => exact absurd rfl ha
      | cons c a ih =>
        rw [List.cons_append, List.takeWhile_cons, List.takeWhile_cons]
        split
        · next hc =>
          rw [List.dropWhile_cons_of_pos hc] at ha
          rw [ih ha]
        · rfl
    rw [hstop p v hvisible, hstop (move p) w (hsame ▸ hvisible)] at htake
    rw [← List.takeWhile_append_dropWhile (p := Text.isBlank) (l := move p), hsame, ← htake,
      List.takeWhile_append_dropWhile]
  · intro hfixed
    rw [hfixed]
    exact List.prefix_append p w

/-- Lines that are moved begin as they began only if each of them stands where it stood. -/
theorem IsMove.behind_prefix_iff (hmove : IsMove move) (hmid : ∀ l ∈ mid, '\n' ∉ l)
    (hp : Text.isAllBlank p = false) (w : Text) :
    behind (mid ++ [p]) <+: behind (mid.map move) ++ '\n' :: (move p ++ w) ↔
      ∀ l ∈ mid ++ [p], move l = l := by
  induction mid with
  | nil => simpa using hmove.prefix_iff hp w
  | cons l mid ih =>
    rw [List.forall_mem_cons] at hmid
    have hrest : ∀ a : Text, ∃ b, behind (mid.map move) ++ '\n' :: a = '\n' :: b := by
      intro a
      cases mid <;> simp
    obtain ⟨b, hb⟩ := hrest (move p ++ w)
    obtain ⟨d, hd⟩ : ∃ d, behind (mid ++ [p]) = '\n' :: d := by cases mid <;> simp
    rw [List.cons_append, List.forall_mem_cons, ← ih hmid.2, List.map_cons, behind_cons,
      behind_cons, List.cons_append, List.cons_prefix_cons, List.append_assoc, hb, hd]
    constructor
    · rintro ⟨-, v, hv⟩
      rw [List.append_assoc, List.cons_append] at hv
      obtain ⟨hl, hrest⟩ := eq_of_append_newline hmid.1 (hmove.not_mem l hmid.1) (by simp) hv
      exact ⟨hl.symm, v, by simpa using hrest⟩
    · rintro ⟨hl, hprefix⟩
      rw [hl]
      exact ⟨rfl, (List.prefix_append_right_inj l).mpr hprefix⟩

end Code

end ServerPages
