import ServerPages.Path.Canonical
import ServerPages.Proofs.Text.Pieces

/-!
# The names in a path

A path is a text, and what the file system follows are its names. This module ties the two views
together: a path is split at its slashes, and the normal form of a path spells its reduced names
(`filter_names_normalise`).

Names fall into three kinds. A *stay* name is empty or a dot, an *up* name is a double dot, and
every other name is *plain*.
-/

namespace ServerPages

namespace Path

/-! ### Kinds of names -/

/-- A name that leads nowhere else. -/
def IsStay (n : Text) : Prop := n = [] ∨ n = ['.']

/-- The name that leads to the directory above. -/
abbrev up : Text := ['.', '.']

/-- A name that is looked up. -/
def IsPlain (n : Text) : Prop := ¬ IsStay n ∧ n ≠ up

instance (n : Text) : Decidable (IsPlain n) :=
  inferInstanceAs (Decidable (¬ (n = [] ∨ n = ['.']) ∧ n ≠ up))

theorem stay_or_up_or_plain (n : Text) : IsStay n ∨ n = up ∨ IsPlain n := by
  by_cases hs : IsStay n
  · exact .inl hs
  · by_cases hu : n = up
    · exact .inr (.inl hu)
    · exact .inr (.inr ⟨hs, hu⟩)

theorem not_isStay_up : ¬ IsStay up := by simp [IsStay, up]

theorem IsPlain.ne_nil {n : Text} (h : IsPlain n) : n ≠ [] := fun hn => h.1 (.inl hn)

/-- The test for a stay name, as the functions on paths write it. -/
theorem isStay_iff {n : Text} : (n = [] || n = ['.']) = true ↔ IsStay n := by
  simp [IsStay]

/-! ### Reduced names -/

variable {done : List Text} {n : Text}

theorem reduceStep_stay (rooted : Bool) (h : IsStay n) : reduceStep rooted done n = done := by
  unfold reduceStep
  rw [if_pos (isStay_iff.mpr h)]

theorem reduceStep_plain (rooted : Bool) (h : IsPlain n) :
    reduceStep rooted done n = n :: done := by
  unfold reduceStep
  rw [if_neg (mt isStay_iff.mp h.1), if_neg h.2]

/-- From the root, a double dot takes away the last name kept, if that is plain. -/
theorem reduceStep_up (h : ∀ m ∈ done, IsPlain m) : reduceStep true done up = done.tail := by
  unfold reduceStep
  rw [if_neg (mt isStay_iff.mp not_isStay_up), if_pos rfl]
  cases done with
  | nil => rfl
  | cons m rest => exact if_neg (h m List.mem_cons_self).2

/-- From the root only plain names remain, and they are among those given. -/
theorem mem_foldl_reduceStep {names : List Text} (h : ∀ m ∈ done, IsPlain m) :
    ∀ m ∈ names.foldl (reduceStep true) done, IsPlain m ∧ (m ∈ done ∨ m ∈ names) := by
  induction names generalizing done with
  | nil => exact fun m hm => ⟨h m hm, .inl hm⟩
  | cons n names ih =>
    have hstep : (∀ m ∈ reduceStep true done n, IsPlain m) ∧
        ∀ m ∈ reduceStep true done n, m ∈ done ∨ m = n := by
      rcases stay_or_up_or_plain n with hn | rfl | hn
      · rw [reduceStep_stay true hn]
        exact ⟨h, fun m hm => .inl hm⟩
      · rw [reduceStep_up h]
        exact ⟨fun m hm => h m (List.mem_of_mem_tail hm),
          fun m hm => .inl (List.mem_of_mem_tail hm)⟩
      · rw [reduceStep_plain true hn]
        simp only [List.mem_cons]
        refine ⟨?_, fun m hm => hm.symm⟩
        rintro m (rfl | hm)
        · exact hn
        · exact h m hm
    intro m hm
    obtain ⟨hp, hmem⟩ := ih hstep.1 m hm
    refine ⟨hp, ?_⟩
    rcases hmem with hmem | hmem
    · rcases hstep.2 m hmem with hd | rfl
      · exact .inl hd
      · exact .inr List.mem_cons_self
    · exact .inr (List.mem_cons_of_mem _ hmem)

theorem isPlain_of_mem_reduce {names : List Text} (h : n ∈ reduce true names) : IsPlain n :=
  (mem_foldl_reduceStep (fun _ hm => absurd hm List.not_mem_nil) n (List.mem_reverse.mp h)).1

theorem mem_of_mem_reduce {names : List Text} (h : n ∈ reduce true names) : n ∈ names :=
  (mem_foldl_reduceStep (fun _ hm => absurd hm List.not_mem_nil) n
    (List.mem_reverse.mp h)).2.resolve_left List.not_mem_nil

/-- Stay names make no difference. -/
theorem reduce_filter (names : List Text) :
    reduce true (names.filter fun n => n ≠ [] && n ≠ ['.']) = reduce true names := by
  rw [reduce, List.foldl_filter, reduce]
  congr 2
  funext done n
  by_cases hn : IsStay n
  · rw [reduceStep_stay true hn, ite_self]
  · have hne := not_or.mp hn
    rw [if_pos (by simp [hne.1, hne.2])]

/-! ### The names of a text -/

theorem not_mem_of_mem_names {path : Text} (h : n ∈ names path) : '/' ∉ n :=
  Text.not_mem_of_mem_splitOn h

theorem mem_of_mem_names {path : Text} {c : Char} (hn : n ∈ names path) (hc : c ∈ n) :
    c ∈ path :=
  Text.mem_of_mem_splitOn hn hc

theorem names_cons_slash (s : Text) : names ('/' :: s) = [] :: names s :=
  Text.splitOn_append_cons [] s

private theorem isAbsolute_iff {path : Text} : isAbsolute path = true ↔ ∃ rest, path = '/' :: rest := by
  unfold isAbsolute
  split
  · exact iff_of_true rfl ⟨_, rfl⟩
  · next h => exact iff_of_false (by simp) fun ⟨rest, hrest⟩ => h rest hrest

/-- What is joined to an absolute path is absolute. -/
theorem isAbsolute_join {base path : Text} (h : isAbsolute base = true) :
    isAbsolute (join base path) = true := by
  obtain ⟨rest, rfl⟩ := isAbsolute_iff.mp h
  unfold join
  split
  · assumption
  · split <;> exact isAbsolute_iff.mpr ⟨_, rfl⟩

theorem join_ne_nil {base : Text} (h : base ≠ []) (path : Text) : join base path ≠ [] := by
  unfold join
  split
  · next habs =>
    obtain ⟨rest, rfl⟩ := isAbsolute_iff.mp habs
    exact List.cons_ne_nil _ _
  · split <;> exact fun hnil => h (List.append_eq_nil_iff.mp hnil).1

private theorem exists_rootMark {path : Text} (h : isAbsolute path = true) :
    rootMark path = ['/'] ∨ rootMark path = ['/', '/'] := by
  obtain ⟨rest, rfl⟩ := isAbsolute_iff.mp h
  unfold rootMark
  split
  · exact .inl rfl
  · exact .inr rfl
  · exact .inl rfl
  · next h => exact absurd rfl (h rest)

private theorem rootMark_of_relative {path : Text} (h : isAbsolute path = false) : rootMark path = [] := by
  unfold rootMark
  split <;> first | rfl | simp [isAbsolute] at h

/-- The normal form of an absolute path spells its reduced names. -/
theorem filter_names_normalise {path : Text} (h : isAbsolute path = true) :
    (names (normalise path)).filter (· ≠ []) = reduce true (names path) := by
  have hkept : ∀ m ∈ reduce true (names path), m ≠ [] := fun m hm =>
    (isPlain_of_mem_reduce hm).ne_nil
  have hjoin : (names (Text.joinWith ['/'] (reduce true (names path)))).filter (· ≠ []) =
      reduce true (names path) := by
    by_cases hnil : reduce true (names path) = []
    · rw [hnil]
      rfl
    · rw [names, Text.splitOn_joinWith hnil fun m hm =>
        not_mem_of_mem_names (mem_of_mem_reduce hm)]
      exact List.filter_eq_self.mpr (by simpa using hkept)
  rcases exists_rootMark h with hmark | hmark
  · rw [normalise, h, hmark, List.singleton_append, List.isEmpty_cons, if_neg (by simp),
      names_cons_slash, List.filter_cons_of_neg (by simp), hjoin]
  · rw [normalise, h, hmark, List.cons_append, List.singleton_append, List.isEmpty_cons,
      if_neg (by simp), names_cons_slash, names_cons_slash, List.filter_cons_of_neg (by simp),
      List.filter_cons_of_neg (by simp), hjoin]

/-- A tidy path holds the names of the path that are no stay names, and no others but stay
names. -/
theorem filter_names_tidy (path : Text) :
    (names (tidy path)).filter (fun n => n ≠ [] && n ≠ ['.']) =
      (names path).filter (fun n => n ≠ [] && n ≠ ['.']) := by
  generalize hkept : (names path).filter (fun n => n ≠ [] && n ≠ ['.']) = kept
  have hself : kept.filter (fun n => n ≠ [] && n ≠ ['.']) = kept := by
    rw [← hkept, List.filter_filter]
    simp
  have hjoin : (names (Text.joinWith ['/'] kept)).filter (fun n => n ≠ [] && n ≠ ['.']) = kept := by
    by_cases hnil : kept = []
    · rw [hnil]
      rfl
    · rw [names, Text.splitOn_joinWith hnil, hself]
      intro n hn
      rw [← hkept] at hn
      exact not_mem_of_mem_names (List.mem_filter.mp hn).1
  simp only [tidy, hkept]
  split
  · next hempty =>
    have hnil : Text.joinWith ['/'] kept = [] := by
      rw [List.isEmpty_iff, List.append_eq_nil_iff] at hempty
      exact hempty.2
    rw [hnil] at hjoin
    rw [← hjoin]
    rfl
  · cases habs : isAbsolute path with
    | true =>
      rcases exists_rootMark habs with hmark | hmark
      · rw [hmark, List.singleton_append, names_cons_slash, List.filter_cons_of_neg (by simp),
          hjoin]
      · rw [hmark, List.cons_append, List.singleton_append, names_cons_slash, names_cons_slash,
          List.filter_cons_of_neg (by simp), List.filter_cons_of_neg (by simp), hjoin]
    | false => rw [rootMark_of_relative habs, List.nil_append, hjoin]

theorem tidy_ne_nil (path : Text) : tidy path ≠ [] := by
  simp only [tidy]
  split
  · exact List.cons_ne_nil _ _
  · next h => exact mt List.isEmpty_iff.mpr h

theorem mem_tidy {path : Text} {c : Char} (h : c ∈ tidy path) : c ∈ path ∨ c = '/' ∨ c = '.' := by
  simp only [tidy] at h
  split at h
  · exact .inr (.inr (List.mem_singleton.mp h))
  · rcases List.mem_append.mp h with h | h
    · refine .inr (.inl ?_)
      cases habs : isAbsolute path with
      | true => rcases exists_rootMark habs with hm | hm <;> rw [hm] at h <;> simpa using h
      | false => exact absurd (rootMark_of_relative habs ▸ h) List.not_mem_nil
    · rcases Text.mem_joinWith h with h | ⟨n, hn, hc⟩
      · exact .inr (.inl (List.mem_singleton.mp h))
      · exact .inl (mem_of_mem_names (List.mem_filter.mp hn).1 hc)

theorem isAbsolute_tidy (path : Text) : isAbsolute (tidy path) = isAbsolute path := by
  cases habs : isAbsolute path with
  | true =>
    obtain ⟨rest, hrest⟩ : ∃ rest, rootMark path = '/' :: rest := by
      rcases exists_rootMark habs with hmark | hmark <;> exact ⟨_, hmark⟩
    simp only [tidy, hrest, List.cons_append, List.isEmpty_cons, Bool.false_eq_true, if_false]
    rfl
  | false =>
    rw [Bool.eq_false_iff, Ne, isAbsolute_iff]
    rintro ⟨rest, hrest⟩
    simp only [tidy, rootMark_of_relative habs, List.nil_append] at hrest
    generalize hkept : (names path).filter (fun n => n ≠ [] && n ≠ ['.']) = kept at hrest
    have hmem : ∀ n ∈ kept, n ≠ [] ∧ '/' ∉ n := by
      intro n hn
      rw [← hkept, List.mem_filter] at hn
      have hne : n ≠ [] ∧ n ≠ ['.'] := by simpa using hn.2
      exact ⟨hne.1, not_mem_of_mem_names hn.1⟩
    split at hrest
    · cases hrest
    · next hne =>
      have hnil : kept ≠ [] := by
        rintro rfl
        exact hne rfl
      -- a text that begins with a separator begins with an empty name
      have hsplit := Text.splitOn_joinWith hnil fun n hn => (hmem n hn).2
      rw [hrest] at hsplit
      have hfirst := hsplit.symm.trans (names_cons_slash rest)
      exact (hmem [] (hfirst ▸ List.mem_cons_self)).1 rfl

end Path

end ServerPages
