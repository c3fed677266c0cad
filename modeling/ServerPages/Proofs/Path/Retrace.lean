import ServerPages.Proofs.Path.Resolution

/-!
# Paths read alike

The guard reads a path by its normal form, in which a double dot takes away the name before it;
the file system follows that name first. The two readings agree on a path that *retraces*: each
of its double dots leads to where the normal form leads (`FileTree.Retraces`). Then an opened
file stands at the canonical location of its path (`locate_of_openRaw`), unless the path ends in
a link that points to nothing (`FileTree.Dangles`).
-/

namespace ServerPages

namespace Path

/-- The names from the root on that a path spells, seen from the directory `cwd`. -/
def spelled (cwd : Location) (path : Text) : List Text :=
  if isAbsolute path then names path else cwd ++ names path

private theorem reduce_append_stay {names : List Text} {n : Text} (hn : IsStay n) :
    reduce true (names ++ [n]) = reduce true names := by
  rw [reduce, List.foldl_append, List.foldl_cons, List.foldl_nil, reduceStep_stay true hn, reduce]

theorem reduce_append_plain {names : List Text} {n : Text} (hn : IsPlain n) :
    reduce true (names ++ [n]) = reduce true names ++ [n] := by
  rw [reduce, List.foldl_append, List.foldl_cons, List.foldl_nil, reduceStep_plain true hn,
    List.reverse_cons, reduce]

theorem reduce_nil_cons (names : List Text) : reduce true ([] :: names) = reduce true names := by
  rw [reduce, List.foldl_cons, reduceStep_stay true (.inl rfl), reduce]

end Path

namespace Location

theorem getLast?_path_ne {loc : Location} (hne : loc ≠ []) (h : Legible loc) :
    loc.path.getLast? ≠ some '/' := by
  obtain rfl | ⟨init, n, rfl⟩ := List.eq_nil_or_concat' loc
  · exact absurd rfl hne
  · obtain ⟨hn, hslash⟩ := h n (by simp)
    rw [path_of_ne_nil hne, List.flatMap_append, List.flatMap_cons, List.flatMap_nil,
      List.append_nil, List.getLast?_append, List.getLast?_cons]
    intro hlast
    have hmem : '/' ∈ n := by
      rw [List.getLast?_eq_some_getLast hn] at hlast
      have hc : n.getLast hn = '/' := by simpa using hlast
      exact hc ▸ List.getLast_mem hn
    exact hslash hmem

/-- What a relative path spells behind the path of the directory it is seen from. -/
theorem names_join_path {cwd : Location} {path : Text} (h : Legible cwd)
    (hrel : Path.isAbsolute path = false) :
    Path.names (Path.join cwd.path path) = [] :: (cwd ++ Path.names path) := by
  rw [Path.join, if_neg (by simp [hrel])]
  by_cases hne : cwd = []
  · subst hne
    exact Path.names_cons_slash path
  · have hnil : cwd.path.isEmpty = false := by simpa using path_ne_nil cwd
    rw [if_neg (by simp [hnil, getLast?_path_ne hne h]), Path.names, Text.splitOn_append_cons,
      ← Path.names, names_path hne h]
    rfl

end Location

namespace FileTree

open ServerPages.Path (IsStay IsPlain)

variable {t : FileTree} {cwd loc c : Location} {path : Text}

/-- Each double dot leads to where the normal form of the names up to it leads. -/
def Retraces (t : FileTree) (names : List Text) : Prop :=
  ∀ pre post loc, names = pre ++ Path.up :: post → t.Leads [] pre loc →
    t.Leads [] (Path.reduce true (pre ++ [Path.up])) loc.up

/-- A path ends in a link that points to nothing. -/
def Dangles (t : FileTree) (cwd : Location) (path : Text) : Prop :=
  (∃ l s, t.reach cwd false path = .ok (.entry l (.link s))) ∧
    ∃ l closed, t.reach cwd true path = .ok (.vacant l closed)

/-- Without double dots there is nothing to retrace. -/
theorem retraces_of_not_mem {names : List Text} (h : Path.up ∉ names) : t.Retraces names := by
  rintro pre post loc rfl
  exact absurd (by simp) h

theorem Retraces.of_append {a b : List Text} (h : t.Retraces (a ++ b)) : t.Retraces a := by
  rintro pre post loc rfl hpre
  exact h pre (post ++ b) loc (by simp) hpre

/-- Names that retrace lead to where their normal form leads. -/
theorem Retraces.leads_reduce {names : List Text} (hr : t.Retraces names)
    (h : t.Leads [] names loc) : t.Leads [] (Path.reduce true names) loc := by
  induction names using List.reverseRecOn generalizing loc with
  | nil => exact h
  | append_singleton names n ih =>
    obtain ⟨mid, hmid, hlast⟩ := leads_append_iff.mp h
    rcases Path.stay_or_up_or_plain n with hn | rfl | hn
    · obtain ⟨-, hlast⟩ := (leads_stay_iff hn).mp hlast
      rw [leads_nil_iff.mp hlast, Path.reduce_append_stay hn]
      exact ih hr.of_append hmid
    · obtain ⟨-, hlast⟩ := leads_up_iff.mp hlast
      rw [leads_nil_iff.mp hlast]
      exact hr names [] mid rfl hmid
    · rw [Path.reduce_append_plain hn]
      exact leads_append_iff.mpr ⟨mid, ih hr.of_append hmid, hlast⟩

/-! ### Both readings of a path -/

/-- The guard's reading: the canonical location of the reduced names. -/
theorem locate_eq_canonicalFrom (hcwd : cwd.Legible) :
    t.locate cwd path = t.canonicalFrom (Path.reduce true (Path.spelled cwd path)) [] := by
  rw [locate, Path.absolute, Path.spelled]
  cases habs : Path.isAbsolute path with
  | true => rw [if_pos rfl, if_pos rfl, Path.filter_names_normalise habs]
  | false =>
    have hjoin : Path.isAbsolute (Path.join cwd.path path) = true :=
      Path.isAbsolute_join (Location.isAbsolute_path cwd)
    rw [if_neg (by simp), if_neg (by simp), Path.filter_names_normalise hjoin,
      Location.names_join_path hcwd habs, Path.reduce_nil_cons]

/-- A directory's own names lead to it. -/
theorem IsTree.leads_self (ht : t.IsTree) (h : t.get? loc = some .directory) :
    t.Leads [] loc loc := by
  induction loc using List.reverseRecOn with
  | nil => exact .here []
  | append_singleton loc n ih =>
    have hup := ht.get?_up h
    rw [Location.up, List.dropLast_concat] at hup
    have hn := ht.isName_of_get? h n (by simp)
    have hl := lookup_eq_ok_iff.mpr ⟨hup, hn.short, h⟩
    exact leads_append_iff.mpr ⟨loc, ih hup, .enter hn.plain hl directory_ne_link (.here _)⟩

/-- The file system's reading: what a path leads to, its names from the root lead to. -/
theorem IsTree.leads_spelled (ht : t.IsTree) (hcwd : t.get? cwd = some .directory)
    {names : List Text} (h : t.Leads (if Path.isAbsolute path then [] else cwd) names loc) :
    t.Leads [] (if Path.isAbsolute path then names else cwd ++ names) loc := by
  cases habs : Path.isAbsolute path with
  | true => simpa [habs] using h
  | false =>
    rw [if_neg (by simp)]
    exact leads_append_iff.mpr ⟨cwd, ht.leads_self hcwd, by simpa [habs] using h⟩

theorem walks_of_reach {follow : Bool} {r : Reached} (h : t.reach cwd follow path = .ok r) :
    t.Walks follow (if Path.isAbsolute path then [] else cwd) (Path.names path) r := by
  unfold reach at h
  split at h
  · cases h
  · split at h
    · cases h
    · exact walks_of_walk h

/-! ### Opened files -/

/-- What the file system does when it opens a path: it makes a file in a free place, or it finds
one. -/
theorem openRaw_cases {t' : FileTree} {purpose : Guarded.Purpose}
    (h : Guarded.openRaw t cwd path purpose = .ok (t', loc)) :
    (t.reach cwd (purpose ≠ .create) path = .ok (.vacant loc false) ∧ t' = t.put loc (.file [])) ∨
      ∃ b, t.reach cwd true path = .ok (.entry loc (.file b)) ∧
        (t' = t ∨ t' = t.put loc (.file [])) := by
  simp only [Guarded.openRaw] at h
  split at h
  · cases h
  · split at h
    · cases h
    · next l closed hreach =>
      split at h
      · cases h
      · split at h
        · cases h
        · next hclosed =>
          cases h
          exact .inl ⟨by simpa [hclosed] using hreach, rfl⟩
    · next l b hreach =>
      split at h
      · cases h
      · cases h
        exact .inr ⟨b, hreach, .inr rfl⟩
      · next hc _ =>
        cases h
        have hf : decide (purpose ≠ .create) = true := decide_eq_true hc
        rw [hf] at hreach
        exact .inr ⟨b, hreach, .inl rfl⟩
    · cases h
    · cases h

theorem get?_openRaw {t' : FileTree} {purpose : Guarded.Purpose} {other : Location}
    (h : Guarded.openRaw t cwd path purpose = .ok (t', loc)) (hne : other ≠ loc) :
    t'.get? other = t.get? other := by
  rcases openRaw_cases h with ⟨-, rfl⟩ | ⟨-, -, rfl | rfl⟩
  · exact get?_put_of_ne hne
  · rfl
  · exact get?_put_of_ne hne

section Located

variable (ht : t.IsTree) (hcwd : t.get? cwd = some .directory)
  (hr : t.Retraces (Path.spelled cwd path)) (hc : t.locate cwd path = .ok c)
include ht hcwd hr hc

/-- What stands where a path leads, stands at its canonical location. -/
theorem locate_of_reach_entry {follow : Bool} {e : Entry}
    (h : t.reach cwd follow path = .ok (.entry loc e)) (he : ∀ s, e ≠ .link s) : c = loc := by
  have hleads := ht.leads_spelled hcwd ((walks_of_reach h).leads he).1
  rw [locate_eq_canonicalFrom (ht.legible_of_get? hcwd)] at hc
  rw [canonicalFrom_of_leads (hr.leads_reduce hleads) hc, List.append_nil]

/-- A free place that a path leads to without following a last link is its canonical location. -/
theorem locate_of_reach_vacant (h : t.reach cwd false path = .ok (.vacant loc false)) :
    c = loc := by
  obtain ⟨pre, n, mid, hnames, hpre, hn, hl, rfl⟩ := (walks_of_reach h).vacant_last
  have hleads := ht.leads_spelled hcwd hpre
  rw [locate_eq_canonicalFrom (ht.legible_of_get? hcwd)] at hc
  rw [Path.spelled, hnames] at hr hc
  have hsplit : (if Path.isAbsolute path then pre ++ [n] else cwd ++ (pre ++ [n])) =
      (if Path.isAbsolute path then pre else cwd ++ pre) ++ [n] := by
    split <;> simp
  rw [hsplit] at hr hc
  rw [Path.reduce_append_plain hn] at hc
  exact canonicalFrom_of_vacant (hr.of_append.leads_reduce hleads) hn hl hc

/-- **Both readings agree.** A file that is opened by a path that retraces and does not end in a
link to nothing stands at the canonical location of the path. -/
theorem locate_of_openRaw {t' : FileTree} {purpose : Guarded.Purpose}
    (hd : ¬ t.Dangles cwd path) (h : Guarded.openRaw t cwd path purpose = .ok (t', loc)) :
    c = loc := by
  rcases openRaw_cases h with ⟨hreach, -⟩ | ⟨b, hreach, -⟩
  · refine locate_of_reach_vacant ht hcwd hr hc ?_
    cases hf : decide (purpose ≠ .create) with
    | false => rwa [hf] at hreach
    | true =>
      rw [hf] at hreach
      -- the last name is no link, since a link to nothing is ruled out
      have hlink : ¬ ∃ l s, t.reach cwd false path = .ok (.entry l (.link s)) := fun hl =>
        hd ⟨hl, _, _, hreach⟩
      unfold reach at hreach hlink ⊢
      split at hreach
      · cases hreach
      · next hne =>
        split at hreach
        · cases hreach
        · next hshort =>
          rw [if_neg hne, if_neg hshort] at hlink ⊢
          rcases walk_true_eq_or with hw | hw
          · rwa [hw] at hreach
          · exact absurd hw hlink
  · exact locate_of_reach_entry ht hcwd hr hc hreach (fun _ => nofun)

end Located

end FileTree

end ServerPages
