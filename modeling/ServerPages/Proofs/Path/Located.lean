import ServerPages.Proofs.Path.Retrace
import ServerPages.Proofs.Text.Utf8

/-!
# Where the guard looks

The canonical location of a path is that of something that exists, and behind it names of which
the first leads nowhere from there (`FileTree.IsTree.locate_split`). So the guard compares locations
(`FileTree.IsTree.isWithin_iff`), and every directory above the location it finds has a path that
can be used (`FileTree.IsTree.denotes_path`).
-/

namespace ServerPages

namespace Path

/-- Plain names are reduced already. -/
theorem reduce_of_plain {names : List Text} (h : ∀ n ∈ names, IsPlain n) :
    reduce true names = names := by
  induction names using List.reverseRecOn with
  | nil => rfl
  | append_singleton names n ih =>
    rw [reduce_append_plain (h n (by simp)), ih fun m hm => h m (List.mem_append_left _ hm)]

end Path

/-- A location whose path is no longer than paths may be. -/
def Location.Fits (loc : Location) : Prop :=
  (Utf8.encode loc.path).length ≤ FileTree.pathLimit

theorem Location.fits_root : Fits [] := by
  rw [Fits, path_nil]
  decide

theorem Location.Fits.of_prefix {p c : Location} (hc : Fits c) (h : p <+: c) : Fits p := by
  obtain ⟨q, rfl⟩ := h
  by_cases hp : p = []
  · exact hp ▸ fits_root
  · rw [Fits, path_append hp, Utf8.encode_append, List.length_append] at hc
    exact Nat.le_trans (Nat.le_add_right _ _) hc

namespace FileTree

open ServerPages.Path (IsPlain)

variable {t : FileTree} {cwd loc c D : Location} {path base : Text}

/-- A tidy path has the canonical location of the path. -/
theorem locate_tidy (hcwd : cwd.Legible) : t.locate cwd (Path.tidy path) = t.locate cwd path := by
  rw [locate_eq_canonicalFrom hcwd, locate_eq_canonicalFrom hcwd, Path.spelled, Path.spelled,
    Path.isAbsolute_tidy]
  split
  · rw [← Path.reduce_filter, Path.filter_names_tidy, Path.reduce_filter]
  · rw [← Path.reduce_filter, List.filter_append, Path.filter_names_tidy, ← List.filter_append,
      Path.reduce_filter]

/-- The guard does not tell a path from its tidy form. -/
theorem isWithin_tidy (hcwd : cwd.Legible) (hpath : path ≠ []) :
    t.isWithin cwd (Path.tidy path) base = t.isWithin cwd path base := by
  rw [isWithin, canonical, canonical, if_neg (Path.tidy_ne_nil path), locate_tidy hcwd, isWithin,
    canonical, canonical, if_neg hpath]

/-- The guard fails only where one of its paths has no canonical location. -/
theorem isWithin_error {e : PathError} (h : t.isWithin cwd path base = .error e) :
    t.locate cwd base = .error e ∨ t.locate cwd path = .error e := by
  have of_canonical : ∀ {p : Text}, t.canonical cwd p = .error e → t.locate cwd p = .error e := by
    intro p hp
    unfold canonical at hp
    split at hp
    · cases hp
    · cases hl : t.locate cwd p with
      | error e' =>
        rw [hl] at hp
        cases hp
        rfl
      | ok l =>
        rw [hl] at hp
        cases hp
  rw [isWithin] at h
  cases hp : t.canonical cwd base with
  | error e' =>
    rw [hp] at h
    cases h
    exact .inl (of_canonical hp)
  | ok p =>
    cases hc : t.canonical cwd path with
    | error e' =>
      rw [hp, hc] at h
      cases h
      exact .inr (of_canonical hc)
    | ok c =>
      rw [hp, hc] at h
      cases h

/-! ### What the search ends at -/

namespace IsTree

variable (ht : t.IsTree)
include ht

/-- Something that is no link stands where names are resolved to, and its path can be used. -/
theorem stands_of_resolveAll {names : List Text} (h : t.resolveAll names = .ok loc) :
    (∃ e, t.get? loc = some e ∧ ∀ s, e ≠ .link s) ∧ loc.Fits := by
  refine resolve_induction (P := fun l => (∃ e, t.get? l = some e ∧ ∀ s, e ≠ .link s) ∧ l.Fits)
    (Q := fun _ => True)
    (S := fun r => ∀ l, r = .ok l → (∃ e, t.get? l = some e ∧ ∀ s, e ≠ .link s) ∧ l.Fits)
    (fun _ _ _ _ _ _ => trivial) ⟨⟨_, rfl, directory_ne_link⟩, Location.fits_root⟩ ?_ ?_ ?_
    (fun _ _ _ _ _ _ => nofun) (fun _ _ => nofun) recalls_nil (fun _ _ => trivial)
    ⟨⟨_, rfl, directory_ne_link⟩, Location.fits_root⟩ loc h
  · rintro l ⟨⟨e, he, -⟩, hf⟩
    exact ⟨⟨_, ht.get?_up he, directory_ne_link⟩, hf.of_prefix (List.dropLast_prefix l)⟩
  · intro l n e _ _ _ hi he
    obtain ⟨-, hf, hl⟩ := inspect_eq_ok_iff.mp hi
    exact ⟨⟨e, (lookup_eq_ok_iff.mp hl).2.2, he⟩, hf⟩
  · rintro l hl _ ⟨⟩
    exact hl

/-- Names without null characters are not refused for one: no link of the tree holds one. -/
theorem resolveAll_ne_null {names : List Text} (h : ∀ n ∈ names, '\x00' ∉ n) :
    t.resolveAll names ≠ .error .nullCharacter := by
  refine resolve_induction (P := fun _ => True) (Q := fun n => '\x00' ∉ n)
    (S := fun r => r ≠ .error .nullCharacter) ?_ trivial (fun _ _ => trivial)
    (fun _ _ _ _ _ _ _ _ => trivial) (fun _ _ => nofun) ?_ (fun _ => nofun)
    (fun _ _ _ => trivial) (fun n hn => h n (by simpa using hn)) trivial
  · intro l n s hl m hm hc
    have hs := (lookup_eq_ok_iff.mp hl).2.2
    exact ht.target _ (mem_entries_of_get? (by simp) hs) s rfl (Path.mem_of_mem_names hm hc)
  · rintro l n e hn hi ⟨⟩
    simp only [inspect, if_neg hn] at hi
    split at hi
    · cases hi
    · split at hi <;> cases hi

variable (hcwd : t.get? cwd = some .directory)
include hcwd

/-- A canonical location is that of something that exists and is no link, whose path can be used,
and names behind it; the first of these leads nowhere. -/
theorem locate_split (h : t.locate cwd path = .ok c) :
    ∃ init rest e, c = init ++ rest ∧ t.get? init = some e ∧ (∀ s, e ≠ .link s) ∧ init.Fits ∧
      Location.Legible rest ∧ ∀ m rest', rest = m :: rest' → ∀ dest, ¬ t.Leads init [m] dest := by
  have hlegible := ht.legible_of_get? hcwd
  rw [locate_eq_canonicalFrom hlegible] at h
  obtain ⟨names, rest, loc, hnames, hres, rfl, hfirst⟩ := canonicalFrom_split h
  obtain ⟨⟨e, he, hlink⟩, hf⟩ := ht.stands_of_resolveAll hres
  rw [List.append_nil]
  refine ⟨loc, rest, e, rfl, he, hlink, hf, fun n hn => ?_, ?_⟩
  · have hmem : n ∈ Path.reduce true (Path.spelled cwd path) := by
      rw [hnames]
      exact List.mem_append_right _ hn
    refine ⟨(Path.isPlain_of_mem_reduce hmem).ne_nil, ?_⟩
    have hspelled := Path.mem_of_mem_reduce hmem
    unfold Path.spelled at hspelled
    split at hspelled
    · exact Path.not_mem_of_mem_names hspelled
    · rcases List.mem_append.mp hspelled with hc | hc
      · exact (hlegible n hc).2
      · exact Path.not_mem_of_mem_names hc
  · rintro m rest' rfl dest hleads
    obtain ⟨err, herr, hmiss⟩ := hfirst m rest' rfl
    -- the search would have gone where the name leads, or failed for something else
    obtain ⟨fresh, known, hk, happ⟩ := resolveAll_append_of_ok [m] hres
    rw [happ] at herr
    rcases resolve_append_of_leads [] hk (marked_names loc [m])
      ((filterMap_name?_names [m]).symm ▸ hleads) with ⟨_, _, -, hgo⟩ | ⟨err', hgo, hne⟩
    · rw [List.append_nil, herr, resolve] at hgo
      cases hgo
    · rw [List.append_nil, herr] at hgo
      cases hgo
      exact hne hmiss

theorem legible_of_locate (h : t.locate cwd path = .ok c) : c.Legible := by
  obtain ⟨init, rest, e, rfl, he, -, -, hrest, -⟩ := ht.locate_split hcwd h
  exact (ht.legible_of_get? he).append hrest

/-- A directory at or above a canonical location has a path that can be used. -/
theorem fits_of_directory (h : t.locate cwd path = .ok c) (hD : t.get? D = some .directory)
    (hp : D <+: c) : D.Fits := by
  obtain ⟨init, rest, e, rfl, he, -, hf, -, hfirst⟩ := ht.locate_split hcwd h
  rcases List.prefix_or_prefix_of_prefix hp (List.prefix_append init rest) with hp' | ⟨q, rfl⟩
  · exact hf.of_prefix hp'
  · cases q with
    | nil => exact (List.append_nil init).symm ▸ hf
    | cons m q =>
      obtain ⟨rest', rfl⟩ := (List.prefix_append_right_inj init).mp hp
      -- a directory there would be one that the name leads to
      rw [List.append_cons] at hD
      obtain ⟨-, hl⟩ := ht.lookup_directory hD
      have hn := ht.isName_of_get? hD m (by simp)
      exact absurd (.enter hn.plain hl directory_ne_link (.here _)) (hfirst m _ rfl _)

/-! ### The comparison -/

/-- The guard compares locations. -/
theorem isWithin_iff (hpath : path ≠ []) (hbase : base ≠ []) :
    t.isWithin cwd path base = .ok true ↔
      ∃ p c, t.locate cwd base = .ok p ∧ t.locate cwd path = .ok c ∧ p <+: c := by
  rw [isWithin, canonical, canonical, if_neg hpath, if_neg hbase]
  cases hp : t.locate cwd base with
  | error e => simp [Except.map, bind, Except.bind]
  | ok p =>
    cases hc : t.locate cwd path with
    | error e => simp [Except.map, bind, Except.bind]
    | ok c =>
      have hwithin := Location.within_path_iff (ht.legible_of_locate hcwd hp)
        (ht.legible_of_locate hcwd hc)
      simp only [Except.map, bind, Except.bind, pure, Except.pure, Except.ok.injEq,
        Bool.or_eq_true, decide_eq_true_eq, Text.beginsWith_iff, or_assoc, hwithin]
      exact ⟨fun h => ⟨p, c, rfl, rfl, h⟩, by rintro ⟨_, _, rfl, rfl, h⟩; exact h⟩

/-- A path without null characters is not refused for one. -/
theorem locate_ne_null (h : '\x00' ∉ path) : t.locate cwd path ≠ .error .nullCharacter := by
  rw [locate_eq_canonicalFrom (ht.legible_of_get? hcwd)]
  intro herr
  obtain ⟨init, hinit, hres⟩ := canonicalFrom_error herr
  refine ht.resolveAll_ne_null (fun n hn => ?_) hres
  have hspelled := Path.mem_of_mem_reduce (hinit.subset hn)
  unfold Path.spelled at hspelled
  split at hspelled
  · exact fun hc => h (Path.mem_of_mem_names hspelled hc)
  · rcases List.mem_append.mp hspelled with hm | hm
    · exact (ht.isName_of_get? hcwd n hm).null
    · exact fun hc => h (Path.mem_of_mem_names hm hc)

end IsTree

end FileTree

end ServerPages
