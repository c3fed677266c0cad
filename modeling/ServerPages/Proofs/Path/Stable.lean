import ServerPages.Proofs.Path.Guard

/-!
# Canonical paths

A canonical path is stable: if it leads anywhere, it leads to the location it spells
(`FileTree.IsTree.eq_of_leads`). So a file whose canonical path names it stands there, and the
directory that holds it has the parent of that path (`Location.parent_path`).
-/

namespace ServerPages

/-- One separator is all there is to drop where none stands before it. -/
theorem dropTrailing_concat {c : Char} {s : Text} (h : s.getLast? ≠ some c) :
    Text.dropTrailing c (s ++ [c]) = s := by
  rw [Text.dropTrailing, List.reverse_concat, List.dropWhile_cons_of_pos (by simp)]
  cases hs : s.reverse with
  | nil => exact (List.reverse_eq_nil_iff.mp hs).symm
  | cons d r =>
    have hd : d ≠ c := by
      rintro rfl
      rw [List.getLast?_eq_head?_reverse, hs] at h
      exact h rfl
    rw [List.dropWhile_cons_of_neg (by simpa using hd), ← hs, List.reverse_reverse]

namespace Location

variable {loc : Location}

/-- The parent of a path of a location is the path of the location above. -/
theorem parent_path (hne : loc ≠ []) (h : Legible loc) : Path.parent loc.path = loc.up.path := by
  obtain ⟨init, n, rfl⟩ := (List.eq_nil_or_concat' loc).resolve_left hne
  have hn : ∀ c ∈ n.reverse, decide (c ≠ '/') = true := fun c hc =>
    decide_eq_true fun hslash => (h n (by simp)).2 (hslash ▸ List.mem_reverse.mp hc)
  have hhead : ((path (init ++ [n])).reverse.dropWhile (· ≠ '/')).reverse =
      init.flatMap ('/' :: ·) ++ ['/'] := by
    have hpath : path (init ++ [n]) = init.flatMap ('/' :: ·) ++ ['/'] ++ n := by
      rw [path_of_ne_nil hne]
      simp
    rw [hpath, List.reverse_append, List.dropWhile_append_of_pos hn, List.reverse_append,
      List.reverse_singleton, List.singleton_append, List.dropWhile_cons_of_neg (by simp),
      List.reverse_cons, List.reverse_reverse]
  rw [Path.parent, hhead, up, List.dropLast_concat]
  by_cases hinit : init = []
  · subst hinit
    rfl
  · have hlegible : Legible init := h.of_prefix (List.prefix_append _ _)
    obtain ⟨m, rest, rfl⟩ := List.exists_cons_of_ne_nil hinit
    obtain ⟨d, m', rfl⟩ := List.exists_cons_of_ne_nil (hlegible m (by simp)).1
    have hd : d ≠ '/' := fun hd => (hlegible (d :: m') (by simp)).2 (hd ▸ List.mem_cons_self)
    rw [if_neg (by simp [hd]), ← path_of_ne_nil hinit]
    exact dropTrailing_concat (getLast?_path_ne hinit hlegible)

end Location

namespace FileTree

variable {t : FileTree} {cwd loc dest c : Location} {path : Text}

namespace IsTree

variable (ht : t.IsTree)
include ht

/-- The names of an entry lead to it, if it is no link. -/
theorem leads_entry {e : Entry} (h : t.get? loc = some e) (he : ∀ s, e ≠ .link s) :
    t.Leads [] loc loc := by
  obtain rfl | ⟨init, n, rfl⟩ := List.eq_nil_or_concat' loc
  · exact .here []
  · have hup := ht.get?_up h
    rw [Location.up, List.dropLast_concat] at hup
    have hn := ht.isName_of_get? h n (by simp)
    have hl := lookup_eq_ok_iff.mpr ⟨hup, hn.short, h⟩
    exact leads_append_iff.mpr ⟨init, ht.leads_self hup, .enter hn.plain hl he (.here _)⟩

/-- **Canonical locations are stable.** A canonical location that leads anywhere leads to
itself. -/
theorem eq_of_leads (hcwd : t.get? cwd = some .directory) (h : t.locate cwd path = .ok c)
    (hleads : t.Leads [] c dest) : dest = c := by
  obtain ⟨init, rest, e, rfl, he, hlink, -, -, hfirst⟩ := ht.locate_split hcwd h
  obtain ⟨mid, hinit, hrest⟩ := leads_append_iff.mp hleads
  obtain rfl := hinit.unique (ht.leads_entry he hlink)
  cases rest with
  | nil => rw [leads_nil_iff.mp hrest, List.append_nil]
  | cons m rest =>
    obtain ⟨mid', hm, -⟩ := leads_append_iff.mp (show t.Leads mid ([m] ++ rest) dest from hrest)
    exact absurd hm (hfirst m rest rfl mid')

end IsTree

/-- What stands where the path of a location leads, the names of the location lead to. -/
theorem leads_of_reach_path {follow : Bool} {e : Entry} (hc : c.Legible)
    (h : t.reach cwd follow c.path = .ok (.entry dest e)) (he : ∀ s, e ≠ .link s) :
    t.Leads [] c dest ∧ t.get? dest = some e := by
  have hwalks := walks_of_reach h
  rw [if_pos (Location.isAbsolute_path c)] at hwalks
  refine (hwalks.leads he).imp_left fun hleads => ?_
  by_cases hne : c = []
  · subst hne
    rw [Location.path_nil, Path.names_cons_slash] at hleads
    exact ((leads_stay_iff (.inl rfl)).mp ((leads_stay_iff (.inl rfl)).mp hleads).2).2
  · rw [Location.names_path hne hc] at hleads
    exact ((leads_stay_iff (.inl rfl)).mp hleads).2

/-- A path names what its canonical form names. -/
def Straight (t : FileTree) (cwd : Location) (path : Text) : Prop :=
  ∀ c, t.canonical cwd path = .ok c → t.reach cwd true c = t.reach cwd true path

theorem canonical_eq_ok {real : Text} (hne : path ≠ []) (h : t.canonical cwd path = .ok real) :
    ∃ c, t.locate cwd path = .ok c ∧ real = c.path := by
  rw [canonical, if_neg hne] at h
  cases hl : t.locate cwd path with
  | error err =>
    rw [hl] at h
    cases h
  | ok c =>
    rw [hl] at h
    cases h
    exact ⟨c, rfl, rfl⟩

theorem reach_of_read {bytes : Bytes} (h : t.read cwd path = .ok bytes) :
    ∃ loc, t.reach cwd true path = .ok (.entry loc (.file bytes)) := by
  unfold read at h
  split at h
  · cases h
  · split at h
    · next loc content hreach =>
      cases h
      exact ⟨loc, hreach⟩
    all_goals cases h

namespace IsTree

/-- What the canonical path of a path names, stands at its canonical location. -/
theorem get?_of_reach_canonical (ht : t.IsTree) (hcwd : t.get? cwd = some .directory)
    (h : t.locate cwd path = .ok c) {follow : Bool} {e : Entry}
    (hreach : t.reach cwd follow c.path = .ok (.entry dest e)) (he : ∀ s, e ≠ .link s) :
    t.get? c = some e := by
  obtain ⟨hleads, hget⟩ := leads_of_reach_path (ht.legible_of_locate hcwd h) hreach he
  exact ht.eq_of_leads hcwd h hleads ▸ hget

end IsTree

end FileTree

end ServerPages
