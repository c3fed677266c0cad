import ServerPages.Proofs.Path.Located
import ServerPages.Page.Include

/-!
# What the guard keeps

The guard compares canonical locations, but the file system opens a path as it is spelled. A file
stays in the base directory exactly if it stands in the innermost directory of the location that
the guard has looked at (`FileTree.Kept`): then it lies in every base directory that the guard
accepts for the path, and otherwise that innermost directory is accepted and left
(`FileTree.IsTree.kept_iff`). A path whose double dots retrace and that does not end in a link to
nothing is kept (`FileTree.IsTree.kept_of_retraces`).
-/

namespace ServerPages

namespace FileTree

open ServerPages.Path (IsStay IsPlain)

variable {t : FileTree} {cwd loc c D : Location} {path base : Text}

/-! ### Base directories -/

/-- A path denotes a directory: the file system finds it there, and the guard looks nowhere but
there or below. -/
structure Denotes (t : FileTree) (cwd : Location) (base : Text) (D : Location) : Prop where
  found : t.reachDirectory cwd base = .ok D
  looked : ∀ p, t.locate cwd base = .ok p → D <+: p

theorem reach_of_reachDirectory (h : t.reachDirectory cwd base = .ok D) :
    t.reach cwd true base = .ok (.entry D .directory) := by
  unfold reachDirectory at h
  split at h
  · next l hr =>
    cases h
    exact hr
  all_goals cases h

theorem Denotes.ne_nil (h : t.Denotes cwd base D) : base ≠ [] := by
  rintro rfl
  have hreach := reach_of_reachDirectory h.found
  rw [reach, if_pos rfl] at hreach
  cases hreach

theorem Denotes.get? (h : t.Denotes cwd base D) : t.get? D = some .directory :=
  ((walks_of_reach (reach_of_reachDirectory h.found)).leads fun _ => nofun).2

/-- A walk through directories ends at the last of them. -/
theorem IsTree.walk_directories (ht : t.IsTree) {follow : Bool} {links : Nat} {rest : List Text}
    (h : t.get? (loc ++ rest) = some .directory) :
    t.walk follow links loc rest = .ok (.entry (loc ++ rest) .directory) := by
  induction rest generalizing loc with
  | nil =>
    rw [List.append_nil] at h ⊢
    exact walk_nil h
  | cons n rest ih =>
    rw [List.append_cons] at h ⊢
    obtain ⟨hd, hl⟩ := ht.lookup_directory h
    rw [walk_plain hd (ht.isName_of_get? h n (by simp)).plain, hl]
    exact ih h

/-- A search through directories ends at the last of them. -/
theorem IsTree.resolve_directories (ht : t.IsTree) {fresh : List Location}
    {known : List (Location × Location)} {rest : List Text}
    (h : t.get? (loc ++ rest) = some .directory) (hf : (loc ++ rest).Fits) :
    t.resolve fresh known loc (rest.map .name) = .ok (loc ++ rest) := by
  induction rest generalizing loc with
  | nil => rw [List.map_nil, resolve, List.append_nil]
  | cons n rest ih =>
    rw [List.append_cons] at h hf ⊢
    have hn := ht.isName_of_get? h n (by simp)
    obtain ⟨-, hl⟩ := ht.lookup_directory h
    have hi := inspect_eq_ok_iff.mpr ⟨hn.null, hf.of_prefix (List.prefix_append _ _), hl⟩
    rw [List.map_cons, resolve_enter hn.plain hi directory_ne_link]
    exact ih h hf

/-- The path of a directory denotes it, if paths may be that long. -/
theorem IsTree.denotes_path (ht : t.IsTree) (hcwd : t.get? cwd = some .directory)
    (hD : t.get? D = some .directory) (hf : D.Fits) :
    t.locate cwd D.path = .ok D ∧ t.Denotes cwd D.path D := by
  have hlocate : t.locate cwd D.path = .ok D := by
    have hreduce : Path.reduce true (Path.spelled cwd D.path) = D := by
      rw [Path.spelled, if_pos (Location.isAbsolute_path D)]
      by_cases hnil : D = []
      · subst hnil
        rfl
      · rw [Location.names_path hnil (ht.legible_of_get? hD), Path.reduce_nil_cons]
        exact Path.reduce_of_plain fun n hn => (ht.isName_of_get? hD n hn).plain
    have hresolve : t.resolveAll D = .ok D := ht.resolve_directories hD hf
    rw [locate_eq_canonicalFrom (ht.legible_of_get? hcwd), hreduce, canonicalFrom, hresolve]
    exact congrArg Except.ok (List.append_nil D)
  refine ⟨hlocate, ?_, fun p hp => by rw [hlocate] at hp; cases hp; exact List.prefix_rfl⟩
  have hwalk : t.walk true linkLimit [] (Path.names D.path) = .ok (.entry D .directory) := by
    by_cases hnil : D = []
    · subst hnil
      have hroot : t.get? [] = some .directory := rfl
      rw [Location.path_nil, Path.names_cons_slash, walk_stay hroot (.inl rfl)]
      exact (walk_stay hroot (.inl rfl)).trans (walk_nil hroot)
    · rw [Location.names_path hnil (ht.legible_of_get? hD), walk_stay rfl (.inl rfl)]
      exact ht.walk_directories hD
  rw [reachDirectory, reach, if_neg (Location.path_ne_nil D), if_neg (Nat.not_lt.mpr hf),
    if_pos (Location.isAbsolute_path D), hwalk]

/-! ### Innermost directories -/

/-- The innermost directory at or above a location. -/
def holder (t : FileTree) (loc : Location) : Location :=
  if _h : t.get? loc = some .directory then loc else t.holder loc.up
termination_by loc.length
decreasing_by
  have hne : loc ≠ [] := fun hnil => _h (hnil ▸ rfl)
  have := List.length_pos_iff.mpr hne
  simp only [Location.up, List.length_dropLast]
  omega

private theorem get?_holder : t.get? (t.holder loc) = some .directory := by
  fun_induction t.holder loc with
  | case1 loc h => exact h
  | case2 loc _ ih => exact ih

private theorem holder_prefix : t.holder loc <+: loc := by
  fun_induction t.holder loc with
  | case1 loc _ => exact List.prefix_rfl
  | case2 loc _ ih => exact ih.trans (List.dropLast_prefix loc)

/-- Every directory at or above a location is at or above the innermost one. -/
theorem prefix_holder (hD : t.get? D = some .directory) (h : D <+: loc) : D <+: t.holder loc := by
  fun_induction t.holder loc with
  | case1 loc _ => exact h
  | case2 loc hloc ih =>
    have hne : D ≠ loc := fun heq => hloc (heq ▸ hD)
    exact ih (Location.prefix_up h hne)

/-! ### Kept paths -/

/-- Whatever a path is opened for, the file stands in the innermost directory of the location that
the guard looks at. -/
def Kept (t : FileTree) (cwd : Location) (path : Text) : Prop :=
  ∀ purpose t' loc c, Guarded.openRaw t cwd path purpose = .ok (t', loc) →
    t.locate cwd path = .ok c → t.holder c <+: loc

private theorem ne_nil_of_openRaw {t' : FileTree} {purpose : Guarded.Purpose}
    (h : Guarded.openRaw t cwd path purpose = .ok (t', loc)) : path ≠ [] := by
  rintro rfl
  rcases openRaw_cases h with ⟨hr, -⟩ | ⟨b, hr, -⟩ <;>
    rw [reach, if_pos rfl] at hr <;> cases hr

namespace IsTree

variable (ht : t.IsTree) (hcwd : t.get? cwd = some .directory)
include ht hcwd

/-- A path whose double dots retrace and that does not end in a link to nothing is kept. -/
theorem kept_of_retraces (hr : t.Retraces (Path.spelled cwd path)) (hd : ¬ t.Dangles cwd path) :
    t.Kept cwd path := by
  intro purpose t' loc c ho hc
  rw [locate_of_openRaw ht hcwd hr hc hd ho]
  exact holder_prefix

/-- A file that is opened by a kept path lies in every base directory that the guard accepts. -/
theorem prefix_of_kept {t' : FileTree} {purpose : Guarded.Purpose} (hk : t.Kept cwd path)
    (hd : t.Denotes cwd base D) (hw : t.isWithin cwd path base = .ok true)
    (ho : Guarded.openRaw t cwd path purpose = .ok (t', loc)) : D <+: loc := by
  obtain ⟨p, c, hp, hc, hpc⟩ := (ht.isWithin_iff hcwd (ne_nil_of_openRaw ho) hd.ne_nil).mp hw
  have hDc := (hd.looked p hp).trans hpc
  exact (prefix_holder hd.get? hDc).trans (hk purpose t' loc c ho hc)

/-- **Kept paths are exactly the safe ones.** A path is kept if and only if, whatever base
directory the guard accepts for it and whatever it is opened for, the file lies in that
directory. -/
theorem kept_iff : t.Kept cwd path ↔
    ∀ base D, t.Denotes cwd base D → t.isWithin cwd path base = .ok true →
      ∀ purpose t' loc, Guarded.openRaw t cwd path purpose = .ok (t', loc) → D <+: loc := by
  constructor
  · exact fun hk base D hd hw purpose t' loc ho => ht.prefix_of_kept hcwd hk hd hw ho
  · intro h purpose t' loc c ho hc
    -- the innermost directory is a base directory that the guard accepts
    have hf := ht.fits_of_directory hcwd hc get?_holder holder_prefix
    obtain ⟨hl, hd⟩ := ht.denotes_path hcwd get?_holder hf
    refine h _ _ hd ?_ purpose t' loc ho
    exact (ht.isWithin_iff hcwd (ne_nil_of_openRaw ho) hd.ne_nil).mpr
      ⟨_, c, hl, hc, holder_prefix⟩

end IsTree

end FileTree

namespace Guarded

open FileTree

variable {t : FileTree} {cwd D : Location} {name mode dir : Text} {base : Option Text}
  {options : Options}

/-! ### Opening under guard -/

/-- A mode that says what a file is opened for. -/
def Mode.Spelled (mode : Text) : Prop := ∃ m, Mode.parse mode = .ok m ∧ m.purpose ≠ none

/-- The file that is handed out is the one that the file system has opened. -/
theorem loc_of_finish {t' : FileTree} {loc : Location} {m : Mode} {f : Opened}
    (h : openFile.finish options t' loc m = .ok f) : f.loc = loc := by
  simp only [openFile.finish] at h
  split at h
  · cases h
  · cases h
    rfl

/-- An opening under guard fails and leaves the tree as it is, or the guard accepts the path and
the file system has opened it. -/
theorem openFile_cases (hdir : base.getD cwd.path = dir) :
    (∃ e, openFile t cwd name mode base options = (t, .error e)) ∨
    t.guard cwd (Path.join dir name) name dir = .ok () ∧
      ∃ purpose t' loc, openRaw t cwd (Path.join dir name) purpose = .ok (t', loc) ∧
        (openFile t cwd name mode base options).1 = t' ∧
        ∀ f, (openFile t cwd name mode base options).2 = .ok f → f.loc = loc := by
  subst hdir
  simp only [openFile]
  split
  · exact .inl ⟨_, rfl⟩
  · next hg =>
    split
    · exact .inl ⟨_, rfl⟩
    · next m _ =>
      split
      · exact .inl ⟨_, rfl⟩
      · split
        · exact .inl ⟨_, rfl⟩
        · next purpose _ =>
          split
          · exact .inl ⟨_, rfl⟩
          · next t' loc ho =>
            refine .inr ⟨hg, purpose, t', loc, ho, ?_⟩
            -- what is left to check are the further arguments, which leave the file opened
            split
            · split
              · exact ⟨rfl, fun f hf => loc_of_finish hf⟩
              · exact ⟨rfl, fun f hf => nomatch hf⟩
            · exact ⟨rfl, fun f hf => loc_of_finish hf⟩

/-- What the guard accepts and the file system opens is opened, without further arguments. -/
theorem openFile_opened {m : Mode} {purpose : Purpose} {t' : FileTree} {loc : Location}
    (hdir : base.getD cwd.path = dir) (hg : t.guard cwd (Path.join dir name) name dir = .ok ())
    (hm : Mode.parse mode = .ok m) (hp : m.purpose = some purpose)
    (ho : openRaw t cwd (Path.join dir name) purpose = .ok (t', loc)) :
    ∃ f, openFile t cwd name mode base {} = (t', .ok f) ∧ f.loc = loc := by
  subst hdir
  have hset : (Charset.ofName? "utf-8".toList).isSome := by decide
  obtain ⟨set, hset⟩ := Option.isSome_iff_exists.mp hset
  simp only [openFile, hg, hm, hp, ho, Option.isSome_none, Bool.false_eq_true, if_false, ite_self,
    openFile.finish, Option.getD_none, hset]
  exact ⟨_, rfl, rfl⟩

/-- An opening for a purpose, without further arguments, fails only in the guard or in the file
system, and leaves the tree as it is. -/
theorem openFile_error {t' : FileTree} {e : GuardError} (hdir : base.getD cwd.path = dir)
    (hm : Mode.Spelled mode) (h : openFile t cwd name mode base {} = (t', .error e)) :
    t' = t ∧ (t.guard cwd (Path.join dir name) name dir = .error e ∨
      ∃ purpose pe, openRaw t cwd (Path.join dir name) purpose = .error pe ∧ e = .path pe) := by
  subst hdir
  obtain ⟨m, hparse, hpurpose⟩ := hm
  obtain ⟨purpose, hp⟩ := Option.ne_none_iff_exists'.mp hpurpose
  cases hg : t.guard cwd (Path.join (base.getD cwd.path) name) name (base.getD cwd.path) with
  | error e' =>
    simp only [openFile, hg] at h
    cases h
    exact ⟨rfl, .inl rfl⟩
  | ok =>
    cases ho : openRaw t cwd (Path.join (base.getD cwd.path) name) purpose with
    | error pe =>
      simp only [openFile, hg, hparse, hp, ho, Option.isSome_none, Bool.false_eq_true, if_false,
        ite_self] at h
      cases h
      exact ⟨rfl, .inr ⟨purpose, pe, ho, rfl⟩⟩
    | ok out =>
      obtain ⟨f, hf, -⟩ := openFile_opened rfl hg hparse hp ho
      rw [hf] at h
      cases h

end Guarded

end ServerPages
