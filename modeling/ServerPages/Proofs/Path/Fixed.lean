import Mathlib
import ServerPages.Proofs.Path.Search
import ServerPages.Proofs.Path.Stable

/-!
# Canonical paths are fixed

A canonical path is absolute, none of its components is empty or a dot or a double dot, and it is
its own canonical form (`FileTree.IsTree.canonical_canonical`): what exists of it is no link any
more, and the first name that was missing is missing still, since the search finds at it what it
found before.

One path lies within another exactly if the components of its canonical form begin with those of the
other's (`FileTree.IsTree.isWithin_components`).
-/

namespace ServerPages

/-- The components of a path: its names but for the empty ones. -/
def Path.components (path : Text) : List Text := (Path.names path).filter (· ≠ [])

namespace Location

variable {loc p : Location}

private theorem components_path (h : Legible loc) : Path.components loc.path = loc := by
  by_cases hne : loc = []
  · subst hne
    rfl
  · rw [Path.components, names_path hne h, List.filter_cons_of_neg (by simp)]
    exact List.filter_eq_self.mpr fun n hn => decide_eq_true (h n hn).1

/-- What follows the path of a location in a longer one begins with a separator, if that is within
the location. -/
theorem head?_behind_path {s : Text} (hne : p ≠ []) (h : p <+: loc)
    (hpath : loc.path = p.path ++ s) : ∀ c ∈ s.head?, c = '/' := by
  obtain ⟨q, rfl⟩ := h
  rw [path_append hne] at hpath
  obtain rfl := List.append_cancel_left hpath
  intro c hc
  cases q with
  | nil => cases hc
  | cons n q => exact (Option.some.inj hc).symm

end Location

namespace FileTree

open ServerPages.Path (IsPlain)

variable {t : FileTree} {cwd loc c : Location} {path : Text}

/-- The location that a path of plain names stands for is searched for from these names. -/
theorem locate_path (hcwd : cwd.Legible) (hc : c.Legible) (hplain : ∀ n ∈ c, IsPlain n) :
    t.locate cwd c.path = t.canonicalFrom c [] := by
  have hreduce : Path.reduce true (Path.names c.path) = c := by
    by_cases hnil : c = []
    · subst hnil
      rfl
    · rw [Location.names_path hnil hc, Path.reduce_nil_cons, Path.reduce_of_plain hplain]
  rw [locate_eq_canonicalFrom hcwd, Path.spelled, if_pos (Location.isAbsolute_path c), hreduce]

/-- Names behind a beginning that is resolved are set aside as long as something is missing. -/
theorem canonicalFrom_append {names rest missing : List Text} (h : t.resolveAll names = .ok loc)
    (hrest : ∀ q, q <+: rest → q ≠ [] → ∃ e, t.resolveAll (names ++ q) = .error e ∧ e.IsMissing) :
    t.canonicalFrom (names ++ rest) missing = .ok (loc ++ (rest ++ missing)) := by
  induction rest using List.reverseRecOn generalizing missing with
  | nil => rw [canonicalFrom, List.append_nil, h, List.nil_append]
  | append_singleton rest n ih =>
    obtain ⟨e, he, path, rfl⟩ := hrest (rest ++ [n]) List.prefix_rfl (by simp)
    rw [canonicalFrom, he]
    simp only [← List.append_assoc, List.dropLast_concat, List.getLast_concat,
      dif_neg (List.concat_ne_nil n (names ++ rest))]
    rw [ih fun q hq => hrest q (hq.trans (List.prefix_append rest [n]))]
    simp

namespace IsTree

variable (ht : t.IsTree)
include ht

/-- The names of what stands in a tree and is no link come to it. -/
theorem exists_comes_self {e : Entry} (h : t.get? loc = some e) (he : ∀ s, e ≠ .link s)
    (hf : loc.Fits) : ∃ k, t.Comes k [] loc (.ok loc) := by
  induction loc using List.reverseRecOn generalizing e with
  | nil => exact ⟨0, .done []⟩
  | append_singleton loc n ih =>
    have hup := ht.get?_up h
    rw [Location.up, List.dropLast_concat] at hup
    obtain ⟨k, hk⟩ := ih hup directory_ne_link (hf.of_prefix (List.prefix_append _ _))
    have hn := ht.isName_of_get? h n (by simp)
    have hi := inspect_eq_ok_iff.mpr ⟨hn.null, hf, lookup_eq_ok_iff.mpr ⟨hup, hn.short, h⟩⟩
    exact ⟨_, hk.append (.enter hn.plain hi he (.done _))⟩

/-- A canonical location is the canonical location of its own names. -/
theorem canonicalFrom_fixed {names : List Text} (h : t.canonicalFrom names [] = .ok c) :
    t.canonicalFrom c [] = .ok c := by
  obtain ⟨init, rest, loc, rfl, hinit, rfl, hfirst⟩ := canonicalFrom_split h
  obtain ⟨⟨e, he, hlink⟩, hf⟩ := ht.stands_of_resolveAll hinit
  obtain ⟨k, hself⟩ := ht.exists_comes_self he hlink hf
  rw [List.append_nil]
  refine (canonicalFrom_append hself.resolveAll fun q hq hne => ?_).trans (by rw [List.append_nil])
  obtain ⟨m, q, rfl⟩ := List.exists_cons_of_ne_nil hne
  obtain ⟨rest', rfl⟩ := hq
  obtain ⟨e, he, hmiss⟩ := hfirst m (q ++ rest') rfl
  refine ⟨e, ?_, hmiss⟩
  -- the first name comes to its refusal from where the others lead, and so it does behind `loc`
  obtain ⟨i, hi⟩ := exists_comes hinit fun _ => nofun
  obtain ⟨j, hj⟩ := exists_comes he fun path hpath => by
    obtain ⟨path', rfl⟩ := hmiss
    cases hpath
  obtain ⟨i', x, -, hpre, hx⟩ := hj.of_append
  obtain ⟨-, rfl⟩ := hi.unique hpre
  obtain ⟨e', hok, -⟩ | ⟨mid, l, hok, hm⟩ := hx
  · cases hok
  · cases hok
    exact (hself.append (hm.append_of_error q)).resolveAll

section

variable (hcwd : t.get? cwd = some .directory)
include hcwd

private theorem isPlain_of_locate (h : t.locate cwd path = .ok c) : ∀ n ∈ c, IsPlain n := by
  rw [locate_eq_canonicalFrom (ht.legible_of_get? hcwd)] at h
  obtain ⟨init, rest, loc, hnames, hinit, rfl, -⟩ := canonicalFrom_split h
  obtain ⟨⟨e, he, -⟩, -⟩ := ht.stands_of_resolveAll hinit
  intro n hn
  rw [List.append_nil] at hn
  rcases List.mem_append.mp hn with hn | hn
  · exact (ht.isName_of_get? he n hn).plain
  · exact Path.isPlain_of_mem_reduce (hnames ▸ List.mem_append_right init hn)

private theorem locate_fixed (h : t.locate cwd path = .ok c) : t.locate cwd c.path = .ok c := by
  have hlegible := ht.legible_of_get? hcwd
  rw [locate_path hlegible (ht.legible_of_locate hcwd h) (ht.isPlain_of_locate hcwd h)]
  rw [locate_eq_canonicalFrom hlegible] at h
  exact ht.canonicalFrom_fixed h

/-- **Canonical paths are fixed.** The canonical form of a path is absolute; none of its components
is empty, a dot or a double dot, and it ends in a separator only if it is the root; and it is its
own canonical form. -/
theorem canonical_canonical {real : Text} (hpath : path ≠ [])
    (h : t.canonical cwd path = .ok real) :
    Path.isAbsolute real = true ∧
      (real ≠ ['/'] → ∀ n ∈ (Path.names real).tail, n ≠ [] ∧ n ≠ ['.'] ∧ n ≠ ['.', '.']) ∧
      (real.getLast? = some '/' → real = ['/']) ∧
      t.canonical cwd real = .ok real := by
  obtain ⟨c, hc, rfl⟩ := canonical_eq_ok hpath h
  have hlegible := ht.legible_of_locate hcwd hc
  refine ⟨Location.isAbsolute_path c, fun hroot n hn => ?_, fun hlast => ?_, ?_⟩
  · have hne : c ≠ [] := fun hnil => hroot (hnil ▸ Location.path_nil)
    rw [Location.names_path hne hlegible] at hn
    obtain ⟨hstay, hup⟩ := ht.isPlain_of_locate hcwd hc n hn
    exact ⟨fun h => hstay (.inl h), fun h => hstay (.inr h), hup⟩
  · by_contra hroot
    have hne : c ≠ [] := fun hnil => hroot (hnil ▸ Location.path_nil)
    exact Location.getLast?_path_ne hne hlegible hlast
  · rw [canonical, if_neg (Location.path_ne_nil c), ht.locate_fixed hcwd hc]
    rfl

end

end IsTree

/-- The directories `a`, `a/b` and `a/bc`, a link to `a/b` by way of another link and a double dot,
and in `a/b` a link to nothing. -/
def crossings : FileTree := ⟨[
  (["a".toList], .directory),
  (["a".toList, "b".toList], .directory),
  (["a".toList, "bc".toList], .directory),
  (["l".toList], .link "a/k".toList),
  (["a".toList, "k".toList], .link "../a/./b/".toList),
  (["a".toList, "b".toList, "d".toList], .link "/new/..".toList)]⟩

private theorem isTree_crossings : crossings.IsTree := by decide

/-- Two links are followed, and the one that points to nothing stays as it is. -/
theorem canonical_canonical_crossings :
    crossings.IsTree ∧ crossings.get? [] = some .directory ∧
      crossings.canonical [] "//l//d/../d/x/".toList = .ok "/a/b/d/x".toList ∧
      crossings.canonical [] "/a/b/d/x".toList = .ok "/a/b/d/x".toList := by
  have hreal : crossings.canonical [] "//l//d/../d/x/".toList = .ok "/a/b/d/x".toList := by cbv
  obtain ⟨-, -, -, hfixed⟩ := isTree_crossings.canonical_canonical rfl (by decide) hreal
  exact ⟨isTree_crossings, rfl, hreal, hfixed⟩

/-! ### Containment -/

namespace IsTree

variable (ht : t.IsTree) (hcwd : t.get? cwd = some .directory)
include ht hcwd

/-- The guard compares components. -/
theorem isWithin_eq {child parent : Text} {p c : Text} (hchild : child ≠ []) (hparent : parent ≠ [])
    (hc : t.canonical cwd child = .ok c) (hp : t.canonical cwd parent = .ok p) :
    t.isWithin cwd child parent = .ok (decide (Path.components p <+: Path.components c)) := by
  obtain ⟨lp, hlp, rfl⟩ := canonical_eq_ok hparent hp
  obtain ⟨lc, hlc, rfl⟩ := canonical_eq_ok hchild hc
  have hp' := ht.legible_of_locate hcwd hlp
  have hc' := ht.legible_of_locate hcwd hlc
  rw [Location.components_path hp', Location.components_path hc', isWithin, hc, hp]
  refine congrArg Except.ok (Bool.eq_iff_iff.mpr ?_)
  simp only [Bool.or_eq_true, decide_eq_true_eq, Text.beginsWith_iff, or_assoc,
    Location.within_path_iff hp' hc']

/-- **Containment is a prefix of components.** One path lies within another exactly if the
components of its canonical form begin with those of the other's. So every path lies within itself
and within the root, what lies within a path lies within all that this path lies within, and a path
whose canonical form only goes on in the last name of the other's does not lie within it. -/
theorem isWithin_components :
    (∀ child parent c p, child ≠ [] → parent ≠ [] → t.canonical cwd child = .ok c →
      t.canonical cwd parent = .ok p →
      t.isWithin cwd child parent = .ok (decide (Path.components p <+: Path.components c))) ∧
    (∀ path c, path ≠ [] → t.canonical cwd path = .ok c → t.isWithin cwd path path = .ok true) ∧
    (∀ path mid outer, path ≠ [] → mid ≠ [] → outer ≠ [] → t.isWithin cwd path mid = .ok true →
      t.isWithin cwd mid outer = .ok true → t.isWithin cwd path outer = .ok true) ∧
    (∀ path c, path ≠ [] → t.canonical cwd path = .ok c → t.isWithin cwd path ['/'] = .ok true) ∧
    (∀ child parent p s, child ≠ [] → parent ≠ [] → t.canonical cwd parent = .ok p → p ≠ ['/'] →
      t.canonical cwd child = .ok (p ++ s) → s ≠ [] → s.head? ≠ some '/' →
      t.isWithin cwd child parent = .ok false) := by
  refine ⟨fun child parent c p => ht.isWithin_eq hcwd, fun path c hpath hc => ?_, ?_, ?_, ?_⟩
  · rw [ht.isWithin_eq hcwd hpath hpath hc hc, decide_eq_true List.prefix_rfl]
  · intro path mid outer hpath hmid houter h h'
    obtain ⟨m, c, hm, hc, hmc⟩ := (ht.isWithin_iff hcwd hpath hmid).mp h
    obtain ⟨o, m', ho, hm', hom⟩ := (ht.isWithin_iff hcwd hmid houter).mp h'
    obtain rfl : m = m' := Except.ok.inj (hm.symm.trans hm')
    exact (ht.isWithin_iff hcwd hpath houter).mpr ⟨o, c, ho, hc, hom.trans hmc⟩
  · intro path c hpath hc
    obtain ⟨l, hl, -⟩ := canonical_eq_ok hpath hc
    have hroot : t.locate cwd (Location.path []) = .ok [] :=
      (ht.denotes_path hcwd rfl Location.fits_root).1
    exact (ht.isWithin_iff hcwd hpath (List.cons_ne_nil _ _)).mpr ⟨[], l, hroot, hl, List.nil_prefix⟩
  · intro child parent p s hchild hparent hp hroot hc hs hhead
    obtain ⟨lp, hlp, rfl⟩ := canonical_eq_ok hparent hp
    obtain ⟨lc, hlc, hpath⟩ := canonical_eq_ok hchild hc
    rw [ht.isWithin_eq hcwd hchild hparent hc hp, hpath,
      Location.components_path (ht.legible_of_locate hcwd hlp),
      Location.components_path (ht.legible_of_locate hcwd hlc)]
    refine congrArg Except.ok (decide_eq_false fun hprefix => ?_)
    have hne : lp ≠ [] := fun hnil => hroot (hnil ▸ Location.path_nil)
    obtain ⟨d, s, rfl⟩ := List.exists_cons_of_ne_nil hs
    exact hhead (congrArg some (Location.head?_behind_path hne hprefix hpath.symm d rfl))

end IsTree

/-- What lies behind the links to `a/b` lies in it, and in all that it lies in; `a/bc` does not. -/
theorem isWithin_components_crossings :
    crossings.IsTree ∧ crossings.get? [] = some .directory ∧
      crossings.canonical [] "l/d/x".toList = .ok "/a/b/d/x".toList ∧
      crossings.canonical [] "a/k".toList = .ok "/a/b".toList ∧
      crossings.canonical [] "a/bc".toList = .ok "/a/bc".toList ∧
      crossings.isWithin [] "l/d/x".toList "a/k".toList = .ok true ∧
      crossings.isWithin [] "l".toList "l".toList = .ok true ∧
      crossings.isWithin [] "l/d/x".toList "a".toList = .ok true ∧
      crossings.isWithin [] "a/bc".toList ['/'] = .ok true ∧
      crossings.isWithin [] "a/bc".toList "a/k".toList = .ok false := by
  have hx : crossings.canonical [] "l/d/x".toList = .ok "/a/b/d/x".toList := by cbv
  have hk : crossings.canonical [] "a/k".toList = .ok "/a/b".toList := by cbv
  have hl : crossings.canonical [] "l".toList = .ok "/a/b".toList := by cbv
  have ha : crossings.canonical [] "a".toList = .ok "/a".toList := by cbv
  have hbc : crossings.canonical [] "a/bc".toList = .ok "/a/bc".toList := by cbv
  have hcwd : crossings.get? [] = some .directory := rfl
  obtain ⟨hiff, hself, htrans, hroot, hsibling⟩ := isTree_crossings.isWithin_components hcwd
  have hxk := hiff _ _ _ _ (by decide) (by decide) hx hk
  have hka := hiff _ _ _ _ (by decide) (by decide) hk ha
  exact ⟨isTree_crossings, hcwd, hx, hk, hbc, hxk, hself _ _ (by decide) hl,
    htrans _ _ _ (by decide) (by decide) (by decide) hxk hka, hroot _ _ (by decide) hbc,
    hsibling _ _ _ ['c'] (by decide) (by decide) hk (by decide) hbc (by decide) (by decide)⟩

end FileTree

end ServerPages
