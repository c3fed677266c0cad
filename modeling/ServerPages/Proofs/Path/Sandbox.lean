import Mathlib
import ServerPages.Proofs.Path.Guard
import ServerPages.Page.Include

/-!
# The contract of the guard

A guarded opening stays in the base directory, and so does an inclusion, as long as the path is
*kept* (`FileTree.Kept`). `FileTree.IsTree.sandbox` says so for every tree, base directory, name
and mode, and that no weaker condition would do. The guard does not check it: in one tree, names
lead out of their base directory by a double dot behind a link and by a link to nothing
(`openFile_detours`).
-/

namespace ServerPages

open Guarded

variable {t : FileTree} {cwd D : Location} {path name mode dir : Text} {base : Option Text}
  {options : Options}

/-! ### Guarded openings -/

/-- Whatever comes of an opening, it opens no file outside a directory and changes none there. -/
structure StaysIn (t : FileTree) (D : Location) (out : FileTree × Except GuardError Opened) :
    Prop where
  opened : ∀ f, out.2 = .ok f → D <+: f.loc
  frame : ∀ l, ¬ D <+: l → out.1.get? l = t.get? l

/-- A refusal of the guard or of the file system. -/
inductive IsRefusal (name base : Text) : GuardError → Prop
  | outside : IsRefusal name base (.outside ⟨name, base⟩)
  | path (e : FileError) (p : Text) : IsRefusal name base (.path (.refused e p))

private theorem FileTree.guard_eq_ok_iff :
    t.guard cwd path name dir = .ok () ↔ t.isWithin cwd path dir = .ok true := by
  unfold FileTree.guard
  split <;> simp_all

private theorem FileTree.guard_error {e : GuardError} (h : t.guard cwd path name dir = .error e) :
    e = .outside ⟨name, dir⟩ ∨ ∃ pe, t.isWithin cwd path dir = .error pe ∧ e = .path pe := by
  unfold FileTree.guard at h
  split at h
  · next pe hw =>
    cases h
    exact .inr ⟨pe, hw, rfl⟩
  · cases h
    exact .inl rfl
  · cases h

private theorem openRaw_error {purpose : Purpose} {e : PathError} (hnull : '\x00' ∉ path)
    (h : openRaw t cwd path purpose = .error e) : ∃ fe p, e = .refused fe p := by
  simp only [openRaw, if_neg hnull] at h
  repeat' split at h
  all_goals first | (cases h; done) | (cases h; exact ⟨_, _, rfl⟩)

private theorem openRaw_read {loc : Location} {b : Bytes} (hnull : '\x00' ∉ path)
    (h : t.reach cwd true path = .ok (.entry loc (.file b))) :
    openRaw t cwd path .read = .ok (t, loc) := by
  have hf : decide (Purpose.read ≠ .create) = true := rfl
  simp only [openRaw, if_neg hnull, hf, h]

namespace FileTree.IsTree

variable (ht : t.IsTree) (hcwd : t.get? cwd = some .directory)
include ht hcwd

private theorem openFile_staysIn (hdir : base.getD cwd.path = dir) (hd : t.Denotes cwd dir D)
    (hk : t.Kept cwd (Path.join dir name)) :
    StaysIn t D (openFile t cwd name mode base options) := by
  rcases openFile_cases hdir with ⟨e, he⟩ | ⟨hg, purpose, t', loc, ho, htree, hloc⟩
  · rw [he]
    exact ⟨fun _ => nofun, fun _ _ => rfl⟩
  · have hD := ht.prefix_of_kept hcwd hk hd (guard_eq_ok_iff.mp hg) ho
    refine ⟨fun f hf => (hloc f hf).symm ▸ hD, fun l hl => ?_⟩
    rw [htree]
    exact get?_openRaw ho fun heq => hl (heq.symm ▸ hD)

/-- The guard refuses a path without null characters as lying outside, or for the file system. -/
theorem guard_refusal (hpath : '\x00' ∉ path) (hbase : '\x00' ∉ dir) {e : GuardError}
    (h : t.guard cwd path name dir = .error e) : IsRefusal name dir e := by
  rcases guard_error h with rfl | ⟨pe, hw, rfl⟩
  · exact .outside
  · cases pe with
    | refused e p => exact .path e p
    | nullCharacter =>
      rcases isWithin_error hw with hl | hl
      · exact absurd hl (ht.locate_ne_null hcwd hbase)
      · exact absurd hl (ht.locate_ne_null hcwd hpath)

private theorem openFile_refusal (hdir : base.getD cwd.path = dir) (hpath : '\x00' ∉ Path.join dir name)
    (hbase : '\x00' ∉ dir) (hm : Mode.Spelled mode) {t' : FileTree} {e : GuardError}
    (h : openFile t cwd name mode base {} = (t', .error e)) :
    t' = t ∧ IsRefusal name dir e := by
  obtain ⟨htree, hg | ⟨purpose, pe, ho, rfl⟩⟩ := openFile_error hdir hm h
  · exact ⟨htree, ht.guard_refusal hcwd hpath hbase hg⟩
  · obtain ⟨fe, p, rfl⟩ := openRaw_error hpath ho
    exact ⟨htree, .path fe p⟩

end FileTree.IsTree

/-! ### Inclusions -/

namespace Inclusion

variable {e : Setting} {left : Nat} {target : Text} {st : State}

/-- A refusal of an inclusion, other than that the bytes of the file are no text. -/
inductive IsRefused (e : Setting) (left : Nat) (target base : Text) : IncludeError → Prop
  | outside : IsRefused e left target base (.outside ⟨target, base⟩)
  | tooDeep (h : left = 0) : IsRefused e left target base (.tooDeep e.policy.maxIncludeDepth)
  | path (fe : FileError) (p : Text) : IsRefused e left target base (.path (.refused fe p))

/-- An inclusion is refused for its path, or it reads the file there. -/
theorem enter_cases (hbase : st.stack.headD [] = dir) :
    (∃ err, enter e left target st = .error err ∧
      ((∃ pe, e.tree.isWithin e.cwd (Path.join dir target) dir = .error pe ∧ err = .path pe) ∨
        err = .outside ⟨target, dir⟩ ∨ (left = 0 ∧ err = .tooDeep e.policy.maxIncludeDepth) ∨
        ∃ pe, e.tree.read e.cwd (Path.tidy (Path.join dir target)) = .error pe ∧
          err = .path pe)) ∨
    e.tree.isWithin e.cwd (Path.join dir target) dir = .ok true ∧
      ∃ bytes, e.tree.read e.cwd (Path.tidy (Path.join dir target)) = .ok bytes ∧
        enter e left target st = match Utf8.decode bytes with
          | .error fault => .error (.decoding fault)
          | .ok s => .ok (Path.join dir target, Text.unifyNewlines s) := by
  subst hbase
  simp only [enter]
  split
  · next pe hw => exact .inl ⟨_, rfl, .inl ⟨pe, hw, rfl⟩⟩
  · exact .inl ⟨_, rfl, .inr (.inl rfl)⟩
  · next hw =>
    split
    · next hleft => exact .inl ⟨_, rfl, .inr (.inr (.inl ⟨hleft, rfl⟩))⟩
    · rw [readText]
      cases hr : e.tree.read e.cwd (Path.tidy (Path.join (st.stack.headD []) target)) with
      | error pe => exact .inl ⟨_, rfl, .inr (.inr (.inr ⟨pe, rfl, rfl⟩))⟩
      | ok bytes =>
        refine .inr ⟨hw, bytes, rfl, ?_⟩
        cases hs : Utf8.decode bytes <;> simp only [hs, Except.map]

private theorem read_cases {t : FileTree} {cwd : Location} (path : Text) (hnull : '\x00' ∉ path) :
    (∃ fe, t.read cwd path = .error (.refused fe path)) ∨
      ∃ loc bytes, t.reach cwd true path = .ok (.entry loc (.file bytes)) ∧
        t.read cwd path = .ok bytes := by
  rw [FileTree.read, if_neg hnull]
  split
  · next loc bytes hr => exact .inr ⟨loc, bytes, hr, rfl⟩
  all_goals exact .inl ⟨_, rfl⟩

/-- An inclusion by a kept path is refused, or it reads a file in the directory on top of the
stack. -/
theorem enter_within (ht : e.tree.IsTree) (hcwd : e.tree.get? e.cwd = some .directory)
    (hbase : st.stack.headD [] = dir) (hd : e.tree.Denotes e.cwd dir D)
    (hk : e.tree.Kept e.cwd (Path.tidy (Path.join dir target))) (hnull : '\x00' ∉ dir)
    (hpath : '\x00' ∉ Path.join dir target) :
    (∃ err, enter e left target st = .error err ∧ IsRefused e left target dir err) ∨
      ∃ loc bytes, e.tree.reach e.cwd true (Path.tidy (Path.join dir target)) =
          .ok (.entry loc (.file bytes)) ∧ D <+: loc ∧
        enter e left target st = match Utf8.decode bytes with
          | .error fault => .error (.decoding fault)
          | .ok s => .ok (Path.join dir target, Text.unifyNewlines s) := by
  have htidy : '\x00' ∉ Path.tidy (Path.join dir target) := fun h => by
    rcases Path.mem_tidy h with h | h | h
    · exact hpath h
    all_goals exact absurd h (by decide)
  rcases enter_cases hbase with ⟨err, herr, hcases⟩ | ⟨hw, bytes, hread, henter⟩
  · refine .inl ⟨err, herr, ?_⟩
    rcases hcases with ⟨pe, hw, rfl⟩ | rfl | ⟨hleft, rfl⟩ | ⟨pe, hread, rfl⟩
    · cases pe with
      | refused fe p => exact .path fe p
      | nullCharacter =>
        rcases FileTree.isWithin_error hw with hl | hl
        · exact absurd hl (ht.locate_ne_null hcwd hnull)
        · exact absurd hl (ht.locate_ne_null hcwd hpath)
    · exact .outside
    · exact .tooDeep hleft
    · rcases read_cases _ htidy with ⟨fe, hr⟩ | ⟨_, _, _, hr⟩ <;> rw [hread] at hr <;> cases hr
      exact .path _ _
  · rcases read_cases _ htidy with ⟨fe, hr⟩ | ⟨loc, bytes', hreach, hr⟩ <;> rw [hread] at hr <;>
      cases hr
    refine .inr ⟨loc, bytes, hreach, ?_, henter⟩
    refine ht.prefix_of_kept hcwd hk hd ?_ (openRaw_read htidy hreach)
    rwa [FileTree.isWithin_tidy (ht.legible_of_get? hcwd) (Path.join_ne_nil hd.ne_nil target)]

end Inclusion

/-! ### The contract -/

/-- **The contract of the guard.** Let `path` be a path in a tree, seen from a directory.

* Every file that is opened by `path` lies in every base directory that the guard accepts for it
  if and only if `path` is kept.
* A path whose double dots retrace, and that does not end in a link to nothing, is kept.
* If a guarded opening joins the base directory and the name to a kept path, it opens and changes
  nothing outside of the base directory; and if it fails, for a mode that says what the file is
  opened for and without null characters, then the guard or the file system refuses it and the
  tree is as it was.
* If an inclusion joins the directory on top of the stack and the target to a path that is kept
  when tidy, it is refused, or it reads a file in that directory. -/
theorem FileTree.IsTree.sandbox (ht : t.IsTree) (hcwd : t.get? cwd = some .directory) :
    (∀ path, t.Kept cwd path ↔
      ∀ base D, t.Denotes cwd base D → t.isWithin cwd path base = .ok true →
        ∀ purpose t' loc, openRaw t cwd path purpose = .ok (t', loc) → D <+: loc) ∧
    (∀ path, t.Retraces (Path.spelled cwd path) → ¬ t.Dangles cwd path → t.Kept cwd path) ∧
    (∀ name mode base dir D, Option.getD base cwd.path = dir → t.Denotes cwd dir D →
      (t.Kept cwd (Path.join dir name) →
        ∀ options, StaysIn t D (openFile t cwd name mode base options)) ∧
      ('\x00' ∉ dir → '\x00' ∉ Path.join dir name → Mode.Spelled mode →
        ∀ t' e, openFile t cwd name mode base {} = (t', .error e) →
          t' = t ∧ IsRefusal name dir e)) ∧
    (∀ (e : Inclusion.Setting) left target st dir D, e.tree = t → e.cwd = cwd →
      st.stack.headD [] = dir → t.Denotes cwd dir D → '\x00' ∉ dir →
      '\x00' ∉ Path.join dir target → t.Kept cwd (Path.tidy (Path.join dir target)) →
      (∃ err, Inclusion.enter e left target st = .error err ∧
        Inclusion.IsRefused e left target dir err) ∨
      ∃ loc bytes, t.reach cwd true (Path.tidy (Path.join dir target)) =
          .ok (.entry loc (.file bytes)) ∧ D <+: loc ∧
        Inclusion.enter e left target st = match Utf8.decode bytes with
          | .error fault => .error (.decoding fault)
          | .ok s => .ok (Path.join dir target, Text.unifyNewlines s)) := by
  refine ⟨fun path => ht.kept_iff hcwd, fun path => ht.kept_of_retraces hcwd, ?_, ?_⟩
  · intro name mode base dir D hdir hd
    refine ⟨fun hk options => ht.openFile_staysIn hcwd hdir hd hk, ?_⟩
    intro hbase hpath hm t' e h
    exact ht.openFile_refusal hcwd hdir hpath hbase hm h
  · rintro e left target st dir D rfl rfl hbase hd hnull hpath hk
    exact Inclusion.enter_within ht hcwd hbase hd hk hnull hpath

/-- The directory `in` with a page, a link to the directory `out/dir`, and a link to nothing. -/
def detours : FileTree := ⟨[
  (["in".toList], .directory),
  (["in".toList, "page".toList], .file [112]),
  (["in".toList, "d".toList], .link "../out/dir".toList),
  (["in".toList, "l".toList], .link "../new".toList),
  (["out".toList], .directory),
  (["out".toList, "dir".toList], .directory),
  (["out".toList, "secret".toList], .file [115])]⟩

private theorem isTree_detours : detours.IsTree := by decide

private theorem denotes_detours : detours.Denotes [] "in".toList ["in".toList] := by
  refine ⟨by cbv, fun p hp => ?_⟩
  have hl : detours.locate [] "in".toList = .ok ["in".toList] := by cbv
  rw [hl] at hp
  cases hp
  exact List.prefix_rfl

/-- Of the names in `detours`, the page is kept, and a double dot behind the link to a directory
is not. -/
theorem sandbox_detours : detours.IsTree ∧ detours.get? [] = some .directory ∧
    detours.Kept [] "in/page".toList ∧ ¬ detours.Kept [] "in/d/../secret".toList ∧
    StaysIn detours ["in".toList]
      (openFile detours [] "page".toList "w".toList (some "in".toList) {}) := by
  have hcwd : detours.get? [] = some .directory := rfl
  obtain ⟨hiff, hretraces, hopen, -⟩ := isTree_detours.sandbox hcwd
  have hpage : detours.Kept [] "in/page".toList := by
    refine hretraces _ (FileTree.retraces_of_not_mem (by decide)) ?_
    rintro ⟨⟨l, s, hl⟩, -⟩
    have hr : detours.reach [] false "in/page".toList =
        .ok (.entry ["in".toList, "page".toList] (.file [112])) := by cbv
    rw [hr] at hl
    cases hl
  refine ⟨isTree_detours, hcwd, hpage, fun hk => ?_, ?_⟩
  · have ho : openRaw detours [] "in/d/../secret".toList .read =
        .ok (detours, ["out".toList, "secret".toList]) := by cbv
    have hw : detours.isWithin [] "in/d/../secret".toList "in".toList = .ok true := by cbv
    have := (hiff _).mp hk _ _ denotes_detours hw _ _ _ ho
    exact absurd this (by decide)
  · have hjoin : Path.join "in".toList "page".toList = "in/page".toList := by decide
    rw [← hjoin] at hpage
    exact (hopen _ _ _ "in".toList _ rfl denotes_detours).1 hpage {}

/-- **The guard can be left.** In `detours`, with base directory `in`, a name with a double dot
behind a link reads `out/secret`, and a link to nothing makes the file `new`. -/
theorem openFile_detours :
    (∃ f, (openFile detours [] "d/../secret".toList "r".toList (some "in".toList) {}).2 = .ok f ∧
      f.loc = ["out".toList, "secret".toList] ∧ ¬ ["in".toList] <+: f.loc) ∧
    ¬ StaysIn detours ["in".toList]
      (openFile detours [] "l".toList "w".toList (some "in".toList) {}) := by
  have hdir : (some "in".toList).getD (Location.path []) = "in".toList := rfl
  constructor
  · have hw : detours.isWithin [] "in/d/../secret".toList "in".toList = .ok true := by cbv
    have ho : openRaw detours [] "in/d/../secret".toList .read =
        .ok (detours, ["out".toList, "secret".toList]) := by cbv
    have hjoin : Path.join "in".toList "d/../secret".toList = "in/d/../secret".toList := by decide
    rw [← hjoin] at hw ho
    have hm : Mode.parse "r".toList = .ok ⟨some .read, false, false⟩ := by decide
    obtain ⟨f, hf, hloc⟩ := openFile_opened hdir (FileTree.guard_eq_ok_iff.mpr hw) hm rfl ho
    exact ⟨f, congrArg Prod.snd hf, hloc, hloc ▸ by decide⟩
  · intro hstays
    have hw : detours.isWithin [] "in/l".toList "in".toList = .ok true := by cbv
    have ho : openRaw detours [] "in/l".toList .write =
        .ok (detours.put ["new".toList] (.file []), ["new".toList]) := by cbv
    have hjoin : Path.join "in".toList "l".toList = "in/l".toList := by decide
    rw [← hjoin] at hw ho
    have hm : Mode.parse "w".toList = .ok ⟨some .write, false, false⟩ := by decide
    obtain ⟨f, hf, hloc⟩ := openFile_opened hdir (FileTree.guard_eq_ok_iff.mpr hw) hm rfl ho
    have hD := hstays.opened f (congrArg Prod.snd hf)
    rw [hloc] at hD
    exact absurd hD (by decide)

end ServerPages
