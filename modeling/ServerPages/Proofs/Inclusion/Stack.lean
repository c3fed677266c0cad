import Mathlib
import ServerPages.Proofs.Inclusion.Moment
import ServerPages.Proofs.Path.Stable

/-!
# The stack of inclusions

A moment of an expansion changes the stack only where it enters a file or leaves one
(`Inclusion.Moment.next_cases`). So at every moment the stack holds the directory of the page at
the bottom and above it one directory for each file being included (`Inclusion.Moment.Stacked`).

Each of these directories lies within the one below it (`Inclusion.Moment.Nested`), as long as
the paths of the files that are read are *plain*, which is to say that they name what their
canonical forms name (`Inclusion.IsPlainPath`).
-/

namespace ServerPages

namespace Inclusion

variable {e : Setting} {target text dir : Text} {rest ps : List Piece} {outer : List Level}
  {st : State} {m m' : Moment}

/-! ### What a moment does to the stack -/

/-- A moment leaves the stack, enters a file, or leaves one. -/
theorem Moment.next_cases (h : m.next e = some m') :
    m'.progress.nesting = m.progress.nesting ∧ m'.state.stack = m.state.stack ∨
    (∃ target rest done outer text,
      m.progress = .expanding ⟨.inclusion target :: rest, done⟩ outer ∧
      openTarget e (room e m.state) target m.state = (.ok text, m'.state) ∧
      m'.progress.nesting = m.progress.nesting + 1) ∨
    m.progress.nesting = m'.progress.nesting + 1 ∧ m'.state.stack = m.state.stack.tail := by
  obtain ⟨progress, st⟩ := m
  cases progress with
  | expanding level outer =>
    obtain ⟨left, done⟩ := level
    cases left with
    | nil =>
      cases outer with
      | nil =>
        cases h
        exact .inl ⟨rfl, rfl⟩
      | cons level outer =>
        cases h
        exact .inr (.inr ⟨rfl, rfl⟩)
    | cons p rest =>
      cases p with
      | literal s =>
        cases h
        exact .inl ⟨rfl, rfl⟩
      | inclusion target =>
        cases hopen : openTarget e (room e st) target st with
        | mk result st₁ =>
          cases result with
          | error err =>
            rw [next_refused rest done outer hopen] at h
            cases h
            exact .inl ⟨rfl, stack_of_openTarget_error hopen⟩
          | ok text =>
            rw [next_opened rest done outer hopen] at h
            cases h
            exact .inr (.inl ⟨target, rest, done, outer, text, rfl, hopen, rfl⟩)
  | failing err outer =>
    cases outer with
    | nil =>
      cases h
      exact .inl ⟨rfl, rfl⟩
    | cons level outer =>
      cases h
      exact .inr (.inr ⟨rfl, rfl⟩)
  | ended result => cases h

/-! ### How much is on the stack -/

/-- The stack holds an entry for each file being included, and the directory of the page. -/
structure Moment.Stacked (e : Setting) (dir : Text) (m : Moment) : Prop where
  length : m.state.stack.length = m.progress.nesting + 1
  bound : (m.state.stack.length : Int) ≤ max e.policy.maxIncludeDepth 0 + 1
  bottom : m.state.stack.getLast? = some dir

private theorem stacked_begin (hst : st.stack = [dir]) : (begin ps st).Stacked e dir where
  length := congrArg List.length hst
  bound := by
    show (st.stack.length : Int) ≤ _
    rw [hst, List.length_singleton]
    omega
  bottom := congrArg List.getLast? hst

theorem Moment.Stacked.next (hm : m.Stacked e dir) (h : m.next e = some m') :
    m'.Stacked e dir := by
  obtain ⟨hlength, hbound, hbottom⟩ := hm
  rcases Moment.next_cases h with ⟨hnest, hstack⟩ |
    ⟨target, rest, done, outer, text, -, hopen, hnest⟩ | ⟨hnest, hstack⟩
  · rw [← hstack] at hlength hbound hbottom
    exact ⟨hlength.trans (congrArg (· + 1) hnest.symm), hbound, hbottom⟩
  · obtain ⟨path, real, henter, -, hstack⟩ := openTarget_eq_ok hopen
    have hroom : room e m.state ≠ 0 := (enter_eq_ok_iff.mp henter).2.1
    rw [room] at hroom
    refine ⟨?_, ?_, ?_⟩
    · rw [hstack, List.length_cons, hlength, hnest]
    · rw [hstack, List.length_cons]
      omega
    · rw [hstack, List.getLast?_cons, hbottom]
      rfl
  · have htail : m'.state.stack.length = m.state.stack.length - 1 := by
      rw [hstack, List.length_tail]
    refine ⟨by omega, by omega, ?_⟩
    rw [hstack, List.getLast?_tail, if_neg (by omega), hbottom]

private theorem Runs.stacked (h : Runs e m m') (hm : m.Stacked e dir) : m'.Stacked e dir := by
  induction h with
  | refl => exact hm
  | tail _ hnext ih => exact ih.next hnext

/-! ### Where the entries lie -/

/-- The text of the file at a path is read at a moment. -/
def Moment.Reads (e : Setting) (m : Moment) (path : Text) : Prop :=
  ∃ target rest done outer given text,
    m.progress = .expanding ⟨.inclusion target :: rest, done⟩ outer ∧
      enter e (room e m.state) target m.state = .ok (given, text) ∧ path = Path.tidy given

/-- Each entry of the stack is within the one below it, and within the directory of the page. -/
def Moment.Nested (e : Setting) (dir : Text) (m : Moment) : Prop :=
  m.state.stack.IsChain (fun upper lower => e.tree.isWithin e.cwd upper lower = .ok true) ∧
    ∀ entry ∈ m.state.stack, e.tree.isWithin e.cwd entry dir = .ok true

/-- Directories in or below another one, the innermost first. -/
structure Descends (t : FileTree) (bottom : Location) (Ds : List Location) : Prop where
  usable : ∀ D ∈ Ds, t.get? D = some .directory ∧ D.Fits ∧ bottom <+: D
  chain : Ds.IsChain fun upper lower => lower <+: upper

/-- The stack holds the paths of such directories. -/
def Moment.Holds (e : Setting) (bottom : Location) (m : Moment) : Prop :=
  ∃ Ds, m.state.stack = Ds.map Location.path ∧ Descends e.tree bottom Ds

private theorem exists_read_of_readText {t : FileTree} {cwd : Location} {path : Text}
    (h : readText t cwd path = .ok text) : ∃ bytes, t.read cwd (Path.tidy path) = .ok bytes := by
  unfold readText at h
  split at h
  · cases h
  · next bytes hbytes => exact ⟨bytes, hbytes⟩

section Straight

variable (ht : e.tree.IsTree) (hcwd : e.tree.get? e.cwd = some .directory) {bottom D D' : Location}
include ht hcwd

private theorem isWithin_path (hD : e.tree.get? D = some .directory) (hf : D.Fits)
    (hD' : e.tree.get? D' = some .directory) (hf' : D'.Fits) (h : D <+: D') :
    e.tree.isWithin e.cwd D'.path D.path = .ok true :=
  (ht.isWithin_iff hcwd (Location.path_ne_nil D') (Location.path_ne_nil D)).mpr
    ⟨D, D', (ht.denotes_path hcwd hD hf).1, (ht.denotes_path hcwd hD' hf').1, h⟩

theorem Moment.Holds.nested (h : m.Holds e bottom) (hbottom : e.tree.get? bottom = some .directory)
    (hf : bottom.Fits) : m.Nested e bottom.path := by
  obtain ⟨Ds, hstack, husable, hchain⟩ := h
  refine ⟨?_, fun entry hentry => ?_⟩
  · rw [hstack, List.isChain_map]
    refine hchain.imp_of_mem_imp fun upper lower hu hl hpre => ?_
    obtain ⟨hu, hfu, -⟩ := husable upper hu
    obtain ⟨hl, hfl, -⟩ := husable lower hl
    exact isWithin_path ht hcwd hl hfl hu hfu hpre
  · rw [hstack] at hentry
    obtain ⟨D, hD, rfl⟩ := List.mem_map.mp hentry
    obtain ⟨hget, hfD, hpre⟩ := husable D hD
    exact isWithin_path ht hcwd hbottom hf hget hfD hpre

/-- A file that is read by a straight path stands in a directory within the one on top of the
stack, and that directory is pushed. -/
theorem exists_of_openTarget {left : Nat} {st₁ : State} {below : List Text}
    (hD : e.tree.get? D = some .directory) (hf : D.Fits) (hst : st.stack = D.path :: below)
    (hopen : openTarget e left target st = (.ok text, st₁))
    (hstraight : e.tree.Straight e.cwd (Path.tidy (Path.join D.path target))) :
    ∃ D', st₁.stack = D'.path :: st.stack ∧ e.tree.get? D' = some .directory ∧ D'.Fits ∧
      D <+: D' := by
  obtain ⟨path, real, henter, hreal, hstack⟩ := openTarget_eq_ok hopen
  obtain ⟨hpath, -, hwithin, hread⟩ := enter_eq_ok_iff.mp henter
  rw [hst, List.headD_cons] at hpath hwithin
  subst hpath
  have hne : Path.join D.path target ≠ [] := Path.join_ne_nil (Location.path_ne_nil D) target
  obtain ⟨c, hc, rfl⟩ := FileTree.canonical_eq_ok hne hreal
  -- the path lies in the directory on top, so its canonical location does
  obtain ⟨p, c', hp, hc', hpre⟩ :=
    (ht.isWithin_iff hcwd hne (Location.path_ne_nil D)).mp hwithin
  obtain rfl : D = p := Except.ok.inj ((ht.denotes_path hcwd hD hf).1.symm.trans hp)
  obtain rfl : c = c' := Except.ok.inj (hc.symm.trans hc')
  -- the file stands there, as the path is straight
  obtain ⟨bytes, hbytes⟩ := exists_read_of_readText hread
  obtain ⟨loc, hreach⟩ := FileTree.reach_of_read hbytes
  have hcanonical : e.tree.canonical e.cwd (Path.tidy (Path.join D.path target)) = .ok c.path := by
    rw [FileTree.canonical, if_neg (Path.tidy_ne_nil _),
      FileTree.locate_tidy (ht.legible_of_get? hcwd), hc]
    rfl
  have hfile : e.tree.get? c = some (.file bytes) :=
    ht.get?_of_reach_canonical hcwd hc ((hstraight _ hcanonical).trans hreach)
      (FileTree.file_ne_link bytes)
  have hcne : c ≠ [] := by
    rintro rfl
    cases hfile
  have hDc : D ≠ c := by
    rintro rfl
    cases hD.symm.trans hfile
  have hup := ht.get?_up hfile
  refine ⟨c.up, ?_, hup, ht.fits_of_directory hcwd hc hup (List.dropLast_prefix c),
    Location.prefix_up hpre hDc⟩
  rw [hstack, Location.parent_path hcne (ht.legible_of_get? hfile)]

theorem Moment.Holds.next (hm : m.Holds e bottom) (hne : m.state.stack ≠ [])
    (hstraight : ∀ path, m.Reads e path → e.tree.Straight e.cwd path) (h : m.next e = some m') :
    m'.Holds e bottom := by
  obtain ⟨Ds, hstack, husable, hchain⟩ := hm
  rcases Moment.next_cases h with ⟨-, hsame⟩ |
    ⟨target, rest, done, outer, text, hprogress, hopen, -⟩ | ⟨-, htail⟩
  · exact ⟨Ds, hsame.trans hstack, husable, hchain⟩
  · obtain ⟨D, Ds, rfl⟩ : ∃ D Ds', Ds = D :: Ds' :=
      List.exists_cons_of_ne_nil fun hnil => hne (hstack.trans (congrArg _ hnil))
    obtain ⟨hD, hf, hbottom⟩ := husable D List.mem_cons_self
    have hreads : m.Reads e (Path.tidy (Path.join D.path target)) := by
      obtain ⟨path, real, henter, -, -⟩ := openTarget_eq_ok hopen
      obtain ⟨rfl, -⟩ := enter_eq_ok_iff.mp henter
      refine ⟨target, rest, done, outer, _, text, hprogress, henter, ?_⟩
      rw [hstack]
      rfl
    obtain ⟨D', hpush, hD', hf', hpre⟩ :=
      exists_of_openTarget ht hcwd hD hf hstack hopen (hstraight _ hreads)
    refine ⟨D' :: D :: Ds, hpush.trans (congrArg (D'.path :: ·) hstack), ?_,
      List.isChain_cons_cons.mpr ⟨hpre, hchain⟩⟩
    rintro x (_ | ⟨_, hx⟩)
    · exact ⟨hD', hf', hbottom.trans hpre⟩
    · exact husable x hx
  · refine ⟨Ds.tail, ?_, fun D hD => husable D (List.mem_of_mem_tail hD), hchain.tail⟩
    rw [htail, hstack, List.map_tail]

theorem Runs.holds (h : Runs e m m') (hm : m.Holds e bottom) (hstacked : m.Stacked e dir)
    (hstraight : ∀ m' path, Runs e m m' → m'.Reads e path → e.tree.Straight e.cwd path) :
    m'.Holds e bottom := by
  induction h with
  | refl => exact hm
  | @tail m₁ m₂ hruns hnext ih =>
    have hlength := (Runs.stacked hruns hstacked).length
    have hne : m₁.state.stack ≠ [] := fun hnil => by
      rw [hnil] at hlength
      cases hlength
    exact Moment.Holds.next ht hcwd ih hne (fun path => hstraight m₁ path hruns) hnext

/-- The directory of the page is one that the guard can be given, if its canonical path is that
of a directory. -/
theorem exists_bottom (hdir : e.tree.canonical e.cwd e.policy.includeDir = .ok dir)
    (hexists : e.tree.isDirectory e.cwd dir = true) :
    ∃ bottom : Location, dir = bottom.path ∧ e.tree.get? bottom = some .directory ∧
      bottom.Fits := by
  have hfound : (e.tree.reachDirectory e.cwd dir).toBool = true :=
    (Bool.and_eq_true_iff.mp hexists).2
  cases hreach : e.tree.reachDirectory e.cwd dir with
  | error err =>
    rw [hreach] at hfound
    cases hfound
  | ok D =>
    have hreach := FileTree.reach_of_reachDirectory hreach
    have hne : e.policy.includeDir ≠ [] := fun hnil => by
      rw [FileTree.canonical, if_pos hnil] at hdir
      cases hdir
      rw [FileTree.reach, if_pos rfl] at hreach
      cases hreach
    obtain ⟨bottom, hbottom, rfl⟩ := FileTree.canonical_eq_ok hne hdir
    have hget := ht.get?_of_reach_canonical hcwd hbottom hreach FileTree.directory_ne_link
    exact ⟨bottom, rfl, hget, ht.fits_of_directory hcwd hbottom hget List.prefix_rfl⟩

end Straight

/-- **The stack is kept in order.** However an expansion or an inclusion ends, the stack is then
what it was. When pieces of a page are expanded, then at every moment

* the stack holds one entry more than files are being included, at most as many as the limit
  and one more, and at its bottom the canonical path of the page's directory;
* each entry lies within the one below it, and within the directory of the page, if that is a
  directory and every path that is read names what its canonical form names.

These are the moments of the expansion of every page. -/
theorem stack_discipline (e : Setting) :
    (∀ left ps st, (expandPieces e left ps st).2.stack = st.stack) ∧
    (∀ left target st, (expandTarget e left target st).2.stack = st.stack) ∧
    ∀ dir st, e.tree.canonical e.cwd e.policy.includeDir = .ok dir → st.stack = [dir] →
      (∀ source, Runs e (begin (pieces source) st)
        ⟨.ended (expand e source st).1, (expand e source st).2⟩) ∧
      ∀ ps m, Runs e (begin ps st) m →
        m.Stacked e dir ∧
        (e.tree.IsTree → e.tree.get? e.cwd = some .directory →
          e.tree.isDirectory e.cwd dir = true →
          (∀ m path, Runs e (begin ps st) m → m.Reads e path → e.tree.Straight e.cwd path) →
          m.Nested e dir) := by
  refine ⟨stack_expandPieces e, stack_expandTarget e, fun dir st hdir hst => ?_⟩
  refine ⟨fun source => runs_expand source hst, fun ps m hruns => ?_⟩
  have hbegin : (begin ps st).Stacked e dir := stacked_begin hst
  refine ⟨hruns.stacked hbegin, fun ht hcwd hexists hstraight => ?_⟩
  obtain ⟨bottom, rfl, hget, hf⟩ := exists_bottom ht hcwd hdir hexists
  have hholds : (begin ps st).Holds e bottom := by
    refine ⟨[bottom], hst, fun D hD => ?_, List.isChain_singleton _⟩
    obtain rfl := List.mem_singleton.mp hD
    exact ⟨hget, hf, List.prefix_rfl⟩
  exact (hruns.holds ht hcwd hholds hbegin hstraight).nested ht hcwd hget hf

/-- The directory `p` of a page, and a file in a directory below. -/
def shelf : Setting where
  tree := ⟨[
    (["p".toList], .directory),
    (["p".toList, "q".toList], .directory),
    (["p".toList, "q".toList, "a".toList], .file [120])]⟩
  cwd := []
  policy := { includeDir := "p".toList, maxIncludeDepth := 1 }

/-- While the file is expanded, the directory that holds it is on the stack. -/
theorem stack_discipline_shelf :
    ∃ m, Runs shelf (begin [.inclusion "q/a".toList] { stack := ["/p".toList] }) m ∧
      m.state.stack = ["/p/q".toList, "/p".toList] ∧ m.Stacked shelf "/p".toList ∧
      m.Nested shelf "/p".toList := by
  have hdir : shelf.tree.canonical [] "p".toList = .ok "/p".toList := by cbv
  have hnext : (begin [.inclusion "q/a".toList] { stack := ["/p".toList] }).next shelf =
      some ⟨.expanding ⟨[.literal ['x']], []⟩ [⟨[], []⟩],
        { stack := ["/p/q".toList, "/p".toList] }⟩ := by cbv
  have htree : shelf.tree.IsTree := by decide
  obtain ⟨-, -, hrest⟩ := stack_discipline shelf
  obtain ⟨-, hmoments⟩ := hrest "/p".toList { stack := ["/p".toList] } hdir rfl
  refine ⟨_, .single hnext, rfl, ?_⟩
  obtain ⟨hstacked, hnested⟩ := hmoments _ _ (.single hnext)
  refine ⟨hstacked, hnested htree rfl (by cbv) ?_⟩
  rintro m path hruns ⟨target, rest, done, outer, given, text, hprogress, henter, rfl⟩
  -- only the first moment reads a file
  rcases hruns.cases_head with rfl | ⟨m₁, hm₁, hruns⟩
  · cases hprogress
    obtain ⟨rfl, -⟩ := enter_eq_ok_iff.mp henter
    have hcanonical : shelf.tree.canonical [] (Path.tidy (Path.join "/p".toList "q/a".toList)) =
        .ok "/p/q/a".toList := by cbv
    intro c hc
    obtain rfl : "/p/q/a".toList = c := Except.ok.inj (hcanonical.symm.trans hc)
    cbv
  · obtain rfl := Option.some.inj (hnext.symm.trans hm₁)
    rcases hruns.cases_head with rfl | ⟨m₂, hm₂, hruns⟩
    · cases hprogress
    · cases hm₂
      rcases hruns.cases_head with rfl | ⟨m₃, hm₃, hruns⟩
      · cases hprogress
      · cases hm₃
        rcases hruns.cases_head with rfl | ⟨m₄, hm₄, hruns⟩
        · cases hprogress
        · cases hm₄
          rcases hruns.cases_head with rfl | ⟨m₅, hm₅, -⟩
          · cases hprogress
          · cases hm₅

end Inclusion

end ServerPages
