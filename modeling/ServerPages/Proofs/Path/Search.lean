import ServerPages.Proofs.Path.Located

/-!
# What a search comes to

The search for a canonical form remembers what each link has come to, and gives up at a link that
it is still following. Neither makes a difference to where names lead: what they come to is told
step by step with nothing remembered (`FileTree.Comes`), and the search finds just that, or it runs
round in a circle and there is nothing that the names come to (`FileTree.isAnswer_resolve`).

The number of steps rules out circles. To follow the target of a link takes more steps than any
part of the target, so that a link whose target comes to something is not met again before that.
-/

namespace ServerPages

namespace FileTree

open ServerPages.Path (IsStay IsPlain)

variable {t : FileTree} {loc mid dest : Location} {n : Text} {rest names : List Text} {j k : Nat}
  {r x : Except PathError Location}

/-- What names from a location come to in a number of steps: the location they lead to, or the
refusal of the first name that cannot be looked up. -/
inductive Comes (t : FileTree) : Nat → Location → List Text → Except PathError Location → Prop
  | done (loc : Location) : Comes t 0 loc [] (.ok loc)
  | stay {loc : Location} {n : Text} {rest : List Text} {k : Nat} {r : Except PathError Location}
      (hn : IsStay n) (h : Comes t k loc rest r) : Comes t (k + 1) loc (n :: rest) r
  | up {loc : Location} {rest : List Text} {k : Nat} {r : Except PathError Location}
      (h : Comes t k loc.up rest r) : Comes t (k + 1) loc (Path.up :: rest) r
  | refused {loc : Location} {n : Text} {rest : List Text} {e : PathError} (hn : IsPlain n)
      (hi : t.inspect loc n = .error e) : Comes t 0 loc (n :: rest) (.error e)
  | follow {loc : Location} {n target : Text} {rest : List Text} {k : Nat}
      {r : Except PathError Location} (hn : IsPlain n) (hi : t.inspect loc n = .ok (.link target))
      (h : Comes t k (origin loc target) (Path.names target ++ rest) r) :
      Comes t (k + 1) loc (n :: rest) r
  | enter {loc : Location} {n : Text} {rest : List Text} {e : Entry} {k : Nat}
      {r : Except PathError Location} (hn : IsPlain n) (hi : t.inspect loc n = .ok e)
      (he : ∀ s, e ≠ .link s) (h : Comes t k (loc ++ [n]) rest r) : Comes t (k + 1) loc (n :: rest) r

/-! ### One step -/

private theorem comes_nil_iff : t.Comes k loc [] r ↔ k = 0 ∧ r = .ok loc := by
  constructor
  · rintro ⟨⟩
    exact ⟨rfl, rfl⟩
  · rintro ⟨rfl, rfl⟩
    exact .done loc

private theorem comes_stay_iff (hn : IsStay n) :
    t.Comes k loc (n :: rest) r ↔ ∃ j, k = j + 1 ∧ t.Comes j loc rest r := by
  constructor
  · intro h
    cases h with
    | stay _ h => exact ⟨_, rfl, h⟩
    | up => exact absurd hn Path.not_isStay_up
    | refused hp | follow hp | enter hp => exact absurd hn hp.1
  · rintro ⟨j, rfl, h⟩
    exact .stay hn h

private theorem comes_up_iff :
    t.Comes k loc (Path.up :: rest) r ↔ ∃ j, k = j + 1 ∧ t.Comes j loc.up rest r := by
  constructor
  · intro h
    cases h with
    | stay hn => exact absurd hn Path.not_isStay_up
    | up h => exact ⟨_, rfl, h⟩
    | refused hp | follow hp | enter hp => exact absurd rfl hp.2
  · rintro ⟨j, rfl, h⟩
    exact .up h

private theorem comes_refused_iff (hn : IsPlain n) {e : PathError} (hi : t.inspect loc n = .error e) :
    t.Comes k loc (n :: rest) r ↔ k = 0 ∧ r = .error e := by
  constructor
  · intro h
    cases h with
    | stay hs => exact absurd hs hn.1
    | up => exact absurd rfl hn.2
    | refused _ hi' =>
      rw [hi] at hi'
      cases hi'
      exact ⟨rfl, rfl⟩
    | follow _ hi' | enter _ hi' =>
      rw [hi] at hi'
      cases hi'
  · rintro ⟨rfl, rfl⟩
    exact .refused hn hi

private theorem comes_follow_iff (hn : IsPlain n) {target : Text}
    (hi : t.inspect loc n = .ok (.link target)) :
    t.Comes k loc (n :: rest) r ↔
      ∃ j, k = j + 1 ∧ t.Comes j (origin loc target) (Path.names target ++ rest) r := by
  constructor
  · intro h
    cases h with
    | stay hs => exact absurd hs hn.1
    | up => exact absurd rfl hn.2
    | refused _ hi' =>
      rw [hi] at hi'
      cases hi'
    | follow _ hi' h =>
      rw [hi] at hi'
      cases hi'
      exact ⟨_, rfl, h⟩
    | enter _ hi' he =>
      rw [hi] at hi'
      cases hi'
      exact absurd rfl (he target)
  · rintro ⟨j, rfl, h⟩
    exact .follow hn hi h

private theorem comes_enter_iff (hn : IsPlain n) {e : Entry} (hi : t.inspect loc n = .ok e)
    (he : ∀ s, e ≠ .link s) :
    t.Comes k loc (n :: rest) r ↔ ∃ j, k = j + 1 ∧ t.Comes j (loc ++ [n]) rest r := by
  constructor
  · intro h
    cases h with
    | stay hs => exact absurd hs hn.1
    | up => exact absurd rfl hn.2
    | refused _ hi' =>
      rw [hi] at hi'
      cases hi'
    | follow _ hi' =>
      rw [hi] at hi'
      cases hi'
      exact absurd rfl (he _)
    | enter _ _ _ h => exact ⟨_, rfl, h⟩
  · rintro ⟨j, rfl, h⟩
    exact .enter hn hi he h

/-- Names come to one thing only, in one number of steps. -/
theorem Comes.unique (h : t.Comes k loc names r) (h' : t.Comes j loc names x) : k = j ∧ r = x := by
  induction h generalizing j with
  | done =>
    obtain ⟨rfl, rfl⟩ := comes_nil_iff.mp h'
    exact ⟨rfl, rfl⟩
  | stay hn _ ih =>
    obtain ⟨i, rfl, hrest⟩ := (comes_stay_iff hn).mp h'
    exact (ih hrest).imp_left (congrArg (· + 1))
  | up _ ih =>
    obtain ⟨i, rfl, hrest⟩ := comes_up_iff.mp h'
    exact (ih hrest).imp_left (congrArg (· + 1))
  | refused hn hi =>
    obtain ⟨rfl, rfl⟩ := (comes_refused_iff hn hi).mp h'
    exact ⟨rfl, rfl⟩
  | follow hn hi _ ih =>
    obtain ⟨i, rfl, hrest⟩ := (comes_follow_iff hn hi).mp h'
    exact (ih hrest).imp_left (congrArg (· + 1))
  | enter hn hi he _ ih =>
    obtain ⟨i, rfl, hrest⟩ := (comes_enter_iff hn hi he).mp h'
    exact (ih hrest).imp_left (congrArg (· + 1))

/-! ### Names behind others -/

variable {a b : List Text}

/-- Names that lead somewhere, and what the names behind them come to from there. -/
theorem Comes.append (ha : t.Comes j loc a (.ok mid)) (hb : t.Comes k mid b r) :
    t.Comes (j + k) loc (a ++ b) r := by
  generalize hx : (Except.ok mid : Except PathError Location) = x at ha
  induction ha with
  | done =>
    cases hx
    rwa [Nat.zero_add]
  | stay hn _ ih =>
    rw [Nat.add_right_comm]
    exact .stay hn (ih hx)
  | up _ ih =>
    rw [Nat.add_right_comm]
    exact .up (ih hx)
  | refused => cases hx
  | follow hn hi _ ih =>
    rw [Nat.add_right_comm, List.cons_append]
    refine .follow hn hi ?_
    rw [← List.append_assoc]
    exact ih hx
  | enter hn hi he _ ih =>
    rw [Nat.add_right_comm]
    exact .enter hn hi he (ih hx)

/-- A name that is refused is refused whatever stands behind it. -/
theorem Comes.append_of_error {e : PathError} (ha : t.Comes j loc a (.error e)) (b : List Text) :
    t.Comes j loc (a ++ b) (.error e) := by
  generalize hx : (Except.error e : Except PathError Location) = x at ha
  induction ha with
  | done => cases hx
  | stay hn _ ih => exact .stay hn (ih hx)
  | up _ ih => exact .up (ih hx)
  | refused hn hi => exact .refused hn hi
  | follow hn hi _ ih =>
    rw [List.cons_append]
    refine .follow hn hi ?_
    rw [← List.append_assoc]
    exact ih hx
  | enter hn hi he _ ih => exact .enter hn hi he (ih hx)

/-- What names come to is what the first of them come to, if these are refused, or else what the
others come to from where these lead. -/
theorem Comes.of_append (h : t.Comes k loc (a ++ b) r) :
    ∃ j x, j ≤ k ∧ t.Comes j loc a x ∧
      ((∃ e, x = .error e ∧ r = .error e) ∨ ∃ mid i, x = .ok mid ∧ t.Comes i mid b r) := by
  generalize hab : a ++ b = ab at h
  induction h generalizing a with
  | done loc =>
    obtain ⟨rfl, rfl⟩ := List.append_eq_nil_iff.mp hab
    exact ⟨0, _, Nat.le_refl _, .done loc, .inr ⟨loc, 0, rfl, .done loc⟩⟩
  | @stay loc n rest k r hn h ih =>
    obtain ⟨rfl, rfl⟩ | ⟨a, rfl, rfl⟩ := List.append_eq_cons_iff.mp hab
    · exact ⟨0, _, Nat.zero_le _, .done loc, .inr ⟨loc, _, rfl, .stay hn h⟩⟩
    · obtain ⟨j, x, hle, ha, hx⟩ := ih rfl
      exact ⟨j + 1, x, Nat.succ_le_succ hle, .stay hn ha, hx⟩
  | @up loc rest k r h ih =>
    obtain ⟨rfl, rfl⟩ | ⟨a, rfl, rfl⟩ := List.append_eq_cons_iff.mp hab
    · exact ⟨0, _, Nat.zero_le _, .done loc, .inr ⟨loc, _, rfl, .up h⟩⟩
    · obtain ⟨j, x, hle, ha, hx⟩ := ih rfl
      exact ⟨j + 1, x, Nat.succ_le_succ hle, .up ha, hx⟩
  | @refused loc n rest e hn hi =>
    obtain ⟨rfl, rfl⟩ | ⟨a, rfl, rfl⟩ := List.append_eq_cons_iff.mp hab
    · exact ⟨0, _, Nat.le_refl _, .done loc, .inr ⟨loc, _, rfl, .refused hn hi⟩⟩
    · exact ⟨0, _, Nat.le_refl _, .refused hn hi, .inl ⟨e, rfl, rfl⟩⟩
  | @follow loc n target rest k r hn hi h ih =>
    obtain ⟨rfl, rfl⟩ | ⟨a, rfl, rfl⟩ := List.append_eq_cons_iff.mp hab
    · exact ⟨0, _, Nat.zero_le _, .done loc, .inr ⟨loc, _, rfl, .follow hn hi h⟩⟩
    · obtain ⟨j, x, hle, ha, hx⟩ := ih (List.append_assoc ..)
      exact ⟨j + 1, x, Nat.succ_le_succ hle, .follow hn hi ha, hx⟩
  | @enter loc n rest e k r hn hi he h ih =>
    obtain ⟨rfl, rfl⟩ | ⟨a, rfl, rfl⟩ := List.append_eq_cons_iff.mp hab
    · exact ⟨0, _, Nat.zero_le _, .done loc, .inr ⟨loc, _, rfl, .enter hn hi he h⟩⟩
    · obtain ⟨j, x, hle, ha, hx⟩ := ih rfl
      exact ⟨j + 1, x, Nat.succ_le_succ hle, .enter hn hi he ha, hx⟩

/-! ### What the search keeps true -/

/-- What the target of the link at the location `link` comes to in a number of steps. -/
def LinkComes (t : FileTree) (link : Location) (k : Nat) (r : Except PathError Location) : Prop :=
  ∃ dir n target, link = dir ++ [n] ∧ IsPlain n ∧ t.inspect dir n = .ok (.link target) ∧
    t.Comes k (origin dir target) (Path.names target) r

private theorem linkComes_iff (hn : IsPlain n) {target : Text} (hi : t.inspect loc n = .ok (.link target)) :
    t.LinkComes (loc ++ [n]) k r ↔ t.Comes k (origin loc target) (Path.names target) r := by
  constructor
  · rintro ⟨dir, n', target', hloc, -, hi', h⟩
    obtain ⟨rfl, hn'⟩ := List.append_inj' hloc rfl
    obtain rfl := List.singleton_inj.mp hn'
    rw [hi] at hi'
    cases hi'
    exact h
  · exact fun h => ⟨loc, n, target, rfl, hn, hi, h⟩

/-- The names that are left to do. -/
abbrev namesOf (pending : List Pending) : List Text := pending.filterMap Pending.name?

/-- What the search stands by: links that it remembers lead where it remembers, what the names
before a mark come to the target of the marked link comes to, in no fewer steps, and every link is
fresh, remembered or marked. -/
structure Sound (t : FileTree) (fresh : List Location) (known : List (Location × Location))
    (loc : Location) (pending : List Pending) : Prop where
  recalls : Recalls (fun link dest => ∃ k, t.LinkComes link k (.ok dest)) known
  marks : ∀ pre link post, pending = pre ++ .resolved link :: post →
    ∀ j x, t.Comes j loc (namesOf pre) x → ∃ k, j ≤ k ∧ t.LinkComes link k x
  links : ∀ dir n target, t.lookup dir n = .ok (.link target) →
    dir ++ [n] ∈ fresh ∨ known.lookup (dir ++ [n]) ≠ none ∨ .resolved (dir ++ [n]) ∈ pending

variable {fresh : List Location} {known : List (Location × Location)} {pending : List Pending}

private theorem sound_links (t : FileTree) (loc : Location) (names : List Text) :
    t.Sound t.links [] loc (names.map .name) where
  recalls := recalls_nil
  marks pre link post h := by
    have hmem : Pending.resolved link ∈ names.map Pending.name := by simp [h]
    simp at hmem
  links dir n target hl := by
    refine .inl (List.mem_filterMap.mpr ⟨_, mem_entries_of_get? ?_ (lookup_eq_ok_iff.mp hl).2.2, rfl⟩)
    simp

/-- A name has been dealt with and the search has gone on to a location. -/
theorem Sound.step {next : Location} (hs : t.Sound fresh known loc (.name n :: pending))
    (h : ∀ j names x, t.Comes j next names x → ∃ k, j ≤ k ∧ t.Comes k loc (n :: names) x) :
    t.Sound fresh known next pending where
  recalls := hs.recalls
  marks pre link post hpending j x hx := by
    obtain ⟨k, hle, hk⟩ := h j _ x hx
    obtain ⟨k', hle', hk'⟩ := hs.marks (.name n :: pre) link post (by rw [hpending]; rfl) k x hk
    exact ⟨k', Nat.le_trans hle hle', hk'⟩
  links dir m target hl := (hs.links dir m target hl).imp_right fun h => h.imp_right (by simp)

/-- A mark has been reached, and its link is remembered. -/
theorem Sound.remember {link : Location} (hs : t.Sound fresh known loc (.resolved link :: pending)) :
    t.Sound fresh ((link, loc) :: known) loc pending where
  recalls := by
    obtain ⟨k, -, hk⟩ := hs.marks [] link pending rfl 0 _ (.done loc)
    exact hs.recalls.cons ⟨k, hk⟩
  marks pre link' post hpending := hs.marks (.resolved link :: pre) link' post (by rw [hpending]; rfl)
  links dir n target hl := by
    rw [List.lookup_cons]
    by_cases hlink : dir ++ [n] = link
    · exact .inr (.inl (by simp [hlink]))
    · rw [beq_eq_false_iff_ne.mpr hlink]
      refine (hs.links dir n target hl).imp_right fun h => h.imp_right fun hmem => ?_
      exact (List.mem_cons.mp hmem).resolve_left fun heq => hlink (Pending.resolved.inj heq)

/-- A fresh link is followed: its mark stands behind its target. -/
theorem Sound.follow {target : Text} (hs : t.Sound fresh known loc (.name n :: pending))
    (hn : IsPlain n) (hi : t.inspect loc n = .ok (.link target)) :
    t.Sound (others fresh (loc ++ [n])) known (origin loc target)
      ((Path.names target).map .name ++ .resolved (loc ++ [n]) :: pending) where
  recalls := hs.recalls
  marks pre link post h j x hx := by
    rcases List.append_eq_append_iff.mp h with ⟨between, rfl, hbetween⟩ | ⟨between, hnames, hbetween⟩
    · rw [namesOf, List.filterMap_append, filterMap_name?_names] at hx
      cases between with
      | nil =>
        obtain ⟨hlink, -⟩ := List.cons_eq_cons.mp hbetween
        cases hlink
        rw [List.filterMap_nil, List.append_nil] at hx
        exact ⟨j, Nat.le_refl j, (linkComes_iff hn hi).mpr hx⟩
      | cons item between =>
        obtain ⟨rfl, rfl⟩ := List.cons_eq_cons.mp hbetween
        obtain ⟨k, hle, hk⟩ := hs.marks (.name n :: between) link post rfl _ x (.follow hn hi hx)
        exact ⟨k, Nat.le_of_succ_le hle, hk⟩
    · have hmem : Pending.resolved link ∈ between ++ Pending.resolved link :: post := by simp
      cases between with
      | nil =>
        obtain ⟨hlink, -⟩ := List.cons_eq_cons.mp hbetween
        cases hlink
        rw [List.append_nil] at hnames
        rw [namesOf, ← hnames, filterMap_name?_names] at hx
        exact ⟨j, Nat.le_refl j, (linkComes_iff hn hi).mpr hx⟩
      | cons item between =>
        obtain ⟨rfl, -⟩ := List.cons_eq_cons.mp hbetween
        have hmark : Pending.resolved link ∈ (Path.names target).map Pending.name := by simp [hnames]
        simp at hmark
  links dir m target' hl := by
    by_cases hlink : dir ++ [m] = loc ++ [n]
    · exact .inr (.inr (by simp [hlink]))
    · rcases hs.links dir m target' hl with hfresh | hknown | hmark
      · exact .inl (List.mem_filter.mpr ⟨hfresh, decide_eq_true hlink⟩)
      · exact .inr (.inl hknown)
      · exact .inr (.inr (by simpa using Or.inr hmark))

/-- A link that is met while it is followed comes to nothing. -/
theorem Sound.not_comes {target : Text} (hs : t.Sound fresh known loc (.name n :: pending))
    (hn : IsPlain n) (hi : t.inspect loc n = .ok (.link target))
    (hmark : .resolved (loc ++ [n]) ∈ pending) : ¬ t.Comes k loc (n :: namesOf pending) r := by
  intro h
  obtain ⟨pre, post, rfl⟩ := List.append_of_mem hmark
  have hpending : n :: namesOf (pre ++ .resolved (loc ++ [n]) :: post) =
      n :: namesOf pre ++ namesOf post :=
    congrArg (n :: ·) List.filterMap_append
  rw [hpending] at h
  -- up to its mark, the link takes more steps than its target does
  obtain ⟨j, x, -, hpre, -⟩ := h.of_append
  obtain ⟨i, hle, hlink⟩ := hs.marks (.name n :: pre) _ post rfl j x hpre
  obtain ⟨j, rfl, hfollow⟩ := (comes_follow_iff hn hi).mp hpre
  obtain ⟨i', y, hle', htarget, -⟩ := hfollow.of_append
  obtain ⟨rfl, -⟩ := htarget.unique ((linkComes_iff hn hi).mp hlink)
  omega

/-! ### The search -/

/-- What is found where names come to something is that, and where they come to nothing it is that
there are too many links. -/
def IsAnswer (t : FileTree) (loc : Location) (names : List Text) (r : Except PathError Location) :
    Prop :=
  (∃ k, t.Comes k loc names r) ∨
    (∃ path, r = .error (.refused .tooManyLinks path)) ∧ ∀ k r, ¬ t.Comes k loc names r

/-- The same is found for names that come to the same. -/
theorem IsAnswer.step {loc' : Location} {names' : List Text} (h : t.IsAnswer loc' names' r)
    (hto : ∀ k, t.Comes k loc' names' r → ∃ j, t.Comes j loc names r)
    (hof : ∀ k r, t.Comes k loc names r → ∃ j, t.Comes j loc' names' r) :
    t.IsAnswer loc names r := by
  refine h.imp (fun ⟨k, hk⟩ => hto k hk) (And.imp_right fun hnone k r hk => ?_)
  obtain ⟨j, hj⟩ := hof k r hk
  exact hnone j r hj

/-- **The search finds what the names come to**, and that there are too many links if they come to
nothing. -/
theorem isAnswer_resolve (hs : t.Sound fresh known loc pending) :
    t.IsAnswer loc (namesOf pending) (t.resolve fresh known loc pending) := by
  fun_induction t.resolve fresh known loc pending with
  | case1 fresh known loc => exact .inl ⟨0, .done loc⟩
  | case2 fresh known loc link rest ih => exact ih hs.remember
  | case3 fresh known loc n rest hn ih =>
    have hn := Path.isStay_iff.mp hn
    refine (ih (hs.step fun j names x h => ⟨_, Nat.le_succ j, .stay hn h⟩)).step
      (fun k hk => ⟨_, .stay hn hk⟩) fun k r h => ?_
    obtain ⟨j, -, h⟩ := (comes_stay_iff hn).mp h
    exact ⟨j, h⟩
  | case4 fresh known loc rest _ ih =>
    refine (ih (hs.step fun j names x h => ⟨_, Nat.le_succ j, .up h⟩)).step
      (fun k hk => ⟨_, .up hk⟩) fun k r h => ?_
    obtain ⟨j, -, h⟩ := comes_up_iff.mp h
    exact ⟨j, h⟩
  | case5 fresh known loc n rest hs' hu e hi =>
    exact .inl ⟨0, .refused ⟨mt Path.isStay_iff.mpr hs', hu⟩ hi⟩
  | case6 fresh known loc n rest hs' hu target hi link next hknown ih =>
    -- the link is remembered: what its target comes to need not be looked up again
    have hn : IsPlain n := ⟨mt Path.isStay_iff.mpr hs', hu⟩
    obtain ⟨i, hlink⟩ := hs.recalls _ _ hknown
    have htarget := (linkComes_iff hn hi).mp hlink
    have hnext : ∀ j names x, t.Comes j next names x → t.Comes (i + j + 1) loc (n :: names) x :=
      fun j names x h => .follow hn hi (htarget.append h)
    refine (ih (hs.step fun j names x h => ⟨_, by omega, hnext j names x h⟩)).step
      (fun k hk => ⟨_, hnext k _ _ hk⟩) fun k r h => ?_
    obtain ⟨j, -, h⟩ := (comes_follow_iff hn hi).mp h
    obtain ⟨i', x, -, htarget', hrest⟩ := h.of_append
    obtain ⟨-, rfl⟩ := htarget.unique htarget'
    obtain ⟨e, hx, -⟩ | ⟨mid, i, hx, h⟩ := hrest
    · cases hx
    · cases hx
      exact ⟨i, h⟩
  | case7 fresh known loc n rest hs' hu target hi link hknown hfresh ih =>
    have hn : IsPlain n := ⟨mt Path.isStay_iff.mpr hs', hu⟩
    have hnames : namesOf ((Path.names target).map .name ++ .resolved link :: rest) =
        Path.names target ++ namesOf rest := by
      rw [namesOf, List.filterMap_append, filterMap_name?_names]
      rfl
    have ih := ih (hs.follow hn hi)
    rw [hnames] at ih
    refine ih.step (fun k hk => ⟨_, .follow hn hi hk⟩) fun k r h => ?_
    obtain ⟨j, -, h⟩ := (comes_follow_iff hn hi).mp h
    exact ⟨j, h⟩
  | case8 fresh known loc n rest hs' hu target hi link hknown hfresh =>
    -- the link is being followed already, so the names go round in a circle
    have hn : IsPlain n := ⟨mt Path.isStay_iff.mpr hs', hu⟩
    refine .inr ⟨⟨_, rfl⟩, fun k r h => ?_⟩
    have hlink := hs.links loc n target (inspect_eq_ok_iff.mp hi).2.2
    have hmark := (hlink.resolve_left hfresh).resolve_left (not_not.mpr hknown)
    exact hs.not_comes hn hi (by simpa using hmark) h
  | case9 fresh known loc n rest hs' hu e he hi ih =>
    have hn : IsPlain n := ⟨mt Path.isStay_iff.mpr hs', hu⟩
    refine (ih (hs.step fun j names x h => ⟨_, Nat.le_succ j, .enter hn hi he h⟩)).step
      (fun k hk => ⟨_, .enter hn hi he hk⟩) fun k r h => ?_
    obtain ⟨j, -, h⟩ := (comes_enter_iff hn hi he).mp h
    exact ⟨j, h⟩

/-- What names come to, the search finds. -/
theorem Comes.resolveAll (h : t.Comes k [] names r) : t.resolveAll names = r := by
  have hsearch := isAnswer_resolve (sound_links t [] names)
  rw [namesOf, filterMap_name?_names] at hsearch
  obtain ⟨j, hj⟩ | ⟨-, hnone⟩ := hsearch
  · exact (hj.unique h).2
  · exact absurd h (hnone k r)

/-- What the search finds, the names come to, unless it ends in a circle. -/
theorem exists_comes (h : t.resolveAll names = r)
    (hr : ∀ path, r ≠ .error (.refused .tooManyLinks path)) : ∃ k, t.Comes k [] names r := by
  have hsearch := isAnswer_resolve (sound_links t [] names)
  rw [namesOf, filterMap_name?_names] at hsearch
  obtain hcomes | ⟨⟨path, hpath⟩, -⟩ := hsearch
  · exact h ▸ hcomes
  · exact absurd (h.symm.trans hpath) (hr path)

end FileTree

end ServerPages
