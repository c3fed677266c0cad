import Mathlib.Data.List.Induction
import ServerPages.Path.Resolved
import ServerPages.Proofs.Path.Leads

/-!
# Resolving links

The search for a canonical form resolves links by a stack of its own, which remembers what each
link has come to. Where the file system is led by some names, that search is led too
(`resolve_append_of_leads`), unless it refuses them for a reason other than that something is
missing. So the canonical location of names that lead somewhere is where they lead
(`canonicalFrom_of_leads`).
-/

namespace ServerPages

/-- The error of a place where nothing stands. -/
def PathError.IsMissing (e : PathError) : Prop := ∃ path, e = .refused .notFound path

namespace FileTree

open ServerPages.Path (IsStay IsPlain)

variable {t : FileTree} {fresh : List Location} {known : List (Location × Location)}
  {loc dest : Location} {n : Text} {rest : List Pending}

/-! ### One step of the search -/

private theorem resolve_stay (hn : IsStay n) :
    t.resolve fresh known loc (.name n :: rest) = t.resolve fresh known loc rest := by
  rw [resolve, if_pos (Path.isStay_iff.mpr hn)]

private theorem resolve_up :
    t.resolve fresh known loc (.name Path.up :: rest) = t.resolve fresh known loc.up rest := by
  rw [resolve, if_neg (mt Path.isStay_iff.mp Path.not_isStay_up), if_pos rfl]

private theorem resolve_error (hn : IsPlain n) {e : PathError} (h : t.inspect loc n = .error e) :
    t.resolve fresh known loc (.name n :: rest) = .error e := by
  rw [resolve, if_neg (mt Path.isStay_iff.mp hn.1), if_neg hn.2, h]

theorem resolve_enter (hn : IsPlain n) {e : Entry} (h : t.inspect loc n = .ok e)
    (he : ∀ s, e ≠ .link s) :
    t.resolve fresh known loc (.name n :: rest) = t.resolve fresh known (loc ++ [n]) rest := by
  rw [resolve, if_neg (mt Path.isStay_iff.mp hn.1), if_neg hn.2, h]
  cases e with
  | link s => exact absurd rfl (he s)
  | _ => rfl

/-- A link is resolved once; met again before that, it leads round in a circle. -/
theorem resolve_link (hn : IsPlain n) {target : Text} (h : t.inspect loc n = .ok (.link target)) :
    t.resolve fresh known loc (.name n :: rest) = match known.lookup (loc ++ [n]) with
      | some dest => t.resolve fresh known dest rest
      | none =>
        if loc ++ [n] ∈ fresh then
          t.resolve (others fresh (loc ++ [n])) known (origin loc target)
            ((Path.names target).map .name ++ .resolved (loc ++ [n]) :: rest)
        else .error (.refused .tooManyLinks (loc ++ [n]).path) := by
  rw [resolve, if_neg (mt Path.isStay_iff.mp hn.1), if_neg hn.2, h]
  rfl

/-- A name on the way to a canonical path is found exactly if it could be looked up and the path
so far is no longer than paths may be. -/
theorem inspect_eq_ok_iff {e : Entry} :
    t.inspect loc n = .ok e ↔ '\x00' ∉ n ∧ (Utf8.encode (loc ++ [n]).path).length ≤ pathLimit ∧
      t.lookup loc n = .ok e := by
  simp only [inspect]
  by_cases hnull : '\x00' ∈ n
  · simp [hnull]
  · by_cases hlong : pathLimit < (Utf8.encode (loc ++ [n]).path).length
    · simp [hnull, hlong, Nat.not_le.mpr hlong]
    · rw [if_neg hnull, if_neg hlong]
      cases t.lookup loc n <;> simp [hnull, Nat.not_lt.mp hlong]

/-- Something is missing on the way only if it cannot be found. -/
theorem lookup_of_inspect_missing {e : PathError} (h : t.inspect loc n = .error e)
    (he : e.IsMissing) : t.lookup loc n = .error .notFound := by
  obtain ⟨path, rfl⟩ := he
  simp only [inspect] at h
  by_cases hnull : '\x00' ∈ n
  · simp [hnull] at h
  · by_cases hlong : pathLimit < (Utf8.encode (loc ++ [n]).path).length
    · simp [hnull, hlong] at h
    · rw [if_neg hnull, if_neg hlong] at h
      cases hl : t.lookup loc n with
      | ok => simp [hl] at h
      | error e => simp_all

/-! ### What the search remembers -/

/-- The link at the location `link` leads to the location `dest`. -/
def LinkLeads (t : FileTree) (link dest : Location) : Prop :=
  ∃ dir n target, link = dir ++ [n] ∧ t.lookup dir n = .ok (.link target) ∧
    t.Leads (origin dir target) (Path.names target) dest

private theorem linkLeads_iff {target : Text} (hl : t.lookup loc n = .ok (.link target)) :
    t.LinkLeads (loc ++ [n]) dest ↔ t.Leads (origin loc target) (Path.names target) dest := by
  constructor
  · rintro ⟨dir, n', target', hloc, hl', h⟩
    obtain ⟨rfl, hn⟩ := List.append_inj' hloc rfl
    obtain rfl := List.singleton_inj.mp hn
    rw [hl] at hl'
    cases hl'
    exact h
  · exact fun h => ⟨loc, n, target, rfl, hl, h⟩

/-- The link at the location `link` leads to the location `dest`, if it leads anywhere. -/
def Settles (t : FileTree) (link dest : Location) : Prop :=
  ∀ d, t.LinkLeads link d → d = dest

/-- Everything that the search remembers of links is so. -/
def Recalls (R : Location → Location → Prop) (known : List (Location × Location)) : Prop :=
  ∀ link dest, known.lookup link = some dest → R link dest

/-- Where a marked link leads, there the names before the mark lead. -/
def Marked (t : FileTree) (loc : Location) (pending : List Pending) : Prop :=
  ∀ pre link post, pending = pre ++ .resolved link :: post →
    ∀ dest, t.LinkLeads link dest → t.Leads loc (pre.filterMap Pending.name?) dest

theorem filterMap_name?_names (names : List Text) :
    (names.map Pending.name).filterMap Pending.name? = names := by
  rw [List.filterMap_map]
  exact List.filterMap_some

theorem marked_names (loc : Location) (names : List Text) :
    t.Marked loc (names.map .name) := by
  intro pre link post h
  have hmem : Pending.resolved link ∈ names.map Pending.name := by simp [h]
  simp at hmem

theorem recalls_nil {R : Location → Location → Prop} : Recalls R [] := fun _ _ h => nomatch h

theorem Recalls.cons {R : Location → Location → Prop} {link : Location} (hk : Recalls R known)
    (h : R link dest) : Recalls R ((link, dest) :: known) := by
  intro l d hl
  rw [List.lookup_cons] at hl
  by_cases hlink : l == link
  · rw [hlink] at hl
    cases hl
    rwa [beq_iff_eq.mp hlink]
  · rw [Bool.eq_false_iff.mpr hlink] at hl
    exact hk l d hl

/-- Names behind a link that is remembered lead on from where it is remembered to lead. -/
theorem Recalls.leads {target : Text} {names : List Text} {next : Location}
    (hk : Recalls t.Settles known) (hn : IsPlain n) (hl : t.lookup loc n = .ok (.link target))
    (hknown : known.lookup (loc ++ [n]) = some next) (h : t.Leads loc (n :: names) dest) :
    t.Leads next names dest := by
  obtain ⟨mid, hmid, h⟩ := leads_append_iff.mp ((leads_link_iff hn hl).mp h)
  exact hk _ _ hknown mid ((linkLeads_iff hl).mpr hmid) ▸ h

/-- The marks stay true when a name leads on. -/
theorem Marked.step {next : Location} (hm : t.Marked loc (.name n :: rest))
    (h : ∀ names dest, t.Leads loc (n :: names) dest → t.Leads next names dest) :
    t.Marked next rest := by
  rintro pre link post rfl dest hlink
  exact h _ _ (hm (.name n :: pre) link post rfl dest hlink)

/-- A mark that comes next settles its link. -/
theorem Marked.settles {link : Location} (hm : t.Marked loc (.resolved link :: rest)) :
    t.Settles link loc := fun d hlink =>
  leads_nil_iff.mp (hm [] link rest rfl d hlink)

theorem Marked.tail {link : Location} (hm : t.Marked loc (.resolved link :: rest)) :
    t.Marked loc rest := by
  rintro pre link' post rfl dest hlink
  exact hm (.resolved link :: pre) link' post rfl dest hlink

/-- The marks stay true when a link is opened: its own mark stands behind its target. -/
theorem Marked.follow {target : Text} (hm : t.Marked loc (.name n :: rest)) (hn : IsPlain n)
    (hl : t.lookup loc n = .ok (.link target)) :
    t.Marked (origin loc target)
      ((Path.names target).map .name ++ .resolved (loc ++ [n]) :: rest) := by
  intro pre link post h dest hleads
  rcases List.append_eq_append_iff.mp h with ⟨mid, rfl, hmid⟩ | ⟨mid, hnames, hmid⟩
  · rw [List.filterMap_append, filterMap_name?_names]
    cases mid with
    | nil =>
      obtain ⟨hlink, -⟩ := List.cons_eq_cons.mp hmid
      cases hlink
      rw [List.filterMap_nil, List.append_nil]
      exact (linkLeads_iff hl).mp hleads
    | cons item mid =>
      obtain ⟨rfl, rfl⟩ := List.cons_eq_cons.mp hmid
      exact (leads_link_iff hn hl).mp (hm (.name n :: mid) link post rfl dest hleads)
  · cases mid with
    | nil =>
      obtain ⟨hlink, -⟩ := List.cons_eq_cons.mp hmid
      cases hlink
      rw [List.append_nil] at hnames
      rw [← hnames, filterMap_name?_names]
      exact (linkLeads_iff hl).mp hleads
    | cons item mid =>
      obtain ⟨rfl, -⟩ := List.cons_eq_cons.mp hmid
      exact marked_names _ _ pre link mid hnames dest hleads

/-! ### The search follows the file system -/

/-- Where names lead, the search gets to as well and goes on from there, unless it refuses them
for a reason other than that something is missing. -/
theorem resolve_append_of_leads {pending : List Pending} (tail : List Pending)
    (hk : Recalls t.Settles known) (hm : t.Marked loc pending)
    (h : t.Leads loc (pending.filterMap Pending.name?) dest) :
    (∃ fresh' known', Recalls t.Settles known' ∧
      t.resolve fresh known loc (pending ++ tail) = t.resolve fresh' known' dest tail) ∨
    ∃ e, t.resolve fresh known loc (pending ++ tail) = .error e ∧ ¬ e.IsMissing := by
  fun_induction t.resolve fresh known loc pending with
  | case1 fresh known loc =>
    rw [leads_nil_iff.mp h]
    exact .inl ⟨fresh, known, hk, rfl⟩
  | case2 fresh known loc link rest ih =>
    rw [List.cons_append, resolve]
    exact ih (hk.cons hm.settles) hm.tail h
  | case3 fresh known loc n rest hn ih =>
    have hn := Path.isStay_iff.mp hn
    obtain ⟨hd, h⟩ := (leads_stay_iff hn).mp h
    rw [List.cons_append, resolve_stay hn]
    exact ih hk (hm.step fun _ _ h => ((leads_stay_iff hn).mp h).2) h
  | case4 fresh known loc rest _ ih =>
    obtain ⟨hd, h⟩ := leads_up_iff.mp h
    rw [List.cons_append, resolve_up]
    exact ih hk (hm.step fun _ _ h => (leads_up_iff.mp h).2) h
  | case5 fresh known loc n rest hs hu err hi =>
    have hn : IsPlain n := ⟨mt Path.isStay_iff.mpr hs, hu⟩
    obtain ⟨e, hl⟩ := Leads.lookup_ok hn h
    rw [List.cons_append, resolve_error hn hi]
    refine .inr ⟨err, rfl, fun hmiss => ?_⟩
    rw [lookup_of_inspect_missing hi hmiss] at hl
    cases hl
  | case6 fresh known loc n rest hs hu target hi link next hknown ih =>
    have hn : IsPlain n := ⟨mt Path.isStay_iff.mpr hs, hu⟩
    have hl := (inspect_eq_ok_iff.mp hi).2.2
    rw [List.cons_append, resolve_link hn hi, hknown]
    exact ih hk (hm.step fun _ _ => hk.leads hn hl hknown) (hk.leads hn hl hknown h)
  | case7 fresh known loc n rest hs hu target hi link hknown hfresh ih =>
    have hn : IsPlain n := ⟨mt Path.isStay_iff.mpr hs, hu⟩
    have hl := (inspect_eq_ok_iff.mp hi).2.2
    rw [List.cons_append, resolve_link hn hi, hknown]
    rw [List.append_assoc, List.cons_append] at ih
    -- the names of the target come before the rest, and lead to the same place with it
    have hopen : t.Leads (origin loc target)
        (((Path.names target).map Pending.name ++ Pending.resolved link :: rest).filterMap
          Pending.name?) dest := by
      rw [List.filterMap_append, filterMap_name?_names]
      exact (leads_link_iff hn hl).mp h
    have hmem : loc ++ [n] ∈ fresh := hfresh
    simp only [if_pos hmem]
    exact ih hk (hm.follow hn hl) hopen
  | case8 fresh known loc n rest hs hu target hi link hknown hfresh =>
    have hn : IsPlain n := ⟨mt Path.isStay_iff.mpr hs, hu⟩
    rw [List.cons_append, resolve_link hn hi, hknown]
    -- the link is met while it is being followed: a circle is no missing name
    refine .inr ⟨_, if_neg hfresh, ?_⟩
    rintro ⟨path, hpath⟩
    cases hpath
  | case9 fresh known loc n rest hs hu e he hi ih =>
    have hn : IsPlain n := ⟨mt Path.isStay_iff.mpr hs, hu⟩
    have hl := (inspect_eq_ok_iff.mp hi).2.2
    rw [List.cons_append, resolve_enter hn hi he]
    exact ih hk (hm.step fun _ _ => (leads_entry_iff hn hl he).mp) ((leads_entry_iff hn hl he).mp h)

private theorem resolveAll_append_of_leads {names : List Text} (tail : List Text)
    (h : t.Leads [] names dest) :
    (∃ fresh known, t.resolveAll (names ++ tail) = t.resolve fresh known dest (tail.map .name)) ∨
      ∃ e, t.resolveAll (names ++ tail) = .error e ∧ ¬ e.IsMissing := by
  rw [← filterMap_name?_names names] at h
  rw [resolveAll, List.map_append]
  refine (resolve_append_of_leads _ recalls_nil (marked_names [] names) h).imp_left ?_
  rintro ⟨fresh, known, -, hresolve⟩
  exact ⟨fresh, known, hresolve⟩

/-! ### What holds of every search -/

/-- A property of locations that holds at the root, and that every step of the search keeps,
holds where the search ends; and the search fails only as a single look-up fails, or in a
circle. Names on the way have the property `Q`. -/
theorem resolve_induction {P : Location → Prop} {Q : Text → Prop}
    {S : Except PathError Location → Prop} {pending : List Pending}
    (hlink : ∀ l n s, t.lookup l n = .ok (.link s) → ∀ m ∈ Path.names s, Q m)
    (hroot : P []) (hup : ∀ l, P l → P l.up)
    (henter : ∀ l n e, P l → Q n → IsPlain n → t.inspect l n = .ok e → (∀ s, e ≠ .link s) →
      P (l ++ [n]))
    (hdone : ∀ l, P l → S (.ok l))
    (hfail : ∀ l n e, Q n → t.inspect l n = .error e → S (.error e))
    (hcircle : ∀ path, S (.error (.refused .tooManyLinks path)))
    (hk : Recalls (fun _ d => P d) known) (hq : ∀ n, .name n ∈ pending → Q n) (hp : P loc) :
    S (t.resolve fresh known loc pending) := by
  have names_rest : ∀ {item : Pending} {rest : List Pending},
      (∀ n, .name n ∈ item :: rest → Q n) → ∀ n, .name n ∈ rest → Q n :=
    fun h n hn => h n (List.mem_cons_of_mem _ hn)
  fun_induction t.resolve fresh known loc pending with
  | case1 fresh known loc => exact hdone loc hp
  | case2 fresh known loc link rest ih => exact ih (hk.cons hp) (names_rest hq) hp
  | case3 fresh known loc n rest hn ih => exact ih hk (names_rest hq) hp
  | case4 fresh known loc rest _ ih => exact ih hk (names_rest hq) (hup loc hp)
  | case5 fresh known loc n rest hs hu e hi => exact hfail loc n e (hq n List.mem_cons_self) hi
  | case6 fresh known loc n rest hs hu target hi link next hknown ih =>
    exact ih hk (names_rest hq) (hk _ _ hknown)
  | case7 fresh known loc n rest hs hu target hi link hknown hfresh ih =>
    refine ih hk ?_ (by split <;> assumption)
    intro m hm
    rcases List.mem_append.mp hm with hm | hm
    · obtain ⟨m', hm', hname⟩ := List.mem_map.mp hm
      cases hname
      exact hlink loc n target (inspect_eq_ok_iff.mp hi).2.2 m hm'
    · exact hq m (List.mem_cons_of_mem _ (by simpa using hm))
  | case8 => exact hcircle _
  | case9 fresh known loc n rest hs hu e he hi ih =>
    exact ih hk (names_rest hq)
      (henter loc n e hp (hq n List.mem_cons_self) ⟨mt Path.isStay_iff.mpr hs, hu⟩ hi he)

/-- Names that are resolved are resolved also when more names follow them. -/
theorem resolve_append_of_ok {pending : List Pending} (tail : List Pending)
    (hk : Recalls t.Settles known) (hm : t.Marked loc pending)
    (h : t.resolve fresh known loc pending = .ok dest) :
    ∃ fresh' known', Recalls t.Settles known' ∧
      t.resolve fresh known loc (pending ++ tail) = t.resolve fresh' known' dest tail := by
  fun_induction t.resolve fresh known loc pending with
  | case1 fresh known loc =>
    cases h
    exact ⟨fresh, known, hk, rfl⟩
  | case2 fresh known loc link rest ih =>
    rw [List.cons_append, resolve]
    exact ih (hk.cons hm.settles) hm.tail h
  | case3 fresh known loc n rest hn ih =>
    have hn := Path.isStay_iff.mp hn
    rw [List.cons_append, resolve_stay hn]
    exact ih hk (hm.step fun _ _ h => ((leads_stay_iff hn).mp h).2) h
  | case4 fresh known loc rest _ ih =>
    rw [List.cons_append, resolve_up]
    exact ih hk (hm.step fun _ _ h => (leads_up_iff.mp h).2) h
  | case5 | case8 => cases h
  | case6 fresh known loc n rest hs hu target hi link next hknown ih =>
    have hn : IsPlain n := ⟨mt Path.isStay_iff.mpr hs, hu⟩
    have hl := (inspect_eq_ok_iff.mp hi).2.2
    rw [List.cons_append, resolve_link hn hi, hknown]
    exact ih hk (hm.step fun _ _ => hk.leads hn hl hknown) h
  | case7 fresh known loc n rest hs hu target hi link hknown hfresh ih =>
    have hn : IsPlain n := ⟨mt Path.isStay_iff.mpr hs, hu⟩
    have hl := (inspect_eq_ok_iff.mp hi).2.2
    have hmem : loc ++ [n] ∈ fresh := hfresh
    rw [List.cons_append, resolve_link hn hi, hknown]
    simp only [if_pos hmem]
    rw [List.append_assoc, List.cons_append] at ih
    exact ih hk (hm.follow hn hl) h
  | case9 fresh known loc n rest hs hu e he hi ih =>
    have hn : IsPlain n := ⟨mt Path.isStay_iff.mpr hs, hu⟩
    have hl := (inspect_eq_ok_iff.mp hi).2.2
    rw [List.cons_append, resolve_enter hn hi he]
    exact ih hk (hm.step fun _ _ => (leads_entry_iff hn hl he).mp) h

theorem resolveAll_append_of_ok {names : List Text} (tail : List Text)
    (h : t.resolveAll names = .ok dest) :
    ∃ fresh known, Recalls t.Settles known ∧
      t.resolveAll (names ++ tail) = t.resolve fresh known dest (tail.map .name) := by
  rw [resolveAll, List.map_append]
  exact resolve_append_of_ok _ recalls_nil (marked_names [] names) h

/-! ### The longest beginning that exists -/

/-- A canonical location comes of resolving all names, or else of giving up the last one. -/
theorem canonicalFrom_cases {names missing : List Text} {c : Location}
    (h : t.canonicalFrom names missing = .ok c) :
    (∃ loc, t.resolveAll names = .ok loc ∧ c = loc ++ missing) ∨
      ∃ init n e, names = init ++ [n] ∧ t.resolveAll names = .error e ∧ e.IsMissing ∧
        t.canonicalFrom init (n :: missing) = .ok c := by
  rw [canonicalFrom] at h
  cases hr : t.resolveAll names with
  | ok loc =>
    rw [hr] at h
    cases h
    exact .inl ⟨loc, rfl, rfl⟩
  | error e =>
    rw [hr] at h
    split at h
    · next heq => cases heq
    · next path heq =>
      cases heq
      split at h
      · cases h
      · next hne =>
        exact .inr ⟨names.dropLast, names.getLast hne, _, (List.dropLast_concat_getLast hne).symm,
          rfl, ⟨path, rfl⟩, h⟩
    · cases h

/-- The canonical location of names that lead somewhere is where they lead. -/
theorem canonicalFrom_of_leads {names missing : List Text} {c : Location}
    (h : t.Leads [] names dest) (hc : t.canonicalFrom names missing = .ok c) :
    c = dest ++ missing := by
  have hall := resolveAll_append_of_leads [] h
  rw [List.append_nil] at hall
  rcases canonicalFrom_cases hc with ⟨loc, hr, rfl⟩ | ⟨_, _, e, _, hr, hmiss, _⟩
  · rw [hr] at hall
    rcases hall with ⟨fresh, known, hloc⟩ | ⟨e, he, -⟩
    · rw [List.map_nil, resolve] at hloc
      cases hloc
      rfl
    · cases he
  · rw [hr] at hall
    rcases hall with ⟨fresh, known, hloc⟩ | ⟨e', he, hne⟩
    · rw [List.map_nil, resolve] at hloc
      cases hloc
    · cases he
      exact absurd hmiss hne

/-- The canonical location of names that lead to a directory, and of a name behind them that is
not found there, is that name in that directory. -/
theorem canonicalFrom_of_vacant {names missing : List Text} {c : Location}
    (h : t.Leads [] names dest) (hn : IsPlain n) (hl : t.lookup dest n = .error .notFound)
    (hc : t.canonicalFrom (names ++ [n]) missing = .ok c) : c = dest ++ n :: missing := by
  obtain ⟨e, hi⟩ : ∃ e, t.inspect dest n = .error e := by
    cases hi : t.inspect dest n with
    | error e => exact ⟨e, rfl⟩
    | ok e =>
      rw [(inspect_eq_ok_iff.mp hi).2.2] at hl
      cases hl
  rcases canonicalFrom_cases hc with ⟨loc, hr, rfl⟩ | ⟨init, m, _, happ, _, _, hc'⟩
  · rcases resolveAll_append_of_leads [n] h with ⟨fresh, known, hloc⟩ | ⟨e', he, -⟩
    · rw [List.map_cons, resolve_error hn hi, hr] at hloc
      cases hloc
    · rw [hr] at he
      cases he
  · obtain ⟨rfl, hm⟩ := List.append_inj' happ rfl
    obtain rfl := List.singleton_inj.mp hm
    exact canonicalFrom_of_leads h hc'

/-- A canonical location is that of a beginning that is resolved, and the names behind it; the
first of these is missing. -/
theorem canonicalFrom_split {names missing : List Text} {c : Location}
    (h : t.canonicalFrom names missing = .ok c) :
    ∃ init rest loc, names = init ++ rest ∧ t.resolveAll init = .ok loc ∧
      c = loc ++ (rest ++ missing) ∧
      ∀ m rest', rest = m :: rest' → ∃ e, t.resolveAll (init ++ [m]) = .error e ∧ e.IsMissing := by
  induction names using List.reverseRecOn generalizing missing with
  | nil =>
    rcases canonicalFrom_cases h with ⟨loc, hr, rfl⟩ | ⟨init, n, _, hnil, _⟩
    · exact ⟨[], [], loc, rfl, hr, rfl, fun _ _ => nofun⟩
    · simp at hnil
  | append_singleton names n ih =>
    rcases canonicalFrom_cases h with ⟨loc, hr, rfl⟩ | ⟨init, m, e, happ, hr, hmiss, hc⟩
    · exact ⟨names ++ [n], [], loc, (List.append_nil _).symm, hr, rfl, fun _ _ => nofun⟩
    · obtain ⟨rfl, hm⟩ := List.append_inj' happ rfl
      obtain rfl := List.singleton_inj.mp hm
      obtain ⟨init, rest, loc, rfl, hloc, rfl, hfirst⟩ := ih hc
      refine ⟨init, rest ++ [n], loc, List.append_assoc _ _ _, hloc, by simp, ?_⟩
      intro m rest' hrest
      cases rest with
      | nil =>
        obtain ⟨rfl, -⟩ := List.cons_eq_cons.mp hrest
        rw [List.append_nil] at hr
        exact ⟨e, hr, hmiss⟩
      | cons m' rest =>
        obtain ⟨rfl, -⟩ := List.cons_eq_cons.mp hrest
        exact hfirst m' rest rfl

/-- A canonical location is refused for what resolving a beginning of the names is refused for. -/
theorem canonicalFrom_error {names missing : List Text} {e : PathError}
    (h : t.canonicalFrom names missing = .error e) :
    ∃ init, init <+: names ∧ t.resolveAll init = .error e := by
  induction names using List.reverseRecOn generalizing missing with
  | nil =>
    rw [canonicalFrom, resolveAll, List.map_nil, resolve] at h
    cases h
  | append_singleton names n ih =>
    rw [canonicalFrom] at h
    split at h
    · cases h
    · next path hr =>
      rw [dif_neg (by simp), List.dropLast_concat] at h
      obtain ⟨init, hinit, hr'⟩ := ih h
      exact ⟨init, hinit.trans (List.prefix_append _ _), hr'⟩
    · next e' _ hr =>
      cases h
      exact ⟨_, List.prefix_rfl, hr⟩

end FileTree

end ServerPages
