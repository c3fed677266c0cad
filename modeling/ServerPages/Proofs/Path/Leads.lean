import Mathlib.Data.List.Basic
import ServerPages.Proofs.Path.Tree

/-!
# Where names lead

`FileTree.Leads` is the file system's own reading of a list of names, as a relation: each name is
looked up where the names before it have led, a link is followed before the next name, and a
double dot leaves the directory that has been reached. It has no bound on the number of links,
so it can be compared with both the walk of the file system and the search for a canonical
form.

What a walk reaches, the names lead to (`Walks.leads`), and where they lead is unique
(`Leads.unique`).
-/

namespace ServerPages

namespace FileTree

open ServerPages.Path (IsStay IsPlain)

/-- Where the target of a link that stands in the directory `dir` is seen from. -/
def origin (dir : Location) (target : Text) : Location :=
  if Path.isAbsolute target then [] else dir

/-- `t.Leads loc names dest`: from the location `loc`, the names lead to the location `dest`. -/
inductive Leads (t : FileTree) : Location → List Text → Location → Prop
  | here (loc : Location) : Leads t loc [] loc
  | stay {loc dest : Location} {n : Text} {rest : List Text} (hd : t.get? loc = some .directory)
      (hn : IsStay n) (h : Leads t loc rest dest) : Leads t loc (n :: rest) dest
  | up {loc dest : Location} {rest : List Text} (hd : t.get? loc = some .directory)
      (h : Leads t loc.up rest dest) : Leads t loc (Path.up :: rest) dest
  | follow {loc dest : Location} {n target : Text} {rest : List Text} (hn : IsPlain n)
      (hl : t.lookup loc n = .ok (.link target))
      (h : Leads t (origin loc target) (Path.names target ++ rest) dest) :
      Leads t loc (n :: rest) dest
  | enter {loc dest : Location} {n : Text} {rest : List Text} {e : Entry} (hn : IsPlain n)
      (hl : t.lookup loc n = .ok e) (he : ∀ s, e ≠ .link s)
      (h : Leads t (loc ++ [n]) rest dest) : Leads t loc (n :: rest) dest

variable {t : FileTree} {loc dest : Location} {n : Text} {rest : List Text}

theorem directory_ne_link (target : Text) : Entry.directory ≠ .link target := by
  intro h
  cases h

theorem file_ne_link (content : Bytes) (target : Text) : Entry.file content ≠ .link target := by
  intro h
  cases h

/-! ### Inversion -/

theorem leads_nil_iff : t.Leads loc [] dest ↔ dest = loc := by
  constructor
  · rintro ⟨⟩
    rfl
  · rintro rfl
    exact .here _

theorem leads_stay_iff (hn : IsStay n) :
    t.Leads loc (n :: rest) dest ↔ t.get? loc = some .directory ∧ t.Leads loc rest dest := by
  constructor
  · intro h
    cases h with
    | stay hd _ h => exact ⟨hd, h⟩
    | up => exact absurd hn Path.not_isStay_up
    | follow hp => exact absurd hn hp.1
    | enter hp => exact absurd hn hp.1
  · rintro ⟨hd, h⟩
    exact .stay hd hn h

theorem leads_up_iff :
    t.Leads loc (Path.up :: rest) dest ↔
      t.get? loc = some .directory ∧ t.Leads loc.up rest dest := by
  constructor
  · intro h
    cases h with
    | stay _ hn => exact absurd hn Path.not_isStay_up
    | up hd h => exact ⟨hd, h⟩
    | follow hp => exact absurd rfl hp.2
    | enter hp => exact absurd rfl hp.2
  · rintro ⟨hd, h⟩
    exact .up hd h

theorem leads_link_iff (hn : IsPlain n) {target : Text}
    (hl : t.lookup loc n = .ok (.link target)) :
    t.Leads loc (n :: rest) dest ↔
      t.Leads (origin loc target) (Path.names target ++ rest) dest := by
  constructor
  · intro h
    cases h with
    | stay _ hs => exact absurd hs hn.1
    | up => exact absurd rfl hn.2
    | follow _ hl' h =>
      rw [hl] at hl'
      cases hl'
      exact h
    | enter _ hl' he =>
      rw [hl] at hl'
      cases hl'
      exact absurd rfl (he target)
  · exact .follow hn hl

theorem leads_entry_iff (hn : IsPlain n) {e : Entry} (hl : t.lookup loc n = .ok e)
    (he : ∀ s, e ≠ .link s) :
    t.Leads loc (n :: rest) dest ↔ t.Leads (loc ++ [n]) rest dest := by
  constructor
  · intro h
    cases h with
    | stay _ hs => exact absurd hs hn.1
    | up => exact absurd rfl hn.2
    | follow _ hl' =>
      rw [hl] at hl'
      cases hl'
      exact absurd rfl (he _)
    | enter _ _ _ h => exact h
  · exact .enter hn hl he

/-- A plain name that leads anywhere is found. -/
theorem Leads.lookup_ok (hn : IsPlain n) (h : t.Leads loc (n :: rest) dest) :
    ∃ e, t.lookup loc n = .ok e := by
  cases h with
  | stay _ hs => exact absurd hs hn.1
  | up => exact absurd rfl hn.2
  | follow _ hl => exact ⟨_, hl⟩
  | enter _ hl => exact ⟨_, hl⟩

/-! ### Composition and uniqueness -/

/-- Names lead on from where the names before them have led. -/
theorem leads_append_iff {a b : List Text} :
    t.Leads loc (a ++ b) dest ↔ ∃ mid, t.Leads loc a mid ∧ t.Leads mid b dest := by
  constructor
  · intro h
    -- by induction on how the names lead, for every place at which they can be parted
    generalize hc : a ++ b = c at h
    induction h generalizing a with
    | here loc =>
      obtain ⟨rfl, rfl⟩ := List.append_eq_nil_iff.mp hc
      exact ⟨loc, .here loc, .here loc⟩
    | @stay loc dest n rest hd hn h ih =>
      rcases List.append_eq_cons_iff.mp hc with ⟨rfl, rfl⟩ | ⟨a, rfl, rfl⟩
      · exact ⟨loc, .here loc, .stay hd hn h⟩
      · obtain ⟨mid, ha, hb⟩ := ih rfl
        exact ⟨mid, .stay hd hn ha, hb⟩
    | @up loc dest rest hd h ih =>
      rcases List.append_eq_cons_iff.mp hc with ⟨rfl, rfl⟩ | ⟨a, rfl, rfl⟩
      · exact ⟨loc, .here loc, .up hd h⟩
      · obtain ⟨mid, ha, hb⟩ := ih rfl
        exact ⟨mid, .up hd ha, hb⟩
    | @follow loc dest n target rest hn hl h ih =>
      rcases List.append_eq_cons_iff.mp hc with ⟨rfl, rfl⟩ | ⟨a, rfl, rfl⟩
      · exact ⟨loc, .here loc, .follow hn hl h⟩
      · obtain ⟨mid, ha, hb⟩ := ih (List.append_assoc _ _ _)
        exact ⟨mid, .follow hn hl ha, hb⟩
    | @enter loc dest n rest e hn hl he h ih =>
      rcases List.append_eq_cons_iff.mp hc with ⟨rfl, rfl⟩ | ⟨a, rfl, rfl⟩
      · exact ⟨loc, .here loc, .enter hn hl he h⟩
      · obtain ⟨mid, ha, hb⟩ := ih rfl
        exact ⟨mid, .enter hn hl he ha, hb⟩
  · rintro ⟨mid, ha, hb⟩
    induction ha with
    | here => exact hb
    | stay hd hn _ ih => exact .stay hd hn (ih hb)
    | up hd _ ih => exact .up hd (ih hb)
    | follow hn hl _ ih =>
      have h := ih hb
      rw [List.append_assoc] at h
      exact .follow hn hl h
    | enter hn hl he _ ih => exact .enter hn hl he (ih hb)

/-- Names lead to one place only. -/
theorem Leads.unique {names : List Text} {dest' : Location} (h : t.Leads loc names dest)
    (h' : t.Leads loc names dest') : dest = dest' := by
  induction h with
  | here => exact (leads_nil_iff.mp h').symm
  | stay _ hn _ ih => exact ih ((leads_stay_iff hn).mp h').2
  | up _ _ ih => exact ih (leads_up_iff.mp h').2
  | follow hn hl _ ih => exact ih ((leads_link_iff hn hl).mp h')
  | enter hn hl he _ ih => exact ih ((leads_entry_iff hn hl he).mp h')

/-! ### Walks -/

/-- What a walk that ends well has done, step by step; the number of links followed is left out. -/
inductive Walks (t : FileTree) (follow : Bool) : Location → List Text → Reached → Prop
  | here {loc : Location} {e : Entry} (he : t.get? loc = some e) :
      Walks t follow loc [] (.entry loc e)
  | stay {loc : Location} {n : Text} {rest : List Text} {r : Reached}
      (hd : t.get? loc = some .directory) (hn : IsStay n) (h : Walks t follow loc rest r) :
      Walks t follow loc (n :: rest) r
  | up {loc : Location} {rest : List Text} {r : Reached} (hd : t.get? loc = some .directory)
      (h : Walks t follow loc.up rest r) : Walks t follow loc (Path.up :: rest) r
  | vacant {loc : Location} {n : Text} {rest : List Text} (hn : IsPlain n)
      (hl : t.lookup loc n = .error .notFound) (hr : ∀ m ∈ rest, m = []) :
      Walks t follow loc (n :: rest) (.vacant (loc ++ [n]) !rest.isEmpty)
  | stop {loc : Location} {n target : Text} (hn : IsPlain n)
      (hl : t.lookup loc n = .ok (.link target)) (hf : follow = false) :
      Walks t follow loc [n] (.entry (loc ++ [n]) (.link target))
  | follow {loc : Location} {n target : Text} {rest : List Text} {r : Reached} (hn : IsPlain n)
      (hl : t.lookup loc n = .ok (.link target)) (hf : rest ≠ [] ∨ follow = true)
      (h : Walks t follow (origin loc target) (Path.names target ++ rest) r) :
      Walks t follow loc (n :: rest) r
  | enter {loc : Location} {n : Text} {rest : List Text} {e : Entry} {r : Reached}
      (hn : IsPlain n) (hl : t.lookup loc n = .ok e) (he : ∀ s, e ≠ .link s)
      (h : Walks t follow (loc ++ [n]) rest r) : Walks t follow loc (n :: rest) r

variable {follow : Bool} {links : Nat} {names : List Text} {r : Reached}

theorem walk_nil {e : Entry} (h : t.get? loc = some e) :
    t.walk follow links loc [] = .ok (.entry loc e) := by
  rw [walk, h]

theorem walk_stay (hd : t.get? loc = some .directory) (hn : IsStay n) :
    t.walk follow links loc (n :: rest) = t.walk follow links loc rest := by
  rw [walk, if_neg (not_not.mpr hd), if_pos (Path.isStay_iff.mpr hn)]

private theorem walk_up (hd : t.get? loc = some .directory) :
    t.walk follow links loc (Path.up :: rest) = t.walk follow links loc.up rest := by
  rw [walk, if_neg (not_not.mpr hd), if_neg (mt Path.isStay_iff.mp Path.not_isStay_up),
    if_pos rfl]

/-- A walk looks a plain name up and goes on from what it finds. -/
theorem walk_plain (hd : t.get? loc = some .directory) (hn : IsPlain n) :
    t.walk follow links loc (n :: rest) = match t.lookup loc n with
      | .error .notFound =>
        if rest.all (· = []) then .ok (.vacant (loc ++ [n]) !rest.isEmpty) else .error .notFound
      | .error e => .error e
      | .ok (.link target) =>
        if rest.isEmpty && !follow then .ok (.entry (loc ++ [n]) (.link target))
        else match links with
          | 0 => .error .tooManyLinks
          | links + 1 => t.walk follow links (origin loc target) (Path.names target ++ rest)
      | .ok _ => t.walk follow links (loc ++ [n]) rest := by
  rw [walk, if_neg (not_not.mpr hd), if_neg (mt Path.isStay_iff.mp hn.1), if_neg hn.2]
  rfl

theorem walks_of_walk (h : t.walk follow links loc names = .ok r) : t.Walks follow loc names r := by
  fun_induction t.walk follow links loc names with
  | case1 links loc e he =>
    cases h
    exact .here he
  | case2 | case3 | case7 | case8 | case10 => cases h
  | case4 links loc n rest hd hn ih => exact .stay (not_not.mp hd) (Path.isStay_iff.mp hn) (ih h)
  | case5 links loc rest hd hn ih => exact .up (not_not.mp hd) (ih h)
  | case6 links loc n rest hd hs hu hl hr =>
    cases h
    exact .vacant ⟨mt Path.isStay_iff.mpr hs, hu⟩ hl (by simpa using hr)
  | case9 links loc n rest hd hs hu target hl hf =>
    cases h
    obtain ⟨hr, hf⟩ := Bool.and_eq_true_iff.mp hf
    obtain rfl := List.isEmpty_iff.mp hr
    exact .stop ⟨mt Path.isStay_iff.mpr hs, hu⟩ hl (by simpa using hf)
  | case11 loc n rest hd hs hu target hl hf links ih =>
    refine .follow ⟨mt Path.isStay_iff.mpr hs, hu⟩ hl ?_ (ih h)
    by_cases hr : rest = []
    · exact .inr (by simpa [hr] using hf)
    · exact .inl hr
  | case12 links loc n rest hd hs hu e he hl ih =>
    exact .enter ⟨mt Path.isStay_iff.mpr hs, hu⟩ hl (fun s hs => he s hs) (ih h)

/-- Where a walk finds a file or a directory, there the names lead. -/
theorem Walks.leads {e : Entry} (h : t.Walks follow loc names (.entry dest e))
    (he : ∀ s, e ≠ .link s) : t.Leads loc names dest ∧ t.get? dest = some e := by
  generalize hr : Reached.entry dest e = r at h
  induction h with
  | here he' =>
    cases hr
    exact ⟨.here _, he'⟩
  | stay hd hn _ ih => exact (ih hr).imp_left (.stay hd hn)
  | up hd _ ih => exact (ih hr).imp_left (.up hd)
  | vacant => cases hr
  | stop =>
    cases hr
    exact absurd rfl (he _)
  | follow hn hl _ _ ih => exact (ih hr).imp_left (.follow hn hl)
  | enter hn hl he' _ ih => exact (ih hr).imp_left (.enter hn hl he')

/-- A walk that does not follow a last link finds a free name only where the last of the names
is looked up. -/
theorem Walks.vacant_last (h : t.Walks false loc names (.vacant dest false)) :
    ∃ pre n mid, names = pre ++ [n] ∧ t.Leads loc pre mid ∧ IsPlain n ∧
      t.lookup mid n = .error .notFound ∧ dest = mid ++ [n] := by
  generalize hr : Reached.vacant dest false = r at h
  induction h with
  | here | stop => cases hr
  | stay hd hn _ ih =>
    obtain ⟨pre, n, mid, rfl, hpre, hrest⟩ := ih hr
    exact ⟨_ :: pre, n, mid, rfl, .stay hd hn hpre, hrest⟩
  | up hd _ ih =>
    obtain ⟨pre, n, mid, rfl, hpre, hrest⟩ := ih hr
    exact ⟨_ :: pre, n, mid, rfl, .up hd hpre, hrest⟩
  | @vacant loc n rest hn hl _ =>
    obtain ⟨rfl, hempty⟩ := Reached.vacant.inj hr
    obtain rfl : rest = [] := by simpa using hempty.symm
    exact ⟨[], n, loc, rfl, .here loc, hn, hl, rfl⟩
  | @follow loc n target rest r hn hl hf _ ih =>
    obtain ⟨pre, m, mid, happ, hpre, hrest⟩ := ih hr
    have hne : rest ≠ [] := hf.resolve_right (by simp)
    -- the last name stands behind the target of the link, not in it
    obtain rfl | ⟨rest', m', rfl⟩ := List.eq_nil_or_concat' rest
    · exact absurd rfl hne
    rw [← List.append_assoc] at happ
    obtain ⟨rfl, hm⟩ := List.append_inj' happ rfl
    obtain rfl := List.singleton_inj.mp hm
    exact ⟨n :: rest', _, mid, rfl, .follow hn hl hpre, hrest⟩
  | enter hn hl he _ ih =>
    obtain ⟨pre, m, mid, rfl, hpre, hrest⟩ := ih hr
    exact ⟨_ :: pre, m, mid, rfl, .enter hn hl he hpre, hrest⟩

/-- Whether a last link is followed matters only where a last link is found. -/
theorem walk_true_eq_or : t.walk true links loc names = t.walk false links loc names ∨
    ∃ l s, t.walk false links loc names = .ok (.entry l (.link s)) := by
  fun_induction t.walk true links loc names with
  | case1 links loc e he => exact .inl (walk_nil he).symm
  | case2 links loc he => exact .inl (by rw [walk, he])
  | case3 links loc n rest hd => exact .inl (by rw [walk, if_pos hd])
  | case4 links loc n rest hd hn ih =>
    rwa [walk_stay (not_not.mp hd) (Path.isStay_iff.mp hn)]
  | case5 links loc rest hd hn ih => rwa [walk_up (not_not.mp hd)]
  | case6 links loc n rest hd hs hu hl hr =>
    rw [walk_plain (not_not.mp hd) ⟨mt Path.isStay_iff.mpr hs, hu⟩, hl]
    exact .inl (if_pos hr).symm
  | case7 links loc n rest hd hs hu hl hr =>
    rw [walk_plain (not_not.mp hd) ⟨mt Path.isStay_iff.mpr hs, hu⟩, hl]
    exact .inl (if_neg hr).symm
  | case8 links loc n rest hd hs hu e he hl =>
    rw [walk_plain (not_not.mp hd) ⟨mt Path.isStay_iff.mpr hs, hu⟩, hl]
    cases e with
    | notFound => exact absurd rfl he
    | _ => exact .inl rfl
  | case9 links loc n rest hd hs hu target hl hf => simp at hf
  | case10 loc n rest hd hs hu target hl hf =>
    rw [walk_plain (not_not.mp hd) ⟨mt Path.isStay_iff.mpr hs, hu⟩, hl]
    cases rest with
    | nil => exact .inr ⟨_, _, rfl⟩
    | cons => exact .inl rfl
  | case11 loc n rest hd hs hu target hl hf links ih =>
    rw [walk_plain (not_not.mp hd) ⟨mt Path.isStay_iff.mpr hs, hu⟩, hl]
    cases rest with
    | nil => exact .inr ⟨_, _, rfl⟩
    | cons => exact ih
  | case12 links loc n rest hd hs hu e he hl ih =>
    rw [walk_plain (not_not.mp hd) ⟨mt Path.isStay_iff.mpr hs, hu⟩, hl]
    cases e with
    | link s => exact absurd rfl (he s)
    | _ => exact ih

end FileTree

end ServerPages
