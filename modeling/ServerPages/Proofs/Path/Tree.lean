import Mathlib.Data.List.Induction
import ServerPages.Path.Guarded
import ServerPages.Proofs.Path.Names

/-!
# Trees and locations

What makes a file tree a tree: every entry has a proper name and stands in a directory
(`FileTree.IsTree`). Then whatever stands above an entry is a directory
(`FileTree.IsTree.get?_of_prefix`), and the paths of locations can be compared as texts
(`Location.within_path_iff`).
-/

namespace ServerPages

/-- A name that an entry can have. -/
structure IsName (n : Text) : Prop where
  plain : Path.IsPlain n
  slash : '/' ∉ n
  null : '\x00' ∉ n
  short : (Utf8.encode n).length ≤ FileTree.nameLimit

instance (n : Text) : Decidable (IsName n) :=
  decidable_of_iff (Path.IsPlain n ∧ '/' ∉ n ∧ '\x00' ∉ n ∧
      (Utf8.encode n).length ≤ FileTree.nameLimit)
    ⟨fun ⟨hp, hs, hn, hl⟩ => ⟨hp, hs, hn, hl⟩, fun h => ⟨h.plain, h.slash, h.null, h.short⟩⟩

/-- A file tree in which every entry has a proper name and stands in a directory, and no link
points to a path with a null character. -/
structure FileTree.IsTree (t : FileTree) : Prop where
  ne_root : ∀ p ∈ t.entries, p.1 ≠ []
  name : ∀ p ∈ t.entries, ∀ n ∈ p.1, IsName n
  parent : ∀ p ∈ t.entries, t.get? (Location.up p.1) = some .directory
  target : ∀ p ∈ t.entries, ∀ s, p.2 = .link s → '\x00' ∉ s

/-- The path that a link holds. -/
def Entry.target? : Entry → Option Text
  | .link s => some s
  | _ => none

instance (t : FileTree) : Decidable t.IsTree :=
  decidable_of_iff ((∀ p ∈ t.entries, p.1 ≠ []) ∧ (∀ p ∈ t.entries, ∀ n ∈ p.1, IsName n) ∧
      (∀ p ∈ t.entries, t.get? (Location.up p.1) = some .directory) ∧
      ∀ p ∈ t.entries, ∀ s ∈ p.2.target?, '\x00' ∉ s)
    ⟨fun ⟨hr, hn, hp, ht⟩ => ⟨hr, hn, hp, fun p hp s hs => ht p hp s (hs ▸ rfl)⟩,
      fun h => ⟨h.ne_root, h.name, h.parent, fun p hp s hs => h.target p hp s (by
        cases he : p.2 <;> simp_all [Entry.target?])⟩⟩

/-! ### The paths of locations -/

namespace Location

/-- A location whose names can be told apart in a path. -/
def Legible (loc : Location) : Prop := ∀ n ∈ loc, n ≠ [] ∧ '/' ∉ n

theorem Legible.of_prefix {p c : Location} (hc : Legible c) (h : p <+: c) : Legible p :=
  fun n hn => hc n (h.subset hn)

theorem Legible.append {p q : Location} (hp : Legible p) (hq : Legible q) : Legible (p ++ q) :=
  fun n hn => (List.mem_append.mp hn).elim (hp n) (hq n)

/-- What lies above a location lies at or above the location that holds it. -/
theorem prefix_up {p c : Location} (h : p <+: c) (hne : p ≠ c) : p <+: c.up := by
  have hlt := Nat.lt_of_le_of_ne h.length_le (mt h.eq_of_length hne)
  refine List.prefix_of_prefix_length_le h (List.dropLast_prefix c) ?_
  rw [up, List.length_dropLast]
  omega

theorem path_nil : path [] = ['/'] := rfl

theorem path_of_ne_nil {loc : Location} (h : loc ≠ []) : loc.path = loc.flatMap ('/' :: ·) :=
  if_neg h

theorem path_append {p q : Location} (hp : p ≠ []) :
    path (p ++ q) = p.path ++ q.flatMap ('/' :: ·) := by
  have hne : p ++ q ≠ [] := fun h => hp (List.append_eq_nil_iff.mp h).1
  rw [path_of_ne_nil hne, path_of_ne_nil hp, List.flatMap_append]

/-- A location is the list of names in its path. -/
theorem names_path {loc : Location} (hne : loc ≠ []) (h : Legible loc) :
    Path.names loc.path = [] :: loc := by
  rw [path_of_ne_nil hne]
  clear hne
  induction loc with
  | nil => rfl
  | cons n rest ih =>
    have hn : Path.names n = [n] := Text.splitOn_of_not_mem (h n List.mem_cons_self).2
    rw [List.flatMap_cons, List.cons_append, Path.names_cons_slash]
    cases rest with
    | nil => rw [List.flatMap_nil, List.append_nil, hn]
    | cons m rest =>
      have hrest := ih fun k hk => h k (List.mem_cons_of_mem _ hk)
      rw [List.flatMap_cons, List.cons_append, Path.names_cons_slash] at hrest
      rw [List.flatMap_cons, List.cons_append, Path.names, Text.splitOn_append_cons,
        ← Path.names, hn, ← Path.names, List.tail_eq_of_cons_eq hrest]
      rfl

theorem path_ne_nil (loc : Location) : loc.path ≠ [] := by
  unfold path
  split
  · simp
  · next h =>
    obtain ⟨n, rest, rfl⟩ := List.exists_cons_of_ne_nil h
    simp

theorem isAbsolute_path (loc : Location) : Path.isAbsolute loc.path = true := by
  unfold path
  split
  · rfl
  · next h =>
    obtain ⟨n, rest, rfl⟩ := List.exists_cons_of_ne_nil h
    rfl

private theorem path_injective {p q : Location} (hp : Legible p) (hq : Legible q)
    (h : p.path = q.path) : p = q := by
  have root_only : ∀ {r : Location}, Legible r → r.path = path [] → r = [] := by
    intro r hr hpath
    by_contra hne
    have := names_path hne hr
    rw [hpath] at this
    exact (hr [] (List.tail_eq_of_cons_eq this ▸ List.mem_singleton_self _)).1 rfl
  by_cases hpn : p = []
  · subst hpn
    exact (root_only hq h.symm).symm
  · by_cases hqn : q = []
    · subst hqn
      exact root_only hp h
    · have hnames := names_path hpn hp
      rw [h, names_path hqn hq] at hnames
      exact (List.tail_eq_of_cons_eq hnames).symm

/-- One location lies in or below another one exactly if their paths say so. -/
theorem within_path_iff {p c : Location} (hp : Legible p) (hc : Legible c) :
    (p.path = ['/'] ∨ c.path = p.path ∨ p.path ++ ['/'] <+: c.path) ↔ p <+: c := by
  constructor
  · rintro (h | h | ⟨u, hu⟩)
    · rw [path_injective hp (fun _ hn => absurd hn List.not_mem_nil) h]
      exact List.nil_prefix
    · obtain rfl := path_injective hc hp h
      exact List.prefix_rfl
    · by_cases hpn : p = []
      · exact hpn ▸ List.nil_prefix
      · have hcn : c ≠ [] := by
          rintro rfl
          have hlen := congrArg List.length hu
          have hpos := List.length_pos_iff.mpr (path_ne_nil p)
          simp only [List.length_append, List.length_cons, List.length_nil, path_nil] at hlen
          omega
        have hnames := names_path hcn hc
        rw [← hu, List.append_assoc, List.singleton_append, Path.names, Text.splitOn_append_cons,
          ← Path.names, names_path hpn hp, List.cons_append] at hnames
        exact ⟨_, List.tail_eq_of_cons_eq hnames⟩
  · rintro ⟨q, rfl⟩
    by_cases hpn : p = []
    · exact .inl (hpn ▸ rfl)
    · rw [path_append hpn]
      cases q with
      | nil => exact .inr (.inl (List.append_nil _))
      | cons n q =>
        refine .inr (.inr ⟨n ++ q.flatMap ('/' :: ·), ?_⟩)
        simp

end Location

/-! ### What stands in a tree -/

namespace FileTree

variable {t : FileTree} {loc p : Location} {e : Entry}

theorem mem_entries_of_get? (hne : loc ≠ []) (h : t.get? loc = some e) : (loc, e) ∈ t.entries := by
  rw [get?, if_neg hne, Option.map_eq_some_iff] at h
  obtain ⟨⟨l, e'⟩, hfind, rfl⟩ := h
  have hl : l = loc := by simpa using List.find?_some hfind
  exact hl ▸ List.mem_of_find?_eq_some hfind

/-- A name is found in a directory exactly if an entry stands there. -/
theorem lookup_eq_ok_iff {dir : Location} {name : Text} :
    t.lookup dir name = .ok e ↔ t.get? dir = some .directory ∧
      (Utf8.encode name).length ≤ nameLimit ∧ t.get? (dir ++ [name]) = some e := by
  unfold lookup
  split
  · next h => simp [h]
  · next h =>
    split
    · next hl => simp [Nat.not_le.mpr hl]
    · next hl =>
      cases t.get? (dir ++ [name]) with
      | none => simp
      | some e' => simp [not_not.mp h, Nat.not_lt.mp hl]

theorem get?_put_of_ne {other : Location} (h : other ≠ loc) :
    (t.put loc e).get? other = t.get? other := by
  unfold get? put
  split
  · rfl
  · rw [List.find?_cons_of_neg (by simpa using Ne.symm h), List.find?_filter]
    congr 2
    funext q
    by_cases hq : q.1 = other
    · simp [hq, h]
    · simp [hq]

namespace IsTree

variable (ht : t.IsTree)
include ht

/-- What stands above an entry is a directory; the root stands above itself. -/
theorem get?_up (h : t.get? loc = some e) : t.get? loc.up = some .directory := by
  by_cases hne : loc = []
  · subst hne
    rfl
  · exact ht.parent _ (mem_entries_of_get? hne h)

theorem isName_of_get? (h : t.get? loc = some e) : ∀ n ∈ loc, IsName n := by
  intro n hn
  have hne : loc ≠ [] := List.ne_nil_of_mem hn
  exact ht.name _ (mem_entries_of_get? hne h) n hn

theorem legible_of_get? (h : t.get? loc = some e) : loc.Legible := fun n hn =>
  ⟨(ht.isName_of_get? h n hn).plain.ne_nil, (ht.isName_of_get? h n hn).slash⟩

/-- Everything on the way to an entry is a directory. -/
theorem get?_of_prefix (h : t.get? loc = some e) (hp : p <+: loc) (hne : p ≠ loc) :
    t.get? p = some .directory := by
  obtain ⟨q, rfl⟩ := hp
  induction q using List.reverseRecOn generalizing e with
  | nil => exact absurd (List.append_nil p).symm hne
  | append_singleton q n ih =>
    have hup := ht.get?_up h
    rw [← List.append_assoc, Location.up, List.dropLast_concat] at hup
    by_cases hq : p = p ++ q
    · rwa [← hq] at hup
    · exact ih hup hq

/-- Every location on the way to a directory is a directory. -/
theorem lookup_directory {n : Text} {rest : List Text}
    (h : t.get? (loc ++ [n] ++ rest) = some .directory) :
    t.get? loc = some .directory ∧ t.lookup loc n = .ok .directory := by
  have hd : t.get? loc = some .directory :=
    ht.get?_of_prefix h (by simp) (by simp)
  refine ⟨hd, lookup_eq_ok_iff.mpr ⟨hd, (ht.isName_of_get? h n (by simp)).short, ?_⟩⟩
  by_cases hrest : rest = []
  · simpa [hrest] using h
  · exact ht.get?_of_prefix h (List.prefix_append _ _) (by simp [hrest])

end IsTree

end FileTree

end ServerPages
