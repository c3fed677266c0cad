import Mathlib.Data.List.DropRight
import ServerPages.Proofs.Imports.Names
import ServerPages.Proofs.Text.Pieces

/-!
# What a specification says

A specification is read from left to right, up to its first empty element (`update_fst`). What comes
of it is told by two of its elements: the last of `NONE` and `ALL` says whether everything is let in
(`isUniversal_foldl`), and the names are those behind the last `NONE` (`mem_names_foldl`). Two
specifications, one after the other, say what they say with a comma between them
(`updated_append_cons`).

A list that lets everything in has no names. The type of allow lists says so; that no other state
comes about is shown of lists whose two parts are held apart (`Parts.Reachable.isSound`).

The main statement is `parse_elements`.
-/

namespace ServerPages

namespace Text

variable {s : Text}

/-! ### Trimming -/

theorem mem_of_mem_trim {c : Char} (h : c ∈ trim s) : c ∈ s := by
  rw [trim, trimRight, List.mem_reverse] at h
  have hleft := List.mem_reverse.mp ((List.dropWhile_sublist _).mem h)
  exact (List.dropWhile_sublist _).mem hleft

/-- What begins a text without white space in front has none in front. -/
theorem trimLeft_of_prefix {t : Text} (h : t <+: trimLeft s) : trimLeft t = t := by
  cases t with
  | nil => rfl
  | cons c t =>
    obtain ⟨r, hr⟩ := h
    have hhead := List.head?_dropWhile_not isBlank s
    rw [trimLeft] at hr
    rw [← hr] at hhead
    exact List.dropWhile_cons_of_neg (by simpa using hhead)

theorem trim_trim (s : Text) : trim (trim s) = trim s := by
  have hleft : trimLeft (trim s) = trim s := trimLeft_of_prefix (List.rdropWhile_prefix isBlank (trimLeft s))
  rw [trim, hleft]
  exact List.rdropWhile_idempotent _ _

private theorem trim_of_isAllBlank (h : isAllBlank s = true) : trim s = [] := by
  have hleft : trimLeft s = [] := List.dropWhile_eq_nil_iff.mpr (List.all_eq_true.mp h)
  rw [trim, hleft]
  rfl

end Text

namespace AllowList

variable {l : AllowList} {spec s t e name : Text} {es : List Text}

/-! ### Elements -/

/-- The elements of a specification, without the white space around them. -/
def elements (spec : Text) : List Text := (Text.splitOn ',' spec).map Text.trim

/-- The elements that count: those in front of the first empty one. -/
def counted (spec : Text) : List Text := (elements spec).takeWhile (!·.isEmpty)

private theorem elements_append_cons (s t : Text) : elements (s ++ ',' :: t) = elements s ++ elements t := by
  rw [elements, Text.splitOn_append_cons, List.map_append]
  rfl

/-- White space is one empty element. -/
theorem elements_of_isAllBlank (h : Text.isAllBlank spec = true) : elements spec = [[]] := by
  have hcomma : ',' ∉ spec := fun hmem => by cases List.all_eq_true.mp h _ hmem
  rw [elements, Text.splitOn_of_not_mem hcomma, List.map_singleton, Text.trim_of_isAllBlank h]

private theorem forall_filled (h : [] ∉ es) : ∀ e ∈ es, (!e.isEmpty) = true := by
  intro e he
  cases e with
  | nil => exact absurd he h
  | cons c e => rfl

private theorem counted_of_filled (h : [] ∉ elements spec) : counted spec = elements spec :=
  List.takeWhile_eq_self_iff.mpr (forall_filled h)

/-- Behind a specification without empty elements the elements of another count. -/
theorem counted_append_cons (h : [] ∉ elements s) :
    counted (s ++ ',' :: t) = elements s ++ counted t := by
  rw [counted, elements_append_cons, List.takeWhile_append_of_pos (forall_filled h), counted]

/-- Behind an empty element nothing counts. -/
theorem counted_append_cons_of_mem (h : [] ∈ elements s) :
    counted (s ++ ',' :: t) = counted s := by
  obtain ⟨before, behind, hsplit, hbefore⟩ := List.eq_append_cons_of_mem h
  -- both are cut at the first empty element, which stands in the first of them
  have hfilled := forall_filled hbefore
  rw [counted, counted, elements_append_cons, hsplit, List.append_assoc, List.cons_append,
    List.takeWhile_append_of_pos hfilled, List.takeWhile_append_of_pos hfilled,
    List.takeWhile_cons_of_neg (by simp), List.takeWhile_cons_of_neg (by simp)]

/-! ### Updates -/

private theorem addAll_eq (l : AllowList) (pieces : List Text) : addAll l pieces =
    (((pieces.map Text.trim).takeWhile (!·.isEmpty)).foldl add l,
      decide ([] ∉ pieces.map Text.trim)) := by
  induction pieces generalizing l with
  | nil => rfl
  | cons piece pieces ih =>
    rw [addAll, List.map_cons]
    cases hpiece : Text.trim piece with
    | nil => simp
    | cons c e =>
      simp [ih]

/-- The elements that count are added, one after the other, also when the specification is
refused. -/
theorem update_fst (l : AllowList) (spec : Text) : (l.update spec).1 = (counted spec).foldl add l := by
  rw [update]
  split
  · next hblank => rw [counted, elements_of_isAllBlank hblank]; rfl
  · rw [addAll_eq]; rfl

/-- A specification is refused if an element is empty. -/
theorem update_snd_eq_none_iff : (l.update spec).2 = none ↔ [] ∉ elements spec := by
  rw [update]
  split
  · next hblank => simp [elements_of_isAllBlank hblank]
  · rw [addAll_eq, ← elements]
    by_cases h : [] ∈ elements spec <;> simp [h]

/-- The list after a specification, and whether the specification is taken. -/
def updated (l : AllowList) (spec : Text) : AllowList × Bool :=
  ((l.update spec).1, (l.update spec).2.isNone)

/-- The list after a specification and another, and whether both are taken; behind one that is
refused no other is read. -/
def updatedTwice (l : AllowList) (s t : Text) : AllowList × Bool :=
  if (l.updated s).2 then (l.updated s).1.updated t else l.updated s

private theorem updated_eq (l : AllowList) (spec : Text) :
    l.updated spec = ((counted spec).foldl add l, decide ([] ∉ elements spec)) := by
  rw [updated, update_fst, Prod.mk.injEq, Bool.eq_iff_iff, Option.isNone_iff_eq_none,
    update_snd_eq_none_iff, decide_eq_true_eq]
  exact ⟨rfl, Iff.rfl⟩

/-- **Specifications in a row** say what they say with a comma between them. -/
theorem updated_append_cons (l : AllowList) (s t : Text) :
    l.updated (s ++ ',' :: t) = l.updatedTwice s t := by
  rw [updatedTwice, updated_eq, updated_eq, updated_eq]
  by_cases h : [] ∈ elements s
  · simp [counted_append_cons_of_mem h, elements_append_cons, h]
  · simp [counted_append_cons h, counted_of_filled h, elements_append_cons, h]

/-! ### Keywords -/

/-- Whether an element is no name. -/
def isKeyword (e : Text) : Bool := e = "NONE".toList || e = "ALL".toList

/-- The last keyword among elements. -/
def lastKeyword? (es : List Text) : Option Text := (es.filter isKeyword).getLast?

/-- The elements behind the last `NONE`, all of them if there is none. -/
def behindNone (es : List Text) : List Text := es.rtakeWhile (· ≠ "NONE".toList)

private theorem lastKeyword?_keyword (h : isKeyword e = true) : lastKeyword? (es ++ [e]) = some e := by
  rw [lastKeyword?, List.filter_append, List.filter_cons_of_pos h, List.filter_nil,
    List.getLast?_concat]

private theorem lastKeyword?_name (h : isKeyword e = false) :
    lastKeyword? (es ++ [e]) = lastKeyword? es := by
  rw [lastKeyword?, List.filter_append, List.filter_cons_of_neg (by simp [h]), List.filter_nil,
    List.append_nil, lastKeyword?]

private theorem behindNone_none (es : List Text) : behindNone (es ++ ["NONE".toList]) = [] :=
  List.rtakeWhile_concat_neg _ _ _ (by decide)

private theorem behindNone_of_ne (h : e ≠ "NONE".toList) (es : List Text) :
    behindNone (es ++ [e]) = behindNone es ++ [e] :=
  List.rtakeWhile_concat_pos _ _ _ (decide_eq_true h)

private theorem add_none (l : AllowList) : l.add "NONE".toList = empty := if_pos rfl

private theorem add_all (l : AllowList) : l.add "ALL".toList = .all := rfl

/-- A name is added to the names on a list. -/
theorem add_name (h : isKeyword e = false) (ns : List Text) :
    (only ns).add e = only (insertName e ns) := by
  obtain ⟨hnone, hall⟩ := Bool.or_eq_false_iff.mp h
  unfold add
  rw [if_neg (of_decide_eq_false hnone), if_neg (of_decide_eq_false hall)]

/-- A name adds nothing where everything is let in. -/
theorem all_add_name (h : isKeyword e = false) : all.add e = all := by
  obtain ⟨hnone, hall⟩ := Bool.or_eq_false_iff.mp h
  unfold add
  rw [if_neg (of_decide_eq_false hnone), if_neg (of_decide_eq_false hall)]

theorem eq_of_isKeyword (h : isKeyword e = true) : e = "NONE".toList ∨ e = "ALL".toList := by
  rwa [isKeyword, Bool.or_eq_true, decide_eq_true_eq, decide_eq_true_eq] at h

theorem isUniversal_add_name (h : isKeyword e = false) (l : AllowList) :
    (l.add e).isUniversal = l.isUniversal := by
  cases l with
  | all => rw [all_add_name h]
  | only ns =>
    rw [add_name h]
    rfl

theorem names_add_name (h : isKeyword e = false) (hnot : l.isUniversal = false) :
    (l.add e).names = insertName e l.names := by
  cases l with
  | all => cases hnot
  | only ns =>
    rw [add_name h]
    rfl

/-- Whether elements let everything in is said by the last keyword among them. -/
theorem isUniversal_foldl (l : AllowList) (es : List Text) :
    (es.foldl add l).isUniversal = true ↔
      lastKeyword? es = some "ALL".toList ∨ lastKeyword? es = none ∧ l.isUniversal = true := by
  -- from the back: the last element decides, or it is a name and those before it do
  induction es using List.reverseRecOn with
  | nil => simp [lastKeyword?]
  | append_singleton es e ih =>
    rw [List.foldl_append, List.foldl_cons, List.foldl_nil]
    cases hkey : isKeyword e with
    | false => rw [isUniversal_add_name hkey, ih, lastKeyword?_name hkey]
    | true =>
      rw [lastKeyword?_keyword hkey]
      obtain rfl | rfl := eq_of_isKeyword hkey
      · rw [add_none]
        simp [empty, isUniversal]
      · rw [add_all]
        simp [isUniversal]

/-- The names that elements leave on a list that does not let everything in: those behind the last
`NONE`, and without a `NONE` those that were on it. -/
theorem mem_names_foldl (h : (es.foldl add l).isUniversal = false) :
    name ∈ (es.foldl add l).names ↔
      name ∈ behindNone es ∨ "NONE".toList ∉ es ∧ name ∈ l.names := by
  -- from the back again: what stands before the last element also lets not everything in
  induction es using List.reverseRecOn with
  | nil => simp [behindNone]
  | append_singleton es e ih =>
    rw [List.foldl_append, List.foldl_cons, List.foldl_nil] at h ⊢
    cases hkey : isKeyword e with
    | true =>
      obtain rfl | rfl := eq_of_isKeyword hkey
      · rw [add_none, behindNone_none]
        simp [names, empty]
      · cases h
    | false =>
      rw [isUniversal_add_name hkey] at h
      obtain ⟨hnone, -⟩ := Bool.or_eq_false_iff.mp hkey
      have hne : e ≠ "NONE".toList := of_decide_eq_false hnone
      have hin : "NONE".toList = e ↔ False := iff_false_intro (Ne.symm hne)
      rw [names_add_name hkey h, mem_insertName, ih h, behindNone_of_ne hne, List.mem_append,
        List.mem_append, List.mem_singleton, List.mem_singleton, hin, or_false]
      exact or_left_comm.trans or_assoc.symm

/-! ### Names and switch apart -/

/-- An allow list with its parts held apart, so that nothing keeps a list with names from letting
everything in. -/
structure Parts where
  names : List Text
  universal : Bool

/-- The parts of an allow list. -/
def parts (l : AllowList) : Parts := ⟨l.names, l.isUniversal⟩

namespace Parts

variable {p : Parts}

/-- The parts made from some names, which are dropped if everything is let in. -/
def make (names : List Text) (universal : Bool) : Parts :=
  ⟨if universal then [] else names.foldl (fun ns n => insertName n ns) [], universal⟩

/-- The parts after one element. -/
def add (p : Parts) (element : Text) : Parts :=
  if element = "NONE".toList then ⟨[], false⟩
  else if element = "ALL".toList then ⟨[], true⟩
  else if p.universal then p
  else { p with names := insertName element p.names }

/-- The parts after a specification, be it refused or not. -/
def update (p : Parts) (spec : Text) : Parts := (counted spec).foldl add p

/-- The parts that come about. -/
inductive Reachable : Parts → Prop
  | make (names : List Text) (universal : Bool) : Reachable (make names universal)
  | update {p : Parts} (h : Reachable p) (spec : Text) : Reachable (p.update spec)

/-- Where everything is let in there are no names. -/
def IsSound (p : Parts) : Prop := p.universal = true → p.names = []

private theorem isSound_make (names : List Text) (universal : Bool) : (make names universal).IsSound :=
  fun h => if_pos h

theorem IsSound.add (h : p.IsSound) (e : Text) : (p.add e).IsSound := by
  unfold Parts.add
  split
  · exact fun _ => rfl
  split
  · exact fun _ => rfl
  split
  · exact h
  · next hnot => exact fun huniversal => absurd huniversal hnot

theorem IsSound.foldl (h : p.IsSound) (es : List Text) : (es.foldl Parts.add p).IsSound := by
  induction es generalizing p with
  | nil => exact h
  | cons e es ih => exact ih (h.add e)

/-- No part contradicts the other in what comes about. -/
theorem Reachable.isSound (h : p.Reachable) : p.IsSound := by
  induction h with
  | make names universal => exact isSound_make names universal
  | update _ spec ih => exact ih.foldl _

theorem IsSound.exists_parts (h : p.IsSound) : ∃ l : AllowList, p = l.parts := by
  obtain ⟨names, universal⟩ := p
  cases universal with
  | true =>
    obtain rfl : names = [] := h rfl
    exact ⟨.all, rfl⟩
  | false => exact ⟨.only names, rfl⟩

end Parts

/-- Lists are made as their parts are. -/
theorem parts_make (names : List Text) :
    all.parts = Parts.make names true ∧ (ofNames names).parts = Parts.make names false :=
  ⟨rfl, rfl⟩

private theorem parts_add (l : AllowList) (e : Text) : (l.add e).parts = l.parts.add e := by
  unfold add Parts.add
  split
  · rfl
  split
  · rfl
  cases l <;> rfl

private theorem parts_foldl (l : AllowList) (es : List Text) :
    (es.foldl add l).parts = es.foldl Parts.add l.parts := by
  induction es generalizing l with
  | nil => rfl
  | cons e es ih => rw [List.foldl_cons, ih, parts_add, List.foldl_cons]

/-! ### What is read -/

theorem eq_of_parse (h : parse spec = .ok l) : (update empty spec).1 = l := by
  rw [parse] at h
  split at h
  · next hupdate =>
    rw [hupdate]
    exact Except.ok.inj h
  · cases h

theorem parse_of_filled (h : [] ∉ elements spec) :
    parse spec = .ok ((elements spec).foldl add empty) := by
  have hlist : (update empty spec).1 = (elements spec).foldl add empty := by
    rw [update_fst, counted_of_filled h]
  have hupdate : update empty spec = ((elements spec).foldl add empty, none) :=
    Prod.ext hlist (update_snd_eq_none_iff.mpr h)
  rw [parse, hupdate]

/-- **What a specification says.** One without empty elements is taken. Everything is let in if and
only if the last of its keywords is `ALL`, and then there are no names; otherwise the names are the
elements behind the last `NONE`. A specification and another, one after the other, come to the same
as both with a comma between them. And of the names and the switch that come about when lists are
made and updated, by specifications that are taken and others, none that lets everything in has
names, also where they are held apart. -/
theorem parse_elements (spec : Text) (hfilled : [] ∉ elements spec) :
    (∃ l, parse spec = .ok l ∧
      (l.isUniversal = true ↔ lastKeyword? (elements spec) = some "ALL".toList) ∧
      (l.isUniversal = true → l.names = []) ∧
      (l.isUniversal = false →
        ∀ name, name ∈ l.names ↔ name ∈ behindNone (elements spec))) ∧
    (∀ (l : AllowList) (s t : Text), l.updated (s ++ ',' :: t) = l.updatedTwice s t) ∧
    (∀ names : List Text,
      all.parts = Parts.make names true ∧ (ofNames names).parts = Parts.make names false) ∧
    (∀ (l : AllowList) (spec : Text), (l.update spec).1.parts = l.parts.update spec) ∧
    ∀ p : Parts, p.Reachable →
      (p.universal = true → p.names = []) ∧ ∃ l : AllowList, p = l.parts := by
  refine ⟨⟨(elements spec).foldl add empty, parse_of_filled hfilled, ?_, ?_, ?_⟩,
    updated_append_cons, parts_make, ?_, ?_⟩
  · rw [isUniversal_foldl]
    simp [empty, isUniversal]
  · cases (elements spec).foldl add empty with
    | all => exact fun _ => rfl
    | only ns => exact fun h => by cases h
  · intro h name
    rw [mem_names_foldl h]
    simp [empty, names]
  · intro l spec
    rw [update_fst, parts_foldl, Parts.update]
  · exact fun p hp => ⟨hp.isSound, hp.isSound.exists_parts⟩

/-- Names, `ALL`, `NONE` and names again: the names behind `NONE` stay. -/
theorem parse_elements_mixed :
    let spec := "os,ALL, json ,NONE,\tre ,sys.path".toList
    [] ∉ elements spec ∧ ∃ l, parse spec = .ok l ∧ l.isUniversal = false ∧
      ∀ name, name ∈ l.names ↔ name ∈ ["re".toList, "sys.path".toList] := by
  intro spec
  have hfilled : [] ∉ elements spec := by decide
  obtain ⟨⟨l, hparse, huniversal, -, hnames⟩, -⟩ := parse_elements spec hfilled
  have hnot : l.isUniversal = false := by
    rw [← Bool.not_eq_true, huniversal]
    decide
  exact ⟨hfilled, l, hparse, hnot, hnames hnot⟩

end AllowList

end ServerPages
