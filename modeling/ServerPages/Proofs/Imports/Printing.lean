import ServerPages.Proofs.Imports.Specification

/-!
# Allow lists as specifications

A list is written as its names with commas between them. The names that specifications leave on a
list are in order, and each is read as one name (`IsWritable`): no element makes it otherwise
(`IsWritable.add`), so no specification does, and none that is refused.

The main statement is that such a list, if it lets anything in, is read from what is written of it
(`parse_spec_iff`).
-/

namespace ServerPages

namespace AllowList

open Text (Precedes)

variable {l : AllowList} {spec e : Text} {ns es : List Text}

/-! ### Names that can be written -/

/-- A text that an element of a specification can give as a name. -/
structure IsName (n : Text) : Prop where
  ne_nil : n ≠ []
  trimmed : Text.trim n = n
  undivided : ',' ∉ n
  not_keyword : isKeyword n = false

/-- The names of a list are in order, and a specification can give each of them. -/
def IsWritable : AllowList → Prop
  | .all => True
  | .only ns => ns.Pairwise Precedes ∧ ∀ n ∈ ns, IsName n

private theorem isName_of_mem_counted (h : e ∈ counted spec) (hkey : isKeyword e = false) : IsName e := by
  have hne : e ≠ [] := by
    rintro rfl
    cases List.mem_takeWhile_imp h
  obtain ⟨piece, hpiece, rfl⟩ := List.mem_map.mp ((List.takeWhile_sublist _).mem h)
  exact ⟨hne, Text.trim_trim piece,
    fun hmem => Text.not_mem_of_mem_splitOn hpiece (Text.mem_of_mem_trim hmem), hkey⟩

private theorem isWritable_empty : empty.IsWritable := ⟨.nil, List.forall_mem_nil _⟩

/-- An element leaves names that can be written. -/
theorem IsWritable.add (h : l.IsWritable) (he : isKeyword e = false → IsName e) :
    (l.add e).IsWritable := by
  cases hkey : isKeyword e with
  | true =>
    obtain rfl | rfl := eq_of_isKeyword hkey
    · exact isWritable_empty
    · trivial
  | false =>
    cases l with
    | all =>
      rw [all_add_name hkey]
      trivial
    | only ns =>
      rw [add_name hkey]
      refine ⟨pairwise_insertName h.1, fun n hn => ?_⟩
      obtain rfl | hn := mem_insertName.mp hn
      · exact he hkey
      · exact h.2 n hn

theorem IsWritable.foldl (h : l.IsWritable) (hes : ∀ e ∈ es, isKeyword e = false → IsName e) :
    (es.foldl AllowList.add l).IsWritable := by
  induction es generalizing l with
  | nil => exact h
  | cons e es ih =>
    obtain ⟨he, hes⟩ := List.forall_mem_cons.mp hes
    exact ih (h.add he) hes

theorem IsWritable.update (h : l.IsWritable) (spec : Text) : (l.update spec).1.IsWritable := by
  rw [update_fst]
  exact h.foldl fun e he => isName_of_mem_counted he

/-- The lists that come about when one is read and specifications follow, be they refused or not. -/
inductive Reached : AllowList → Prop
  | parse {l : AllowList} {spec : Text} (h : parse spec = .ok l) : Reached l
  | update {l : AllowList} (h : Reached l) (spec : Text) : Reached (l.update spec).1

private theorem Reached.isWritable (h : l.Reached) : l.IsWritable := by
  induction h with
  | parse h =>
    rw [← eq_of_parse h]
    exact isWritable_empty.update _
  | update _ spec ih => exact ih.update spec

/-! ### Reading what is written -/

private theorem elements_spec (hne : ns ≠ []) (h : ∀ n ∈ ns, IsName n) : elements (only ns).spec = ns := by
  rw [elements, spec, Text.splitOn_joinWith hne fun n hn => (h n hn).undivided]
  conv_rhs => rw [← List.map_id ns]
  exact List.map_congr_left fun n hn => (h n hn).trimmed

private theorem foldl_add_names (h : ∀ e ∈ es, isKeyword e = false) (ns : List Text) :
    es.foldl add (.only ns) = .only (es.foldl (fun ms m => insertName m ms) ns) := by
  induction es generalizing ns with
  | nil => rfl
  | cons e es ih =>
    obtain ⟨he, hes⟩ := List.forall_mem_cons.mp h
    rw [List.foldl_cons, add_name he, ih hes, List.foldl_cons]

private theorem parse_spec_names (hne : ns ≠ []) (h : (only ns).IsWritable) :
    parse (only ns).spec = .ok (only ns) := by
  obtain ⟨hordered, hnames⟩ := h
  have helements := elements_spec hne hnames
  have hfilled : [] ∉ elements (only ns).spec := by
    rw [helements]
    exact fun hmem => (hnames [] hmem).ne_nil rfl
  have hsorted := @foldl_insertName ns [] hordered
  rw [parse_of_filled hfilled, helements, empty, foldl_add_names fun n hn => (hnames n hn).not_keyword,
    hsorted, List.nil_append]

/-- **What is written of a list is read as that list.** A list that comes about by specifications,
refused ones among them, is read from its own specification if and only if it lets everything in or
has a name; the list without names is written as nothing, which is refused. -/
theorem parse_spec_iff (h : l.Reached) :
    parse l.spec = .ok l ↔ l.isUniversal = true ∨ l.names ≠ [] := by
  cases l with
  | all => exact iff_of_true rfl (.inl rfl)
  | only ns =>
    cases ns with
    | nil =>
      refine iff_of_false (fun hparse => ?_) ?_
      · cases hparse
      · rintro (huniversal | hne)
        · cases huniversal
        · exact hne rfl
    | cons n ns =>
      have hne : n :: ns ≠ [] := List.cons_ne_nil n ns
      exact iff_of_true (parse_spec_names hne h.isWritable) (.inr hne)

/-- Names are added until an empty element; the list is written in order and read back. -/
theorem parse_spec_iff_refused :
    let l := ((only ["re".toList]).update "os.path, json,,ALL".toList).1
    l.Reached ∧ l.spec = "json,os.path,re".toList ∧ parse l.spec = .ok l := by
  intro l
  have hread : parse "NONE, re".toList = .ok (only ["re".toList]) := rfl
  have hreached : l.Reached := .update (.parse hread) _
  exact ⟨hreached, by decide, (parse_spec_iff hreached).mpr (.inr (by decide))⟩

end AllowList

end ServerPages
