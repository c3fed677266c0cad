import ServerPages.Proofs.Imports.Specification

/-!
# What an allow list lets in

A list is asked for a name by the packages around it, the name itself among them. These are the
texts that the name is or begins with up to a dot (`mem_packages_iff`), so a listed module lets in
what stands below it, at any depth, and nothing else (`allows_iff`).

A list that names more lets no less in (`Within.allows`), and elements other than `NONE` only add to
a list (`within_foldl`). The main statement is `allows_cases`.
-/

namespace ServerPages

namespace AllowList

variable {l l' : AllowList} {m name p e : Text} {es : List Text}

/-! ### Packages -/

/-- A module is what is named, or a package around it. -/
def Holds (m name : Text) : Prop := name = m ∨ m ++ ['.'] <+: name

/-- **The packages around a name** are what it begins with up to a dot, and the name itself. -/
theorem mem_packages_iff : p ∈ packages name ↔ Holds p name := by
  rw [packages, List.mem_map]
  constructor
  · rintro ⟨n, hn, rfl⟩
    rw [List.mem_range] at hn
    have hparts := List.take_append_drop (n + 1) (Text.splitOn '.' name)
    cases hdrop : (Text.splitOn '.' name).drop (n + 1) with
    | nil =>
      -- no piece is left out: the name itself
      rw [hdrop, List.append_nil] at hparts
      rw [hparts, Text.joinWith_splitOn]
      exact .inl rfl
    | cons q qs =>
      -- the pieces left out are joined to the others by a dot
      have htake : (Text.splitOn '.' name).take (n + 1) ≠ [] :=
        List.ne_nil_of_length_pos (by rw [List.length_take]; omega)
      refine .inr ⟨Text.joinWith ['.'] (q :: qs), ?_⟩
      rw [List.append_assoc, ← Text.joinWith_append htake (List.cons_ne_nil q qs), ← hdrop, hparts,
        Text.joinWith_splitOn]
  · have hpos := List.length_pos_iff.mpr (Text.splitOn_ne_nil '.' p)
    rintro (rfl | ⟨rest, rfl⟩)
    · refine ⟨(Text.splitOn '.' name).length - 1, List.mem_range.mpr (by omega), ?_⟩
      rw [Nat.sub_add_cancel hpos, List.take_length, Text.joinWith_splitOn]
    · rw [List.append_assoc, List.singleton_append, Text.splitOn_append_cons]
      refine ⟨(Text.splitOn '.' p).length - 1, List.mem_range.mpr ?_, ?_⟩
      · rw [List.length_append]
        omega
      · rw [Nat.sub_add_cancel hpos, List.take_left, Text.joinWith_splitOn]

private theorem isPageName_iff : isPageName name = true ↔
    name = pagePackage ∨ ∃ member ∈ pageInterface, name = pagePackage ++ '.' :: member := by
  rw [isPageName, Bool.or_eq_true, decide_eq_true_eq]
  refine or_congr_right ?_
  cases hafter : Text.after? (pagePackage ++ ['.']) name with
  | none =>
    refine iff_of_false (by simp) ?_
    rintro ⟨member, -, rfl⟩
    rw [Text.after?_eq_some_iff.mpr (List.append_cons _ _ _)] at hafter
    cases hafter
  | some member =>
    obtain rfl := Text.after?_eq_some_iff.mp hafter
    simp

/-- **Which names are let in**: all of them by a list that says so, and by any other the page
interface and what a listed module holds. -/
theorem allows_iff : l.allows name = true ↔
    l.isUniversal = true ∨ isPageName name = true ∨ ∃ m ∈ l.names, Holds m name := by
  cases l with
  | all => exact iff_of_true rfl (.inl rfl)
  | only ns =>
    rw [allows, Bool.or_eq_true, List.any_eq_true]
    have hlisted : (∃ p ∈ packages name, ns.contains p = true) ↔ ∃ m ∈ ns, Holds m name := by
      simp only [mem_packages_iff, List.contains_iff_mem]
      exact exists_congr fun m => and_comm
    rw [hlisted]
    exact (or_iff_right Bool.false_ne_true).symm

/-! ### Longer lists -/

/-- A list lets everything in, or it has the names of the other. -/
def Within (l l' : AllowList) : Prop :=
  l'.isUniversal = true ∨ l.isUniversal = false ∧ l.names ⊆ l'.names

theorem Within.refl (l : AllowList) : l.Within l := by
  cases l with
  | all => exact .inl rfl
  | only ns => exact .inr ⟨rfl, fun _ h => h⟩

theorem Within.trans {l'' : AllowList} (h : l.Within l') (h' : l'.Within l'') : l.Within l'' := by
  obtain huniversal | ⟨hnot', hnames'⟩ := h'
  · exact .inl huniversal
  · obtain huniversal | ⟨hnot, hnames⟩ := h
    · rw [huniversal] at hnot'
      cases hnot'
    · exact .inr ⟨hnot, fun _ hm => hnames' (hnames hm)⟩

/-- A list that names more lets no less in. -/
theorem Within.allows (h : l.Within l') (hl : l.allows name = true) : l'.allows name = true := by
  rw [allows_iff] at hl ⊢
  obtain huniversal | ⟨hnot, hnames⟩ := h
  · exact .inl huniversal
  · obtain huniversal | hpage | ⟨m, hm, hholds⟩ := hl
    · rw [huniversal] at hnot
      cases hnot
    · exact .inr (.inl hpage)
    · exact .inr (.inr ⟨m, hnames hm, hholds⟩)

private theorem within_add (he : e ≠ "NONE".toList) (l : AllowList) : l.Within (l.add e) := by
  cases hkey : isKeyword e with
  | true =>
    obtain rfl := (eq_of_isKeyword hkey).resolve_left he
    exact .inl rfl
  | false =>
    cases l with
    | all => exact .inl (isUniversal_add_name hkey _)
    | only ns =>
      refine .inr ⟨rfl, fun m hm => ?_⟩
      rw [names_add_name hkey rfl]
      exact mem_insertName.mpr (.inr hm)

/-- Elements other than `NONE` only add to a list. -/
theorem within_foldl (h : "NONE".toList ∉ es) (l : AllowList) : l.Within (es.foldl add l) := by
  induction es generalizing l with
  | nil => exact .refl l
  | cons e es ih =>
    rw [List.mem_cons, not_or] at h
    exact (within_add (Ne.symm h.1) l).trans (ih h.2 _)

/-- A name lets nothing in that only begins with the same characters. -/
theorem allows_add_sibling (hm : isKeyword m = false) {c : Char} (hc : c ≠ '.') (rest : Text) :
    (l.add m).allows (m ++ c :: rest) = l.allows (m ++ c :: rest) := by
  have hnot : ¬ Holds m (m ++ c :: rest) := by
    rintro (heq | ⟨behind, hbehind⟩)
    · simp at heq
    · rw [List.append_assoc, List.append_cancel_left_eq, List.singleton_append,
        List.cons_eq_cons] at hbehind
      exact hc hbehind.1.symm
  rw [Bool.eq_iff_iff, allows_iff, allows_iff, isUniversal_add_name hm]
  cases huniversal : l.isUniversal with
  | true => exact iff_of_true (.inl rfl) (.inl rfl)
  | false =>
    rw [names_add_name hm huniversal]
    simp only [mem_insertName, or_and_right, exists_or, exists_eq_left, hnot, false_or]

/-! ### What is let in -/

/-- **What an allow list lets in.** A name is let in if and only if the list lets everything in, or
the name belongs to the page interface, or it is a listed module or begins with one and a dot. So a
listed module lets in all below it, at any depth, and no other name that begins with the same
characters; and a list that names more, by itself or after a specification without `NONE`, lets no
less in. -/
theorem allows_cases (l : AllowList) (name : Text) :
    (l.allows name = true ↔ l.isUniversal = true ∨ name = pagePackage ∨
      (∃ member ∈ pageInterface, name = pagePackage ++ '.' :: member) ∨
      ∃ m ∈ l.names, name = m ∨ m ++ ['.'] <+: name) ∧
    (∀ m ∈ l.names, ∀ rest, l.allows (m ++ '.' :: rest) = true) ∧
    (∀ m c rest, isKeyword m = false → c ≠ '.' →
      (l.add m).allows (m ++ c :: rest) = l.allows (m ++ c :: rest)) ∧
    (∀ l', l.Within l' → l.allows name = true → l'.allows name = true) ∧
    ∀ spec, "NONE".toList ∉ counted spec → l.Within (l.update spec).1 := by
  refine ⟨?_, fun m hm rest => ?_, fun m c rest hm hc => allows_add_sibling hm hc rest,
    fun l' h => h.allows, fun spec h => ?_⟩
  · rw [allows_iff, isPageName_iff, or_assoc]
    rfl
  · refine allows_iff.mpr (.inr (.inr ⟨m, hm, .inr ⟨rest, ?_⟩⟩))
    rw [List.append_assoc, List.singleton_append]
  · rw [update_fst]
    exact within_foldl h l

/-- A listed package lets in its modules and not another package whose name begins like its own, and
it goes on to do so when more is listed. -/
theorem allows_cases_package :
    let l := AllowList.only ["os".toList]
    l.allows "os.path.join".toList = true ∧ l.allows "osx".toList = false ∧
      (empty.add "os".toList).allows "osx".toList = empty.allows "osx".toList ∧
      (l.update "re, json".toList).1.allows "os.path.join".toList = true := by
  intro l
  obtain ⟨-, hbelow, -, hmore, hupdate⟩ := allows_cases l "os.path.join".toList
  have hpath : l.allows "os.path.join".toList = true :=
    hbelow _ List.mem_cons_self "path.join".toList
  have hsibling := (allows_cases empty []).2.2.1 "os".toList 'x' [] (by decide) (by decide)
  exact ⟨hpath, by decide, hsibling, hmore _ (hupdate _ (by decide)) hpath⟩

end AllowList

end ServerPages
