import Mathlib.Data.List.Basic
import ServerPages.Imports.Check
import ServerPages.Proofs.Text.Pieces

/-!
# What a program mentions

A program mentions modules, and members of the page library, by six constructs, wherever they stand
in its tree (`Mentions`). The check reads them off the nodes of the tree in two walks, and it finds
all of them and no others (`mem_mentions_iff`). They are put in the order of their lines, so the one
that is refused is a first one (`find?_of_pairwise`).

The main statement says when a program passes, and what is refused if it does not
(`judge_program`).
-/

namespace ServerPages

namespace Imports

open Code

/-! ### Mentions -/

/-- An expression by which a call imports, and the name of the function that it stands for. -/
inductive Importer : Tree → Text → Prop
  | builtin (line : Nat) (parts : List Tree) :
    Importer (.node (.name "__import__".toList) line parts) "__import__".toList
  | function (line : Nat) (parts : List Tree) :
    Importer (.node (.name "import_module".toList) line parts) "import_module".toList
  | member (line inner : Nat) (parts : List Tree) :
    Importer (.node (.attribute "import_module".toList) line
      [.node (.name "importlib".toList) inner parts]) "importlib.import_module".toList

/-- A program mentions a name on a line: a node of its tree, at whatever depth, does. -/
inductive Mentions (program : Tree) : Mention → Prop
  /-- A statement imports the module. -/
  | module {names : List Text} {name : Text} {line : Nat} {parts : List Tree}
    (lies : Tree.Lies (.node (.importModules names) line parts) program) (mem : name ∈ names) :
    Mentions program ⟨name, line⟩
  /-- A statement imports names from the module; a dot stands for each package further out. -/
  | origin {level : Nat} {module : Option Text} {names : List Text} {line : Nat}
    {parts : List Tree}
    (lies : Tree.Lies (.node (.importFrom level module names) line parts) program) :
    Mentions program ⟨List.replicate level '.' ++ module.getD [], line⟩
  /-- A call imports the module that its first argument names. -/
  | literal {callee : Tree} {function name : Text} {line inner : Nat} {parts args : List Tree}
    (lies : Tree.Lies
      (.node .call line (callee :: .node (.constant (.text name)) inner parts :: args)) program)
    (importer : Importer callee function) : Mentions program ⟨name, line⟩
  /-- A call imports a module that cannot be told; it counts under the name of its function. -/
  | computed {callee : Tree} {function : Text} {line : Nat} {args : List Tree}
    (lies : Tree.Lies (.node .call line (callee :: args)) program)
    (importer : Importer callee function)
    (computed : ∀ name inner parts rest,
      args ≠ .node (.constant (.text name)) inner parts :: rest) :
    Mentions program ⟨function, line⟩
  /-- A member of the page library is used. -/
  | access {name : Text} {line inner : Nat} {parts : List Tree}
    (lies : Tree.Lies (.node (.attribute name) line
      [.node (.name AllowList.pagePackage) inner parts]) program) :
    Mentions program ⟨member name, line⟩
  /-- A statement imports the member from the page library. -/
  | fromLibrary {names : List Text} {name : Text} {line : Nat} {parts : List Tree}
    (lies : Tree.Lies
      (.node (.importFrom 0 (some AllowList.pagePackage) names) line parts) program)
    (mem : name ∈ names) : Mentions program ⟨member name, line⟩

variable {t callee program : Tree} {args : List Tree} {function name : Text} {m : Mention}
  {allowed : AllowList}

/-! ### One node -/

private theorem importer?_eq_some_iff : importer? callee = some function ↔ Importer callee function := by
  constructor
  · intro h
    unfold importer? at h
    split at h
    · split at h
      · next hid =>
        obtain rfl := Option.some.inj h
        obtain rfl | rfl := hid
        · exact .builtin _ _
        · exact .function _ _
      · cases h
    · split at h
      · next hid =>
        obtain rfl := Option.some.inj h
        obtain ⟨rfl, rfl⟩ := hid
        exact .member _ _ _
      · cases h
    · cases h
  · rintro (_ | _ | _) <;> rfl

private theorem firstText?_eq_some_iff : firstText? args = some name ↔
    ∃ inner parts rest, args = .node (.constant (.text name)) inner parts :: rest := by
  constructor
  · intro h
    unfold firstText? at h
    split at h
    · obtain rfl := Option.some.inj h
      exact ⟨_, _, _, rfl⟩
    · cases h
  · rintro ⟨inner, parts, rest, rfl⟩
    rfl

/-- What a node imports is mentioned. -/
theorem mentions_of_mem_imported (ht : t.Lies program) (hm : m ∈ imported t) :
    Mentions program m := by
  unfold imported at hm
  split at hm
  · obtain ⟨name, hname, rfl⟩ := List.mem_map.mp hm
    exact .module ht hname
  · obtain rfl := List.mem_singleton.mp hm
    exact .origin ht
  · next line callee args =>
    split at hm
    · next function himporter =>
      obtain rfl := List.mem_singleton.mp hm
      have himporter := importer?_eq_some_iff.mp himporter
      cases hfirst : firstText? args with
      | none =>
        refine .computed ht himporter fun name inner parts rest hargs => ?_
        rw [firstText?_eq_some_iff.mpr ⟨inner, parts, rest, hargs⟩] at hfirst
        cases hfirst
      | some name =>
        obtain ⟨inner, parts, rest, rfl⟩ := firstText?_eq_some_iff.mp hfirst
        exact .literal ht himporter
    · cases hm
  · cases hm

/-- What a node uses of the page library is mentioned. -/
theorem mentions_of_mem_used (ht : t.Lies program) (hm : m ∈ used t) : Mentions program m := by
  unfold used at hm
  split at hm
  · split at hm
    · next hid =>
      obtain rfl := List.mem_singleton.mp hm
      subst hid
      exact .access ht
    · cases hm
  · split at hm
    · next hfrom =>
      obtain ⟨rfl, rfl⟩ := hfrom
      obtain ⟨name, hname, rfl⟩ := List.mem_map.mp hm
      exact .fromLibrary ht hname
    · cases hm
  · cases hm

private theorem imported_call (himporter : Importer callee function) (line : Nat) (args : List Tree) :
    imported (.node .call line (callee :: args)) = [⟨(firstText? args).getD function, line⟩] := by
  rw [imported, importer?_eq_some_iff.mpr himporter]

/-- Each mention is one that a node imports or uses. -/
theorem Mentions.exists_lies (h : Mentions program m) :
    ∃ t, Tree.Lies t program ∧ (m ∈ imported t ∨ m ∈ used t) := by
  cases h with
  | module lies mem => exact ⟨_, lies, .inl (List.mem_map_of_mem mem)⟩
  | origin lies => exact ⟨_, lies, .inl List.mem_cons_self⟩
  | literal lies importer =>
    refine ⟨_, lies, .inl ?_⟩
    rw [imported_call importer]
    exact List.mem_cons_self
  | @computed callee function line args lies importer computed =>
    have hnone : firstText? args = none := by
      rw [Option.eq_none_iff_forall_ne_some]
      intro name hname
      obtain ⟨inner, parts, rest, hargs⟩ := firstText?_eq_some_iff.mp hname
      exact computed name inner parts rest hargs
    refine ⟨_, lies, .inl ?_⟩
    rw [imported_call importer, hnone]
    exact List.mem_cons_self
  | access lies =>
    refine ⟨_, lies, .inr ?_⟩
    rw [used, if_pos rfl]
    exact List.mem_cons_self
  | fromLibrary lies mem =>
    refine ⟨_, lies, .inr ?_⟩
    rw [used, if_pos ⟨rfl, rfl⟩]
    exact List.mem_map_of_mem mem

/-! ### Whole programs -/

/-- **The check finds all that a program mentions**, and nothing else. -/
theorem mem_mentions_iff : m ∈ mentions program ↔ Mentions program m := by
  rw [mentions, List.mem_mergeSort, List.mem_append, find, references, List.mem_flatMap,
    List.mem_flatMap]
  constructor
  · rintro (⟨t, ht, hm⟩ | ⟨t, ht, hm⟩)
    · exact mentions_of_mem_imported (Tree.mem_walk_iff.mp ht) hm
    · exact mentions_of_mem_used (Tree.mem_walk_iff.mp ht) hm
  · intro h
    obtain ⟨t, ht, hm | hm⟩ := h.exists_lies
    · exact .inl ⟨t, Tree.mem_walk_iff.mpr ht, hm⟩
    · exact .inr ⟨t, Tree.mem_walk_iff.mpr ht, hm⟩

private theorem pairwise_mentions (program : Tree) :
    (mentions program).Pairwise fun a b => a.line ≤ b.line := by
  have h := @List.pairwise_mergeSort Mention (fun a b => decide (a.line ≤ b.line))
    (fun a b c hab hbc => by simp only [decide_eq_true_eq] at *; omega)
    (fun a b => by simp only [Bool.or_eq_true, decide_eq_true_eq]; omega)
    (find program ++ references program)
  exact h.imp fun hab => of_decide_eq_true hab

/-- What is found first in an ordered list stands before all others that could be found. -/
theorem find?_of_pairwise {α : Type} {R : α → α → Prop} {p : α → Bool} {l : List α} {a : α}
    (hl : l.Pairwise R) (h : l.find? p = some a) :
    a ∈ l ∧ p a = true ∧ ∀ b ∈ l, p b = true → b = a ∨ R a b := by
  obtain ⟨ha, before, behind, rfl, hbefore⟩ := List.find?_eq_some_iff_append.mp h
  refine ⟨List.mem_append_right _ List.mem_cons_self, ha, fun b hb hpb => ?_⟩
  obtain hb | hb := List.mem_append.mp hb
  · have hnot := hbefore b hb
    rw [hpb] at hnot
    cases hnot
  · obtain rfl | hb := List.mem_cons.mp hb
    · exact .inl rfl
    · exact .inr (List.rel_of_pairwise_cons (List.pairwise_append.mp hl).2.1 hb)

/-- A mention that passes: it is let in, and does not begin with a dot. -/
def Passes (allowed : AllowList) (m : Mention) : Prop :=
  ¬ ['.'] <+: m.name ∧ allowed.allows m.name = true

private theorem not_permits_iff : (!permits allowed m) = true ↔ ¬ Passes allowed m := by
  rw [permits, Bool.not_eq_true', ← Bool.not_eq_true, Bool.and_eq_true, Bool.not_eq_true',
    ← Bool.not_eq_true, Text.beginsWith_iff, Passes]

/-- Checks a program under an allow list that does not let everything in. -/
def judge (program : Tree) (allowed : AllowList) (place : Text) : Except CheckError Unit :=
  match (mentions program).find? (!permits allowed ·) with
  | some m => .error (.rejected m.name allowed place)
  | none => .ok ()

/-- **Which programs pass.** Under an allow list that does not let everything in, a program passes
if and only if all that it mentions, at whatever depth of its tree, is let in and does not begin
with a dot. If it does not pass, what is refused is mentioned and does not pass, and nothing that
does not pass is mentioned on an earlier line. -/
theorem judge_program (program : Tree) (names : List Text) (place : Text) :
    let allowed := AllowList.only names
    (∀ source, Program.parse source = .ok program →
      check source allowed place = judge program allowed place) ∧
    (judge program allowed place = .ok () ↔ ∀ m, Mentions program m → Passes allowed m) ∧
    ∀ e, judge program allowed place = .error e →
      ∃ m, e = .rejected m.name allowed place ∧ Mentions program m ∧ ¬ Passes allowed m ∧
        ∀ other, Mentions program other → ¬ Passes allowed other → m.line ≤ other.line := by
  intro allowed
  refine ⟨fun source hparse => ?_, ?_⟩
  · rw [check, hparse]
    rfl
  rw [judge]
  cases hfind : (mentions program).find? (!permits allowed ·) with
  | none =>
    rw [List.find?_eq_none] at hfind
    refine ⟨iff_of_true rfl fun m hm => ?_, fun e he => by cases he⟩
    exact not_not.mp (mt not_permits_iff.mpr (hfind m (mem_mentions_iff.mpr hm)))
  | some m =>
    obtain ⟨hmem, hm, hfirst⟩ := find?_of_pairwise (pairwise_mentions program) hfind
    have hmentions := mem_mentions_iff.mp hmem
    have hpasses := not_permits_iff.mp hm
    refine ⟨iff_of_false (by simp) fun h => hpasses (h m hmentions), ?_⟩
    rintro e ⟨⟩
    refine ⟨m, rfl, hmentions, hpasses, fun other hother hnot => ?_⟩
    obtain rfl | hle := hfirst other (mem_mentions_iff.mpr hother) (not_permits_iff.mpr hnot)
    · exact Nat.le_refl _
    · exact hle

/-- A call in a function imports one module that is not let in, and a statement behind it another:
the first is refused. -/
theorem judge_program_call :
    let source := "import gosp\ndef f():\n  return [__import__('os.path') for x in gosp.open]\n".toList
      ++ "import re".toList
    let allowed := AllowList.only ["sys".toList]
    let refused := CheckError.rejected "os.path".toList allowed "page".toList
    ∃ program, Program.parse source = .ok program ∧
      check source allowed "page".toList = .error refused ∧
      ∃ m, refused = .rejected m.name allowed "page".toList ∧ Mentions program m ∧
        ¬ Passes allowed m ∧ ∀ other, Mentions program other → ¬ Passes allowed other →
          m.line ≤ other.line := by
  intro source allowed refused
  have hfound : (Program.parse source).map (fun program => find program ++ references program) =
      .ok [⟨"gosp".toList, 1⟩, ⟨"re".toList, 4⟩, ⟨"os.path".toList, 3⟩,
        ⟨"gosp.open".toList, 3⟩] := by
    decide +kernel
  cases hparse : Program.parse source with
  | error e =>
    rw [hparse] at hfound
    cases hfound
  | ok program =>
    rw [hparse] at hfound
    have hfound : find program ++ references program = _ := Except.ok.inj hfound
    have hmem : ∀ m, Mentions program m ↔ m ∈ [(⟨"gosp".toList, 1⟩ : Mention), ⟨"re".toList, 4⟩,
        ⟨"os.path".toList, 3⟩, ⟨"gosp.open".toList, 3⟩] := fun m => by
      rw [← mem_mentions_iff, mentions, List.mem_mergeSort, hfound]
    have hcall : Mentions program ⟨"os.path".toList, 3⟩ := (hmem _).mpr (by decide)
    have hrefuse : ¬ Passes allowed ⟨"os.path".toList, 3⟩ := fun h => absurd h.2 (by decide)
    obtain ⟨hcheck, hpass, hrefused⟩ := judge_program program ["sys".toList] "page".toList
    cases hjudge : judge program allowed "page".toList with
    | ok => exact absurd (hpass.mp hjudge _ hcall) hrefuse
    | error e =>
      obtain ⟨m, rfl, hm, hnot, hfirst⟩ := hrefused e hjudge
      have hname : m.name = "os.path".toList := by
        have hline := hfirst _ hcall hrefuse
        have hin := (hmem m).mp hm
        simp only [List.mem_cons, List.not_mem_nil, or_false] at hin
        obtain rfl | rfl | rfl | rfl := hin
        · exact absurd ⟨by decide, by decide⟩ hnot
        · exact absurd hline (by decide)
        · rfl
        · exact absurd ⟨by decide, by decide⟩ hnot
      have hsame : CheckError.rejected m.name allowed "page".toList = refused := by rw [hname]
      exact ⟨program, rfl, (hcheck source hparse).trans (hjudge.trans (congrArg _ hsame)), m,
        hsame.symm, hm, hnot, hfirst⟩

end Imports

end ServerPages
