import ServerPages.Proofs.Request.Members

/-!
# Requests without fault

A value is read as a request without fault exactly if it is an object whose fields fit: the member
that a field is read from, if there is one, holds a text, an integer in one of its spellings, or a
table of texts, as the field asks for (`issues_request_eq_nil_iff`). Members that no field is read
from do not matter.
-/

namespace ServerPages

private theorem Checked.issues_within {α : Type} {c : Checked α} (name : Text) :
    (c.within name).issues = [] ↔ c.issues = [] :=
  List.map_eq_nil_iff

namespace Shape

variable {ms : Members} {j : Json}

/-! ### Values of fields -/

/-- A string of whole characters. -/
def FitsText (j : Json) : Prop := ∃ t, j = .string (Letter.ofText t)

/-- An object whose names and values are texts. -/
def FitsTable (j : Json) : Prop :=
  ∃ ms : Members, j = .object ms ∧ ∀ m ∈ ms, (∃ key, m.1 = Letter.ofText key) ∧ FitsText m.2

/-- An integer, or a flag, a real or a text that stands for one. -/
inductive FitsInteger : Json → Prop
  | int (n : Int) : FitsInteger (.int n)
  | bool (b : Bool) : FitsInteger (.bool b)
  | real {r : Binary64} {n : Int} (value : r.toInt? = some n) (below : n < wordBound)
    (above : -wordBound < n) : FitsInteger (.real r)
  | written {t : Text} {n : Int} (value : Written.integer t = .ok n) :
    FitsInteger (.string (Letter.ofText t))

private theorem issues_text_eq_nil_iff : (text j).issues = [] ↔ FitsText j := by
  cases j with
  | string s =>
    rw [text]
    cases hs : Letter.text? s with
    | some t => exact iff_of_true rfl ⟨t, congrArg Json.string (Letter.text?_eq_some_iff.mp hs)⟩
    | none =>
      refine iff_of_false nofun fun ⟨t, ht⟩ => ?_
      rw [Letter.text?_eq_some_iff.mpr (Json.string.inj ht)] at hs
      cases hs
  | _ => exact iff_of_false nofun nofun

private theorem issues_entry_eq_nil_iff (m : List Letter × Json) :
    (entry m).issues = [] ↔ (∃ key, m.1 = Letter.ofText key) ∧ FitsText m.2 := by
  have hkey : (∃ key, m.1 = Letter.ofText key) ↔ (Letter.text? m.1).isSome = true := by
    simp_rw [Option.isSome_iff_exists, Letter.text?_eq_some_iff]
  rw [hkey, ← issues_text_eq_nil_iff, entry, List.append_eq_nil_iff, Checked.issues_within]
  refine and_congr_left' ?_
  split
  · next h => exact iff_of_true rfl h
  · next h => exact iff_of_false nofun h

private theorem issues_table_eq_nil_iff : (table j).issues = [] ↔ FitsTable j := by
  cases j with
  | object ms =>
    rw [table, List.flatMap_eq_nil_iff, List.forall_mem_map]
    simp_rw [issues_entry_eq_nil_iff]
    refine ⟨fun h => ⟨ms, rfl, h⟩, ?_⟩
    rintro ⟨_, heq, h⟩
    cases heq
    exact h
  | _ => exact iff_of_false nofun nofun

private theorem intOfReal_eq_ok_iff {r : Binary64} {n : Int} :
    intOfReal r = .ok n ↔ r.toInt? = some n ∧ n < wordBound ∧ -wordBound < n := by
  cases r with
  | nan | infinite => exact iff_of_false nofun nofun
  | finite negative m e =>
    rw [intOfReal]
    · cases (Binary64.finite negative m e).toInt? with
      | none => exact iff_of_false nofun nofun
      | some k =>
        dsimp only
        split
        · next h =>
          rw [Bool.and_eq_true, decide_eq_true_eq, decide_eq_true_eq] at h
          refine ⟨fun hk => ?_, fun hk => ?_⟩
          · cases hk
            exact ⟨rfl, h.2, h.1⟩
          · cases hk.1
            rfl
        · next h =>
          rw [Bool.and_eq_true, decide_eq_true_eq, decide_eq_true_eq] at h
          refine iff_of_false nofun fun hk => h ?_
          cases hk.1
          exact ⟨hk.2.2, hk.2.1⟩
    · nofun
    · nofun

private theorem intOfText_eq_ok_iff {t : Text} {n : Int} :
    intOfText t = .ok n ↔ Written.integer t = .ok n := by
  rw [intOfText]
  cases Written.integer t with
  | ok k => rw [Except.mapError, Except.ok.injEq, Except.ok.injEq]
  | error e => exact iff_of_false nofun nofun

private theorem issues_int_eq_nil_iff : (int j).issues = [] ↔ FitsInteger j := by
  cases j with
  | int n => exact iff_of_true rfl (.int n)
  | bool b => exact iff_of_true rfl (.bool b)
  | real r =>
    rw [int]
    cases hr : intOfReal r with
    | ok n =>
      obtain ⟨hvalue, hbelow, habove⟩ := intOfReal_eq_ok_iff.mp hr
      exact iff_of_true rfl (.real hvalue hbelow habove)
    | error fault =>
      refine iff_of_false nofun fun h => ?_
      cases h with
      | real hvalue hbelow habove =>
        cases hr.symm.trans (intOfReal_eq_ok_iff.mpr ⟨hvalue, hbelow, habove⟩)
  | string s =>
    rw [int]
    cases hs : Letter.text? s with
    | none =>
      refine iff_of_false nofun fun h => ?_
      cases h with
      | written => cases hs.symm.trans (Letter.text?_eq_some_iff.mpr rfl)
    | some t =>
      obtain rfl := Letter.text?_eq_some_iff.mp hs
      dsimp only
      cases ht : intOfText t with
      | ok n => exact iff_of_true rfl (.written (intOfText_eq_ok_iff.mp ht))
      | error fault =>
        refine iff_of_false nofun fun h => ?_
        generalize hj : Json.string (Letter.ofText t) = j at h
        cases h with
        | written hvalue =>
          obtain rfl := Letter.ofText_injective (Json.string.inj hj)
          cases ht.symm.trans (intOfText_eq_ok_iff.mpr hvalue)
        | _ => cases hj
  | _ => exact iff_of_false nofun nofun

/-! ### Requests -/

/-- What a field holds. -/
inductive FieldType where
  | text
  | integer
  | table

/-- A value that a field of a type takes. -/
def FieldType.Fits : FieldType → Json → Prop
  | .text => FitsText
  | .integer => FitsInteger
  | .table => FitsTable

/-- What the fields of a request hold, in their order. -/
def requestTypes : List FieldType :=
  [.text, .text, .integer, .text, .text, .text, .text, .text, .text, .integer, .text, .text, .text,
   .table, .table, .table, .text, .table]

/-- A request: an object in which every field that is sent fits. -/
def IsRequest (j : Json) : Prop :=
  ∃ ms : Members, j = .object ms ∧ ∀ p ∈ requestFields.zip requestTypes, ∀ name v,
    p.1.member? (present ms) = some (name, v) → p.2.Fits v

/-- A field is read without fault if the member that it is read from is. -/
theorem issues_field_eq_nil_iff {α : Type} {check : Json → Checked α} {Fits : Json → Prop}
    (hcheck : ∀ {j}, (check j).issues = [] ↔ Fits j) (default : α) (f : FieldNames) (ms : Members) :
    (field check default f.wire f.page ms).issues = [] ↔
      ∀ name v, f.member? ms = some (name, v) → Fits v := by
  rw [field_eq_readFrom]
  cases f.member? ms with
  | none => exact iff_of_true rfl nofun
  | some m =>
    obtain ⟨name, v⟩ := m
    rw [readFrom, Checked.issues_within, hcheck]
    refine ⟨fun h name' v' heq => ?_, fun h => h name v rfl⟩
    cases heq
    exact h

/-- **Requests.** A value is read as a request without fault exactly if it is one. -/
theorem issues_request_eq_nil_iff : (request j).issues = [] ↔ IsRequest j := by
  cases j with
  | object ms =>
    have htext := @issues_field_eq_nil_iff _ text FitsText issues_text_eq_nil_iff []
    have hint := @issues_field_eq_nil_iff _ int FitsInteger issues_int_eq_nil_iff 0
    have htable := @issues_field_eq_nil_iff _ table FitsTable issues_table_eq_nil_iff []
    have hobject : IsRequest (.object ms) ↔ ∀ p ∈ requestFields.zip requestTypes, ∀ name v,
        p.1.member? (present ms) = some (name, v) → p.2.Fits v := by
      refine ⟨fun h => ?_, fun h => ⟨ms, rfl, h⟩⟩
      obtain ⟨_, heq, h⟩ := h
      exact Json.object.inj heq ▸ h
    rw [hobject]
    simp only [requestFields, requestTypes, List.map_cons, List.map_nil, List.zip_cons_cons,
      List.zip_nil_left, List.forall_mem_cons, FieldType.Fits, ← htext, ← hint, ← htable, request,
      List.append_eq_nil_iff, and_assoc]
    simp
  | _ =>
    refine iff_of_false (fun h => ?_) fun h => ?_
    · cases h
    · obtain ⟨_, heq, -⟩ := h
      cases heq

end Shape

end ServerPages
