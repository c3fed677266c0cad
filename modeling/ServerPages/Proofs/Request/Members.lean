import Mathlib.Data.List.Nodup
import Mathlib.Data.List.Perm.Basic
import ServerPages.Request.Check

/-!
# The members that a message is read from

A field is read from one member: the one under its wire name, and the one under its page name if
there is none (`field_eq_readFrom`). A message is read field by field, so two objects are read alike
if each field is (`request_relocate`, `envelope_relocate`); where the same value is sent under other
names, what is wrong with it is wrong in another place and the rest is the same.

The module says which member a field is read from when members are in another order
(`member?_present_perm`), when one stands among them that has no part in the field
(`FieldNames.member?_insert`), and when one of them has another value (`field_replace`).
-/

namespace ServerPages

namespace Letter

theorem ofText_injective : Function.Injective ofText :=
  List.map_injective_iff.mpr fun _ _ h => Letter.char.inj h

end Letter

namespace Checked

variable {α : Type} {c : Checked α} {ρ σ : List Text → List Text}

/-! ### Places -/

/-- What is read, with its faults in other places. -/
def relocate (ρ : List Text → List Text) (c : Checked α) : Checked α :=
  { c with issues := c.issues.map fun i => { i with place := ρ i.place } }

@[simp]
theorem value_relocate : (c.relocate ρ).value = c.value := rfl

@[simp]
theorem issues_relocate :
    (c.relocate ρ).issues = c.issues.map fun i => { i with place := ρ i.place } := rfl

theorem relocate_id (c : Checked α) : c.relocate id = c := by
  obtain ⟨value, issues⟩ := c
  simp [relocate]

private theorem relocate_within (name : Text) (h : ∀ place, ρ (name :: place) = name :: σ place) :
    (c.within name).relocate ρ = (c.relocate σ).within name := by
  simp [within, relocate, h]

/-- Moves the faults of a message to other places. -/
theorem toExcept_relocate : (c.relocate ρ).toExcept =
    c.toExcept.mapError (List.map fun i => { i with place := ρ i.place }) := by
  rw [toExcept, toExcept, issues_relocate, List.isEmpty_map]
  split <;> rfl

end Checked

namespace Shape

/-- The members of an object. -/
abbrev Members := List (List Letter × Json)

variable {α : Type} {ms ms' before behind : Members} {name : Text} {n : List Letter} {v w : Json}

/-! ### The value of a name -/

private theorem member?_nil (name : Text) : Json.member? name [] = none := rfl

private theorem member?_cons_self (v : Json) (ms : Members) :
    Json.member? name ((Letter.ofText name, v) :: ms) = some v := by
  have hfirst : List.find? (fun m => decide (m.1 = Letter.ofText name))
      ((Letter.ofText name, v) :: ms) = some (Letter.ofText name, v) :=
    List.find?_cons_of_pos (decide_eq_true rfl)
  rw [Json.member?, hfirst]
  rfl

private theorem member?_cons_of_ne (h : n ≠ Letter.ofText name) (v : Json) (ms : Members) :
    Json.member? name ((n, v) :: ms) = Json.member? name ms := by
  rw [Json.member?, List.find?_cons_of_neg (by simpa using h), Json.member?]

private theorem member?_append (name : Text) (ms ms' : Members) : Json.member? name (ms ++ ms') =
    (Json.member? name ms).or (Json.member? name ms') := by
  rw [Json.member?, List.find?_append, Option.map_or]
  rfl

/-- Where no name is given twice, a name has the value of its member. -/
theorem member?_eq_some_iff (h : (ms.map (·.1)).Nodup) :
    Json.member? name ms = some v ↔ (Letter.ofText name, v) ∈ ms := by
  induction ms with
  | nil => exact iff_of_false (by simp [member?_nil]) List.not_mem_nil
  | cons m ms ih =>
    obtain ⟨n, w⟩ := m
    obtain ⟨hnot, hms⟩ := List.nodup_cons.mp h
    by_cases hn : n = Letter.ofText name
    · subst hn
      rw [member?_cons_self, List.mem_cons, Prod.mk.injEq, Option.some.injEq]
      have habsent : (Letter.ofText name, v) ∉ ms := fun hmem =>
        hnot (List.mem_map.mpr ⟨_, hmem, rfl⟩)
      simp [habsent, eq_comm]
    · rw [member?_cons_of_ne hn, ih hms, List.mem_cons, Prod.mk.injEq]
      simp [Ne.symm hn]

/-! ### Members that count -/

private theorem present_append (ms ms' : Members) : present (ms ++ ms') = present ms ++ present ms' :=
  List.filter_append ..

theorem present_cons_null (n : List Letter) (ms : Members) : present ((n, .null) :: ms) = present ms :=
  rfl

private theorem present_cons (h : v.isNull = false) (n : List Letter) (ms : Members) :
    present ((n, v) :: ms) = (n, v) :: present ms :=
  List.filter_cons_of_pos (by simp [h])

private theorem eq_null_of_isNull (h : v.isNull = true) : v = .null := by
  cases v <;> first | rfl | cases h

private theorem nodup_present (h : (ms.map (·.1)).Nodup) : ((present ms).map (·.1)).Nodup :=
  h.sublist (List.filter_sublist.map _)

/-- A name that is null is absent. -/
theorem member?_present (h : ∀ v, (Letter.ofText name, v) ∈ ms → v = .null) :
    Json.member? name (present ms) = none := by
  rw [Json.member?, Option.map_eq_none_iff, List.find?_eq_none]
  rintro ⟨n, v⟩ hmem hname
  obtain ⟨hmem, hnull⟩ := List.mem_filter.mp hmem
  obtain rfl : n = Letter.ofText name := of_decide_eq_true hname
  rw [h v hmem] at hnull
  cases hnull

theorem member?_present_of_not_mem (h : Letter.ofText name ∉ ms.map (·.1)) :
    Json.member? name (present ms) = none :=
  member?_present fun _ hmem => absurd (List.mem_map.mpr ⟨_, hmem, rfl⟩) h

/-- The order of members does not matter. -/
theorem member?_present_perm (h : (ms.map (·.1)).Nodup) (hperm : ms.Perm ms') (name : Text) :
    Json.member? name (present ms') = Json.member? name (present ms) := by
  have hnodup := nodup_present h
  have hperm' : (present ms).Perm (present ms') := hperm.filter _
  ext v
  rw [member?_eq_some_iff hnodup, member?_eq_some_iff ((hperm'.map _).nodup_iff.mp hnodup),
    hperm'.mem_iff]

theorem member?_present_insert (h : n ≠ Letter.ofText name) (before behind : Members) (v : Json) :
    Json.member? name (present (before ++ (n, v) :: behind)) =
      Json.member? name (present (before ++ behind)) := by
  rw [present_append, present_append, member?_append, member?_append]
  cases hv : v.isNull with
  | true => rw [eq_null_of_isNull hv, present_cons_null]
  | false => rw [present_cons hv, member?_cons_of_ne h]

/-- The value of a name that no other member has. -/
theorem member?_present_self (h : Letter.ofText name ∉ (before ++ behind).map (·.1)) (v : Json) :
    Json.member? name (present (before ++ (Letter.ofText name, v) :: behind)) =
      if v.isNull then none else some v := by
  rw [List.map_append, List.mem_append, not_or] at h
  rw [present_append, member?_append, member?_present_of_not_mem h.1, Option.none_or]
  cases hv : v.isNull with
  | true =>
    rw [eq_null_of_isNull hv, present_cons_null, member?_present_of_not_mem h.2]
    rfl
  | false =>
    rw [present_cons hv, member?_cons_self]
    rfl

/-- The value of a name that no earlier member has. -/
theorem member?_present_replace (h : Letter.ofText name ∉ before.map (·.1)) (hv : v.isNull = false) :
    Json.member? name (present (before ++ (Letter.ofText name, v) :: behind)) = some v := by
  rw [present_append, member?_append, member?_present_of_not_mem h, present_cons hv,
    member?_cons_self, Option.none_or]

/-! ### Fields -/

/-- The names under which a field may be sent. -/
structure FieldNames where
  wire : Text
  page : Text
  deriving DecidableEq

namespace FieldNames

variable {f : FieldNames}

/-- The names of a field. -/
def names (f : FieldNames) : List Text := [f.wire, f.page]

theorem wire_mem_names (f : FieldNames) : f.wire ∈ f.names := List.mem_cons_self

theorem page_mem_names (f : FieldNames) : f.page ∈ f.names :=
  List.mem_cons_of_mem _ (List.mem_singleton_self _)

/-- A member's name is one of the field's. -/
def IsNamed (f : FieldNames) (n : List Letter) : Prop := ∃ name ∈ f.names, n = Letter.ofText name

/-- The member that a field is read from, by its name and value. -/
def member? (f : FieldNames) (ms : Members) : Option (Text × Json) :=
  match Json.member? f.wire ms with
  | some j => some (f.wire, j)
  | none => (Json.member? f.page ms).map (f.page, ·)

theorem not_isNamed_iff : ¬ f.IsNamed n ↔ n ≠ Letter.ofText f.wire ∧ n ≠ Letter.ofText f.page := by
  simp [IsNamed, names]

theorem member?_of_wire (h : Json.member? f.wire ms = some v) : f.member? ms = some (f.wire, v) := by
  rw [member?, h]

theorem member?_of_page (h : Json.member? f.wire ms = none) :
    f.member? ms = (Json.member? f.page ms).map (f.page, ·) := by
  rw [member?, h]

theorem member?_congr (hwire : Json.member? f.wire ms' = Json.member? f.wire ms)
    (hpage : Json.member? f.page ms' = Json.member? f.page ms) : f.member? ms' = f.member? ms := by
  rw [member?, hwire, hpage, member?]

/-- The member that a field is read from has one of its names, and the value of that name. -/
theorem of_member? (h : f.member? ms = some (name, v)) :
    name ∈ f.names ∧ Json.member? name ms = some v := by
  rw [member?] at h
  split at h
  · next hwire =>
    obtain ⟨rfl, rfl⟩ := Prod.mk.inj (Option.some.inj h)
    exact ⟨f.wire_mem_names, hwire⟩
  · obtain ⟨j, hpage, hj⟩ := Option.map_eq_some_iff.mp h
    obtain ⟨rfl, rfl⟩ := Prod.mk.inj hj
    exact ⟨f.page_mem_names, hpage⟩

/-- A member under another name does not matter. -/
theorem member?_insert (h : ¬ f.IsNamed n) (before behind : Members) (v : Json) :
    f.member? (present (before ++ (n, v) :: behind)) = f.member? (present (before ++ behind)) := by
  obtain ⟨hwire, hpage⟩ := not_isNamed_iff.mp h
  exact member?_congr (member?_present_insert hwire ..) (member?_present_insert hpage ..)

/-- A member with another value is read in its place. -/
theorem member?_replace (hbefore : Letter.ofText name ∉ before.map (·.1)) (hv : v.isNull = false)
    (hw : w.isNull = false) :
    f.member? (present (before ++ (Letter.ofText name, w) :: behind)) =
      (f.member? (present (before ++ (Letter.ofText name, v) :: behind))).map
        fun m => if m.1 = name then (name, w) else m := by
  have hsame : ∀ other : Text, other ≠ name →
      Json.member? other (present (before ++ (Letter.ofText name, w) :: behind)) =
        Json.member? other (present (before ++ (Letter.ofText name, v) :: behind)) :=
    fun other hother => by
      have hne : Letter.ofText name ≠ Letter.ofText other :=
        fun heq => hother (Letter.ofText_injective heq).symm
      rw [member?_present_insert hne, member?_present_insert hne]
  -- the wire name is asked first, and the page name only if that gives nothing
  by_cases hwire : f.wire = name
  · subst hwire
    rw [member?_of_wire (member?_present_replace hbefore hw),
      member?_of_wire (member?_present_replace hbefore hv), Option.map_some, if_pos rfl]
  cases hread : Json.member? f.wire (present (before ++ (Letter.ofText name, v) :: behind)) with
  | some j =>
    rw [member?_of_wire hread, member?_of_wire ((hsame _ hwire).trans hread), Option.map_some,
      if_neg hwire]
  | none =>
    rw [member?_of_page hread, member?_of_page ((hsame _ hwire).trans hread), Option.map_map]
    by_cases hpage : f.page = name
    · subst hpage
      rw [member?_present_replace hbefore hw, member?_present_replace hbefore hv, Option.map_some,
        Option.map_some, Function.comp_apply, if_pos rfl]
    · rw [hsame _ hpage]
      exact Option.map_congr fun j _ => (if_neg hpage).symm

end FieldNames

variable {f : FieldNames} {check : Json → Checked α} {default : α} {ρ : List Text → List Text}

/-- What is read of a field from a member, if there is one. -/
def readFrom (check : Json → Checked α) (default : α) : Option (Text × Json) → Checked α
  | some (name, j) => (check j).within name
  | none => ⟨default, []⟩

theorem field_eq_readFrom (check : Json → Checked α) (default : α) (f : FieldNames) (ms : Members) :
    field check default f.wire f.page ms = readFrom check default (f.member? ms) := by
  rw [field, FieldNames.member?]
  cases Json.member? f.wire ms with
  | some j => rfl
  | none => cases Json.member? f.page ms <;> rfl

/-- Places in a member of an object, moved within it. -/
def inside (name : Text) (ρ : List Text → List Text) : List Text → List Text
  | [] => []
  | m :: place => m :: if m = name then ρ place else place

private theorem inside_self (name : Text) (ρ : List Text → List Text) (place : List Text) :
    inside name ρ (name :: place) = name :: ρ place := by
  rw [inside, if_pos rfl]

private theorem inside_of_ne {m : Text} (h : m ≠ name) (ρ : List Text → List Text) (place : List Text) :
    inside name ρ (m :: place) = m :: place := by
  rw [inside, if_neg h]

/-- A member with another value: a field that is read from it is read as its value is, and any other
as before. -/
theorem field_replace (hbefore : Letter.ofText name ∉ before.map (·.1)) (hv : v.isNull = false)
    (hw : w.isNull = false)
    (h : f.IsNamed (Letter.ofText name) → check w = (check v).relocate ρ) :
    field check default f.wire f.page (present (before ++ (Letter.ofText name, w) :: behind)) =
      (field check default f.wire f.page
        (present (before ++ (Letter.ofText name, v) :: behind))).relocate (inside name ρ) := by
  rw [field_eq_readFrom, field_eq_readFrom, FieldNames.member?_replace hbefore hv hw]
  cases hread : f.member? (present (before ++ (Letter.ofText name, v) :: behind)) with
  | none => rfl
  | some m =>
    obtain ⟨m, j⟩ := m
    obtain ⟨hnames, hvalue⟩ := FieldNames.of_member? hread
    rw [Option.map_some]
    by_cases hm : m = name
    · subst hm
      obtain rfl : j = v :=
        Option.some.inj (hvalue.symm.trans (member?_present_replace hbefore hv))
      rw [if_pos rfl, readFrom, readFrom, h ⟨m, hnames, rfl⟩]
      exact (Checked.relocate_within m fun place => inside_self m ρ place).symm
    · have hkept : ((check j).within m).relocate (inside name ρ) = (check j).within m := by
        rw [Checked.relocate_within m fun place => inside_of_ne hm ρ place]
        exact congrArg _ (Checked.relocate_id _)
      rw [if_neg hm, readFrom, hkept]

/-! ### Messages -/

/-- The fields of a request. -/
def requestFields : List FieldNames :=
  [("Scheme", "scheme"), ("LocalHostname", "local_hostname"), ("Port", "port"), ("Uri", "uri"),
   ("PathInfo", "path_info"), ("QueryArgs", "query_args"), ("Url", "url"), ("Method", "method"),
   ("RequestLine", "request_line"), ("RequestTime", "request_time"),
   ("RemoteHostname", "remote_hostname"), ("RemoteIp", "remote_ip"), ("Filename", "filename"),
   ("PostData", "post_data"), ("GetData", "get_data"), ("HeaderData", "header_data"),
   ("AdminEmail", "admin_email"), ("Environment", "environment")].map
    fun f => ⟨f.1.toList, f.2.toList⟩

/-- The field of an envelope that holds the request. -/
def userData : FieldNames := ⟨"UserData".toList, "user_data".toList⟩

/-- The fields of an envelope. -/
def envelopeFields : List FieldNames :=
  [userData, ⟨"GetPID".toList, "get_pid".toList⟩, ⟨"ExitNow".toList, "exit_now".toList⟩]

/-- No two fields share a name, and no field has one name twice. -/
structure AreDistinct (fs : List FieldNames) : Prop where
  own : ∀ f ∈ fs, f.wire ≠ f.page
  other : ∀ f ∈ fs, ∀ g ∈ fs, ∀ name ∈ f.names, name ∈ g.names → f = g

theorem areDistinct_requestFields : AreDistinct requestFields :=
  ⟨by decide +kernel, by decide +kernel⟩

theorem areDistinct_envelopeFields : AreDistinct envelopeFields :=
  ⟨by decide +kernel, by decide +kernel⟩

/-- Fields are read alike from two objects, but for the places of what is wrong. -/
def ReadAlike (fs : List FieldNames) (ρ : List Text → List Text) (ms ms' : Members) : Prop :=
  ∀ f ∈ fs, ∀ (α : Type) (check : Json → Checked α) (default : α),
    field check default f.wire f.page (present ms') =
      (field check default f.wire f.page (present ms)).relocate ρ

/-- A request whose fields are read alike is. -/
theorem request_relocate (h : ReadAlike requestFields ρ ms ms') :
    request (.object ms') = (request (.object ms)).relocate ρ := by
  simp only [ReadAlike, requestFields, List.map_cons, List.map_nil, List.forall_mem_cons] at h
  simp only [request, h, Checked.value_relocate, Checked.issues_relocate, ← List.map_append]
  rfl

/-- An envelope whose fields are read alike is. -/
theorem envelope_relocate
    (hrequest : field request {} "UserData".toList "user_data".toList (present ms') =
      (field request {} "UserData".toList "user_data".toList (present ms)).relocate ρ)
    (hgetPid : field flag false "GetPID".toList "get_pid".toList (present ms') =
      (field flag false "GetPID".toList "get_pid".toList (present ms)).relocate ρ)
    (hexitNow : field flag false "ExitNow".toList "exit_now".toList (present ms') =
      (field flag false "ExitNow".toList "exit_now".toList (present ms)).relocate ρ) :
    envelope (.object ms') = (envelope (.object ms)).relocate ρ := by
  simp only [envelope, hrequest, hgetPid, hexitNow, Checked.value_relocate,
    Checked.issues_relocate, ← List.map_append]
  rfl

end Shape

end ServerPages
