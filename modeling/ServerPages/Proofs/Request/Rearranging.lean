import ServerPages.Proofs.Request.Members

/-!
# Messages that are read alike

Clients differ in how they write a message: the members stand in any order, some are null, some are
unknown, and a field may be sent under either of its names. None of this changes what is read
(`Rearranged.readAlike`), on the level of the envelope and on that of the request in it, except that
a fault is named by the name under which its field was sent (`readAlike_respelled`).

The main statement is `envelope_rearranged`.
-/

namespace ServerPages

namespace Shape

variable {fs : List FieldNames} {f g : FieldNames} {ms ms' before behind a b : Members} {name : Text}
  {v : Json} {ρ : List Text → List Text}

/-! ### Members that do not matter -/

/-- Two objects differ in the order of their members, or in members that do not count among some
fields. -/
inductive Rearranged (fs : List FieldNames) : Members → Members → Prop
  /-- The members are in another order. -/
  | order {ms ms' : Members} (distinct : (ms.map (·.1)).Nodup) (perm : ms.Perm ms') :
    Rearranged fs ms ms'
  /-- There is one more, under a name that no field has. -/
  | unknown {name : List Letter} (h : ∀ f ∈ fs, ¬ f.IsNamed name) (value : Json) (ms : Members) :
    Rearranged fs ms ((name, value) :: ms)
  /-- There is one more, and it is null. -/
  | null (name : List Letter) (ms : Members) : Rearranged fs ms ((name, .null) :: ms)
  /-- There is one more, under the page name of a field that is sent under its wire name. -/
  | outranked {f : FieldNames} {wired : Json} {ms : Members} (hf : f ∈ fs)
    (mem : (Letter.ofText f.wire, wired) ∈ ms) (given : wired.isNull = false) (value : Json) :
    Rearranged fs ms ((Letter.ofText f.page, value) :: ms)
  | symm {ms ms' : Members} (h : Rearranged fs ms ms') : Rearranged fs ms' ms
  | trans {ms ms' ms'' : Members} (h : Rearranged fs ms ms') (h' : Rearranged fs ms' ms'') :
    Rearranged fs ms ms''

private theorem AreDistinct.not_isNamed (h : AreDistinct fs) (hf : f ∈ fs) (hg : g ∈ fs) (hne : g ≠ f)
    (hname : name ∈ f.names) : ¬ g.IsNamed (Letter.ofText name) := by
  rintro ⟨other, hother, heq⟩
  obtain rfl := Letter.ofText_injective heq
  exact hne (h.other g hg f hf name hother hname)

private theorem exists_member?_present (hmem : (Letter.ofText name, v) ∈ ms) (hv : v.isNull = false) :
    ∃ j, Json.member? name (present ms) = some j := by
  have hpresent : (Letter.ofText name, v) ∈ present ms := List.mem_filter.mpr ⟨hmem, by simp [hv]⟩
  cases hfind : Json.member? name (present ms) with
  | some j => exact ⟨j, rfl⟩
  | none =>
    rw [Json.member?, Option.map_eq_none_iff, List.find?_eq_none] at hfind
    exact absurd (decide_eq_true rfl) (hfind _ hpresent)

/-- A field that is sent under its wire name is read from there, whatever its page name has. -/
theorem member?_present_outranked (h : AreDistinct fs) (hf : f ∈ fs)
    (hmem : (Letter.ofText f.wire, v) ∈ ms) (hv : v.isNull = false) (value : Json) :
    f.member? (present ((Letter.ofText f.page, value) :: ms)) = f.member? (present ms) := by
  have hne : Letter.ofText f.page ≠ Letter.ofText f.wire :=
    fun heq => h.own f hf (Letter.ofText_injective heq).symm
  obtain ⟨j, hj⟩ := exists_member?_present hmem hv
  have hj' := (member?_present_insert hne [] ms value).trans hj
  rw [FieldNames.member?_of_wire hj]
  exact FieldNames.member?_of_wire hj'

private theorem Rearranged.member?_eq (hfs : AreDistinct fs) (h : Rearranged fs ms ms') (hf : f ∈ fs) :
    f.member? (present ms') = f.member? (present ms) := by
  induction h with
  | order distinct perm =>
    exact FieldNames.member?_congr (member?_present_perm distinct perm _)
      (member?_present_perm distinct perm _)
  | unknown h value ms => exact FieldNames.member?_insert (h f hf) [] ms value
  | null name ms => rw [present_cons_null]
  | @outranked g wired ms hg mem given value =>
    by_cases hfg : f = g
    · subst hfg
      exact member?_present_outranked hfs hf mem given value
    · have hnot := hfs.not_isNamed hg hf hfg g.page_mem_names
      exact FieldNames.member?_insert hnot [] ms value
  | symm _ ih => exact ih.symm
  | trans _ _ ih ih' => exact ih'.trans ih

theorem Rearranged.readAlike (hfs : AreDistinct fs) (h : Rearranged fs ms ms') :
    ReadAlike fs id ms ms' := by
  intro f hf α check default
  rw [field_eq_readFrom, field_eq_readFrom, h.member?_eq hfs hf, Checked.relocate_id]

/-! ### The other name -/

/-- Places with one name for another in front. -/
def renameHead (old new : Text) : List Text → List Text
  | [] => []
  | m :: place => (if m = old then new else m) :: place

/-- A member under the other name of its field is read in its place. -/
theorem member?_respelled (hfs : AreDistinct fs) (hf : f ∈ fs) (hg : g ∈ fs)
    (hwire : Letter.ofText f.wire ∉ (before ++ behind).map (·.1))
    (hpage : Letter.ofText f.page ∉ (before ++ behind).map (·.1)) (v : Json) :
    g.member? (present (before ++ (Letter.ofText f.wire, v) :: behind)) =
      (g.member? (present (before ++ (Letter.ofText f.page, v) :: behind))).map
        fun m => (if m.1 = f.page then f.wire else m.1, m.2) := by
  by_cases hgf : g = f
  · -- the field itself has no other member, and none at all if this one is null
    subst hgf
    have hne : Letter.ofText g.wire ≠ Letter.ofText g.page :=
      fun heq => hfs.own g hg (Letter.ofText_injective heq)
    have hnone : Json.member? g.wire
        (present (before ++ (Letter.ofText g.page, v) :: behind)) = none := by
      rw [member?_present_insert hne.symm, member?_present_of_not_mem hwire]
    have hself := member?_present_self hwire v
    rw [FieldNames.member?_of_page hnone, member?_present_self hpage]
    cases hv : v.isNull with
    | true =>
      rw [hv] at hself
      rw [FieldNames.member?_of_page hself, member?_present_insert hne,
        member?_present_of_not_mem hpage]
      rfl
    | false =>
      rw [hv] at hself
      rw [FieldNames.member?_of_wire hself]
      simp
  · -- any other field is read from another member, whose name stays
    have hother : ∀ m ∈ f.names, ¬ g.IsNamed (Letter.ofText m) :=
      fun m hm => hfs.not_isNamed hf hg hgf hm
    rw [FieldNames.member?_insert (hother _ f.wire_mem_names),
      FieldNames.member?_insert (hother _ f.page_mem_names)]
    cases hread : g.member? (present (before ++ behind)) with
    | none => rfl
    | some m =>
      have hm : m.1 ≠ f.page := fun hm =>
        hother _ f.page_mem_names ⟨_, (FieldNames.of_member? hread).1, congrArg _ hm.symm⟩
      rw [Option.map_some, if_neg hm]

private theorem readFrom_renamed {α : Type} (check : Json → Checked α) (default : α) (old new : Text)
    (m : Option (Text × Json)) :
    readFrom check default (m.map fun m => (if m.1 = old then new else m.1, m.2)) =
      (readFrom check default m).relocate (renameHead old new) := by
  cases m with
  | none => rfl
  | some m => simp [readFrom, Checked.within, Checked.relocate, renameHead]

/-- **Either name will do.** A member under the page name of its field is read as it is under the
wire name, and its faults are named by that name. -/
theorem readAlike_respelled (hfs : AreDistinct fs) (hf : f ∈ fs)
    (hwire : Letter.ofText f.wire ∉ (before ++ behind).map (·.1))
    (hpage : Letter.ofText f.page ∉ (before ++ behind).map (·.1)) (v : Json) :
    ReadAlike fs (renameHead f.page f.wire) (before ++ (Letter.ofText f.page, v) :: behind)
      (before ++ (Letter.ofText f.wire, v) :: behind) := by
  intro g hg α check default
  rw [field_eq_readFrom, field_eq_readFrom, member?_respelled hfs hf hg hwire hpage,
    readFrom_renamed]

/-! ### Whole messages -/

private theorem envelope_of_readAlike (h : ReadAlike envelopeFields ρ ms ms') :
    envelope (.object ms') = (envelope (.object ms)).relocate ρ := by
  simp only [ReadAlike, envelopeFields, List.forall_mem_cons] at h
  obtain ⟨hrequest, hgetPid, hexitNow, -⟩ := h
  exact envelope_relocate (hrequest _ _ _) (hgetPid _ _ _) (hexitNow _ _ _)

/-- An envelope with another request in it. -/
theorem envelope_replace (hname : name ∈ userData.names)
    (hbefore : Letter.ofText name ∉ before.map (·.1))
    (h : request (.object b) = (request (.object a)).relocate ρ) :
    envelope (.object (before ++ (Letter.ofText name, .object b) :: behind)) =
      (envelope (.object (before ++ (Letter.ofText name, .object a) :: behind))).relocate
        (inside name ρ) := by
  have hother : ∀ g ∈ envelopeFields, g ≠ userData → ¬ g.IsNamed (Letter.ofText name) :=
    fun g hg hne => areDistinct_envelopeFields.not_isNamed List.mem_cons_self hg hne hname
  refine envelope_relocate ?_ ?_ ?_
  · exact @field_replace _ before behind name _ _ userData request {} ρ hbefore rfl rfl fun _ => h
  · exact @field_replace _ before behind name _ _ ⟨"GetPID".toList, "get_pid".toList⟩ flag false ρ
      hbefore rfl rfl fun hnamed => absurd hnamed (hother _ (by decide) (by decide))
  · exact @field_replace _ before behind name _ _ ⟨"ExitNow".toList, "exit_now".toList⟩ flag false ρ
      hbefore rfl rfl fun hnamed => absurd hnamed (hother _ (by decide) (by decide))

/-- Two messages differ in the order of members, or in members that do not count, in the envelope or
in the request in it. -/
inductive Rearranges : Members → Members → Prop
  | envelope {ms ms' : Members} (h : Rearranged envelopeFields ms ms') : Rearranges ms ms'
  | request {before behind a b : Members} {name : Text} (hname : name ∈ userData.names)
    (distinct : ((before ++ (Letter.ofText name, .object a) :: behind).map (·.1)).Nodup)
    (h : Rearranged requestFields a b) :
    Rearranges (before ++ (Letter.ofText name, .object a) :: behind)
      (before ++ (Letter.ofText name, .object b) :: behind)
  | trans {ms ms' ms'' : Members} (h : Rearranges ms ms') (h' : Rearranges ms' ms'') :
    Rearranges ms ms''

/-- An object has a member under the wire name of its field that another has under the page name,
and neither has a second member of the field; places are named accordingly. -/
inductive Respelled (fs : List FieldNames) : (List Text → List Text) → Members → Members → Prop
  | intro {f : FieldNames} {before behind : Members} (hf : f ∈ fs)
    (hwire : Letter.ofText f.wire ∉ (before ++ behind).map (·.1))
    (hpage : Letter.ofText f.page ∉ (before ++ behind).map (·.1)) (value : Json) :
    Respelled fs (renameHead f.page f.wire) (before ++ (Letter.ofText f.page, value) :: behind)
      (before ++ (Letter.ofText f.wire, value) :: behind)

/-- Two messages differ in the name under which a field is sent, of the envelope or of the request
in it. -/
inductive Respells : (List Text → List Text) → Members → Members → Prop
  | envelope {ρ : List Text → List Text} {ms ms' : Members}
    (h : Respelled envelopeFields ρ ms ms') : Respells ρ ms ms'
  | request {ρ : List Text → List Text} {before behind a b : Members} {name : Text}
    (hname : name ∈ userData.names)
    (distinct : ((before ++ (Letter.ofText name, .object a) :: behind).map (·.1)).Nodup)
    (h : Respelled requestFields ρ a b) :
    Respells (inside name ρ) (before ++ (Letter.ofText name, .object a) :: behind)
      (before ++ (Letter.ofText name, .object b) :: behind)

private theorem not_mem_of_nodup (h : ((before ++ (Letter.ofText name, v) :: behind).map (·.1)).Nodup) :
    Letter.ofText name ∉ before.map (·.1) := by
  rw [List.map_append, List.map_cons] at h
  exact fun hmem => (List.nodup_append.mp h).2.2 _ hmem _ List.mem_cons_self rfl

private theorem inside_id (name : Text) : inside name id = id := by
  funext place
  cases place with
  | nil => rfl
  | cons m place => rw [inside, id, ite_self, id]

theorem Respelled.readAlike (hfs : AreDistinct fs) (h : Respelled fs ρ ms ms') :
    ReadAlike fs ρ ms ms' := by
  obtain ⟨hf, hwire, hpage, value⟩ := h
  exact readAlike_respelled hfs hf hwire hpage value

theorem Rearranges.envelope_eq (h : Rearranges ms ms') :
    Shape.envelope (.object ms') = Shape.envelope (.object ms) := by
  induction h with
  | envelope h =>
    rw [envelope_of_readAlike (h.readAlike areDistinct_envelopeFields), Checked.relocate_id]
  | request hname distinct h =>
    have hrequest := request_relocate (h.readAlike areDistinct_requestFields)
    rw [envelope_replace hname (not_mem_of_nodup distinct) hrequest, inside_id, Checked.relocate_id]
  | trans _ _ ih ih' => exact ih'.trans ih

theorem Respells.envelope_eq (h : Respells ρ ms ms') :
    Shape.envelope (.object ms') = (Shape.envelope (.object ms)).relocate ρ := by
  cases h with
  | envelope h => exact envelope_of_readAlike (h.readAlike areDistinct_envelopeFields)
  | request hname distinct h =>
    have hrequest := request_relocate (h.readAlike areDistinct_requestFields)
    exact envelope_replace hname (not_mem_of_nodup distinct) hrequest

/-- **What does not matter in a message.** The same envelope is read, or the same faults in the same
places are found, after the members of the envelope or of the request in it are put in another
order, and after members are added or taken away that are null, that no field is named by, or that
stand under the page name of a field whose wire name has a value. A field that is sent under its wire
name in place of its page name is read alike too, and its faults are named by the new name. -/
theorem envelope_rearranged (ms ms' : Members) :
    (Rearranges ms ms' →
      (envelope (.object ms')).toExcept = (envelope (.object ms)).toExcept) ∧
    ∀ ρ, Respells ρ ms ms' →
      (envelope (.object ms')).toExcept = (envelope (.object ms)).toExcept.mapError
        (List.map fun i => { i with place := ρ i.place }) := by
  refine ⟨fun h => ?_, fun ρ h => ?_⟩
  · rw [h.envelope_eq]
  · rw [h.envelope_eq, Checked.toExcept_relocate]

/-- A message with a wrong port, rearranged on both levels, and with the port under its other
name. -/
theorem envelope_rearranged_port :
    let member (name : String) (value : Json) := (Letter.ofText name.toList, value)
    let ms := [member "user_data" (.object [member "port" (.array [])]), member "GetPID" (.bool true)]
    let rearranged := [member "UserData" .null, member "GetPID" (.bool true),
      member "user_data" (.object [member "Novel" (.int 1), member "port" (.array [])])]
    let respelled := [member "user_data" (.object [member "Port" (.array [])]),
      member "GetPID" (.bool true)]
    let issue (name : String) : ShapeIssue := ⟨["user_data".toList, name.toList], .intType⟩
    (Rearranges ms rearranged ∧ (envelope (.object rearranged)).toExcept = .error [issue "port"]) ∧
    Respells (inside "user_data".toList (renameHead "port".toList "Port".toList)) ms respelled ∧
      (envelope (.object respelled)).toExcept = .error [issue "Port"] := by
  intro member ms rearranged respelled issue
  have hms : (envelope (.object ms)).toExcept = .error [issue "port"] := by decide +kernel
  have hname : "user_data".toList ∈ userData.names := by decide
  have hnovel : ∀ f ∈ requestFields, ¬ f.IsNamed (Letter.ofText "Novel".toList) := fun f hf => by
    rw [FieldNames.not_isNamed_iff]
    revert f
    decide +kernel
  have horder : Rearranges ms ms.reverse := .envelope (.order (by decide) (.swap ..))
  have hinner : Rearranges ms.reverse rearranged.tail :=
    @Rearranges.request [member "GetPID" (.bool true)] [] _ _ _ hname (by decide)
      (.unknown hnovel _ _)
  have hrearranges : Rearranges ms rearranged :=
    horder.trans (hinner.trans (.envelope (.null _ _)))
  have hport : ⟨"Port".toList, "port".toList⟩ ∈ requestFields := by decide
  have hrespells : Respells (inside "user_data".toList (renameHead "port".toList "Port".toList)) ms
      respelled :=
    @Respells.request _ [] _ _ _ _ hname (by decide)
      (@Respelled.intro _ _ [] [] hport List.not_mem_nil List.not_mem_nil _)
  refine ⟨⟨hrearranges, ?_⟩, hrespells, ?_⟩
  · rw [(envelope_rearranged ms rearranged).1 hrearranges, hms]
  · rw [(envelope_rearranged ms respelled).2 _ hrespells, hms]
    decide +kernel

end Shape

end ServerPages
