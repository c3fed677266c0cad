import ServerPages.Proofs.Json.Prospect.Objects
import ServerPages.Proofs.Request.Members

/-!
# Members that are taken back

The last value that is given to a name counts, and null counts as absent. So the members that an
object has so far can be taken back: behind them a null for each name that an envelope asks for
makes the object an envelope (`Shape.envelope_append_nulls`).
-/

namespace ServerPages

namespace Json

variable {ms nulls acc : List (List Letter × Json)} {name n : List Letter} {v w : Json}

/-! ### The value of a name -/

private theorem map_insert_subset (h : n ∈ (insert ms name v).map (·.1)) :
    n = name ∨ n ∈ ms.map (·.1) := by
  induction ms with
  | nil => exact .inl (List.mem_singleton.mp h)
  | cons m ms ih =>
    obtain ⟨n₀, v₀⟩ := m
    rw [insert] at h
    split at h
    · exact .inr h
    · rcases List.mem_cons.mp h with rfl | h
      · exact .inr List.mem_cons_self
      · exact (ih h).imp_right (List.mem_cons_of_mem _)

/-- No name is given twice. -/
theorem nodup_insert (h : (ms.map (·.1)).Nodup) : ((insert ms name v).map (·.1)).Nodup := by
  induction ms with
  | nil => exact List.nodup_cons.mpr ⟨List.not_mem_nil, List.nodup_nil⟩
  | cons m ms ih =>
    obtain ⟨n₀, v₀⟩ := m
    rw [List.map_cons, List.nodup_cons] at h
    rw [insert]
    split
    · exact List.nodup_cons.mpr h
    · next hne =>
      refine List.nodup_cons.mpr ⟨fun hmem => ?_, ih h.2⟩
      exact (map_insert_subset hmem).elim hne h.1

/-- Giving a value to a name leaves the values of other names. -/
theorem mem_insert (h : (ms.map (·.1)).Nodup) (hm : (n, w) ∈ insert ms name v) :
    (n = name ∧ w = v) ∨ (n ≠ name ∧ (n, w) ∈ ms) := by
  induction ms with
  | nil =>
    cases List.mem_singleton.mp hm
    exact .inl ⟨rfl, rfl⟩
  | cons m ms ih =>
    obtain ⟨n₀, v₀⟩ := m
    rw [List.map_cons, List.nodup_cons] at h
    rw [insert] at hm
    split at hm
    · next heq =>
      subst heq
      rcases List.mem_cons.mp hm with heq | hmem
      · cases heq
        exact .inl ⟨rfl, rfl⟩
      · refine .inr ⟨?_, List.mem_cons_of_mem _ hmem⟩
        rintro rfl
        exact h.1 (List.mem_map.mpr ⟨_, hmem, rfl⟩)
    · next hne =>
      rcases List.mem_cons.mp hm with heq | hmem
      · cases heq
        exact .inr ⟨hne, List.mem_cons_self⟩
      · exact (ih h.2 hmem).imp_right fun ⟨hn, hmem⟩ => ⟨hn, List.mem_cons_of_mem _ hmem⟩

/-- Gathers members behind others. -/
def gather (acc ms : List (List Letter × Json)) : List (List Letter × Json) :=
  ms.foldl (fun ms m => insert ms m.1 m.2) acc

private theorem nodup_gather (h : (acc.map (·.1)).Nodup) : ((gather acc ms).map (·.1)).Nodup := by
  induction ms generalizing acc with
  | nil => exact h
  | cons m ms ih => exact ih (nodup_insert h)

/-- Behind nulls, a name that one of them has is null. -/
theorem eq_null_of_mem_gather (h : (acc.map (·.1)).Nodup) (hnull : ∀ m ∈ nulls, m.2 = .null)
    (hmem : (n, v) ∈ gather acc nulls) : v = .null ∨ (n ∉ nulls.map (·.1) ∧ (n, v) ∈ acc) := by
  induction nulls generalizing acc with
  | nil => exact .inr ⟨List.not_mem_nil, hmem⟩
  | cons m nulls ih =>
    rw [List.forall_mem_cons] at hnull
    rcases ih (nodup_insert h) hnull.2 hmem with hv | ⟨hnames, hins⟩
    · exact .inl hv
    rcases mem_insert h hins with ⟨-, hv⟩ | ⟨hne, hacc⟩
    · exact .inl (hv.trans hnull.1)
    · refine .inr ⟨?_, hacc⟩
      rw [List.map_cons, List.mem_cons, not_or]
      exact ⟨hne, hnames⟩

/-! ### Nulls as text -/

/-- A null for each name, as members. -/
def nullsOf (names : List Text) : List (List Letter × Json) :=
  names.map (fun name => (Letter.ofText name, .null)) ++ [([], .null)]

/-- A null for each name, as text, with the closing brace. -/
def nullsText : List Text → Text
  | [] => "\"\":null\x7d".toList
  | name :: names => '"' :: (name ++ ("\":null,".toList ++ nullsText names))

private theorem spacedValue_null {depth : Nat} (t : Text) :
    spacedValue depth ("null".toList ++ t) = .ok (.null, t) := by
  have hread : constant? ("null".toList ++ t) = some (.null, t) :=
    constant?_eq_some_iff.mpr ⟨_, List.mem_cons_self, rfl⟩
  have hscalar : readValue depth ("null".toList ++ t) = readScalar ("null".toList ++ t) :=
    readValue_scalar (by simp)
  show took (readValue depth ("null".toList ++ t)) = _
  rw [hscalar, took_readScalar_constant hread]

private theorem spacedMembers_nullsText {depth : Nat} {names : List Text}
    (h : ∀ name ∈ names, IsPlainText name) :
    spacedMembers depth (nullsText names) = .ok (nullsOf names, []) := by
  induction names with
  | nil =>
    exact took_readMembers_last took_readString_quote (skipSpace_cons (by decide))
      (spacedValue_null _) (skipSpace_cons (by decide))
  | cons name names ih =>
    rw [List.forall_mem_cons] at h
    have hmore : spacedMembers depth (nullsText (name :: names)) =
        (spacedMembers depth (nullsText names)).map
          fun p => ((Letter.ofText name, .null) :: p.1, p.2) :=
      took_readMembers_more (took_readString_plainText h.1) (skipSpace_cons (by decide))
        (spacedValue_null _) (skipSpace_cons (by decide))
    rw [hmore, ih h.2]
    rfl

/-- An object that stops within a constant can be completed so that nulls are its last members. -/
theorem exists_read_nulls {rest : Text} (names : List Text)
    (hr : read ('\x7b' :: s) = .error (.refused .expectingValue rest))
    (ha : Complaint.expectingValue.Awaits rest)
    (hnames : ∀ name ∈ names, IsPlainText name) :
    ∃ u ms, read ('\x7b' :: (s ++ u)) = .ok (ofMembers (ms ++ nullsOf names), []) := by
  cases hs : skipSpace s with
  | nil =>
    rw [read_object (by simp [hs]), spacedMembers_nil hs] at hr
    cases hr
  | cons c t =>
    by_cases hc : c = '\x7d'
    · subst hc
      cases hr.symm.trans (took_readValue_emptyObject hs)
    have hopen : ∀ u t', skipSpace (s ++ u) ≠ '\x7d' :: t' := fun u t' ht' =>
      hc (List.cons_eq_cons.mp ((skipSpace_append_cons hs u).symm.trans ht')).1
    have hopen₀ : ∀ t', skipSpace s ≠ '\x7d' :: t' := fun t' ht' =>
      hc (List.cons_eq_cons.mp (hs.symm.trans ht')).1
    obtain ⟨u, ms, hu⟩ := isContinuable_of_refused hopen₀ hr ha
    refine ⟨u ++ ',' :: nullsText names, ms, ?_⟩
    rw [read_object (hopen _), hu, spacedMembers_nullsText hnames]
    rfl

end Json

/-! ### Envelopes -/

namespace Shape

open Json (gather nullsOf)

variable {ms : List (List Letter × Json)} {name : Text}

private theorem field_absent {α : Type} {check : Json → Checked α} {default : α} {wire page : Text}
    (hwire : Json.member? wire ms = none) (hpage : Json.member? page ms = none) :
    field check default wire page ms = ⟨default, []⟩ := by
  rw [field, hwire]
  dsimp only
  rw [hpage]

/-- The names that an envelope asks for. -/
def envelopeNames : List Text :=
  ["UserData", "user_data", "GetPID", "get_pid", "ExitNow", "exit_now"].map String.toList

/-- **Members are taken back.** Behind any members, nulls for the names of an envelope make an
empty one. -/
theorem envelope_append_nulls (ms : List (List Letter × Json)) :
    (envelope (Json.ofMembers (ms ++ nullsOf envelopeNames))).toExcept = .ok {} := by
  have hnames : ∀ name ∈ envelopeNames,
      Letter.ofText name ∈ (nullsOf envelopeNames).map (·.1) := by decide
  have hnulls : ∀ m ∈ nullsOf envelopeNames, m.2 = .null := fun m hm => by
    rcases List.mem_append.mp hm with hm | hm
    · obtain ⟨name, -, rfl⟩ := List.mem_map.mp hm
      rfl
    · rw [List.mem_singleton.mp hm]
  have hsplit : Json.ofMembers (ms ++ nullsOf envelopeNames) =
      .object (gather (gather [] ms) (nullsOf envelopeNames)) := by
    rw [Json.ofMembers, List.foldl_append]
    rfl
  have habsent : ∀ name ∈ envelopeNames, Json.member? name
      (present (gather (gather [] ms) (nullsOf envelopeNames))) = none := fun name hname => by
    have hnodup : ((gather [] ms).map (·.1)).Nodup := @Json.nodup_gather ms [] List.nodup_nil
    exact member?_present fun v hv =>
      (Json.eq_null_of_mem_gather hnodup hnulls hv).resolve_right
        fun ⟨hnot, _⟩ => hnot (hnames name hname)
  rw [hsplit, envelope, field_absent (habsent _ (by decide)) (habsent _ (by decide)),
    field_absent (habsent _ (by decide)) (habsent _ (by decide)),
    field_absent (habsent _ (by decide)) (habsent _ (by decide))]
  rfl

end Shape

end ServerPages
