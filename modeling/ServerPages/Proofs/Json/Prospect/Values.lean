import ServerPages.Proofs.Json.Prospect.Numbers
import ServerPages.Proofs.Json.Prospect.Strings

/-!
# Values that go on

What more text can make of a value, of the items of an array and of the members of an object. Both
containers are rows of elements with a value in each (`Element`), and what more text can make of a
row follows from what it can make of the value (`Element.prospect`). A row that stops too early is
mended so that more elements can be put behind it (`IsContinuable`).
-/

namespace ServerPages

namespace Json

variable {s t r x w tail : Text} {depth : Nat}

/-! ### Blanks -/

private theorem skipSpace_append_of_ne_nil (h : skipSpace s ≠ []) (u : Text) :
    skipSpace (s ++ u) = skipSpace s ++ u := dropWhile_append_of_ne_nil h u

private theorem skipSpace_append_of_nil (h : skipSpace s = []) (u : Text) :
    skipSpace (s ++ u) = skipSpace u := dropWhile_append_of_eq_nil h u

theorem skipSpace_suffix (s : Text) : skipSpace s <:+ s := List.dropWhile_suffix _

theorem skipSpace_append_cons {c : Char} (h : skipSpace s = c :: t) (u : Text) :
    skipSpace (s ++ u) = c :: (t ++ u) := by
  rw [skipSpace_append_of_ne_nil (by rw [h]; exact List.cons_ne_nil c t), h, List.cons_append]

theorem suffix_of_skipSpace {c : Char} (h : skipSpace s = c :: t) : t <:+ s :=
  (List.suffix_cons c t).trans (h ▸ skipSpace_suffix s)

/-! ### Readers behind blanks -/

/-- Reads a value. -/
abbrev valueReading (depth : Nat) : Reading Json := fun s => took (readValue depth s)

/-- Reads blanks and a value. -/
def spacedValue (depth : Nat) : Reading Json := fun s => took (readValue depth (skipSpace s))

/-- Reads blanks, the items of an array and its closing bracket. -/
def spacedItems (depth : Nat) : Reading (List Json) :=
  fun s => took (readItems (readValue depth) (skipSpace s))

/-- Reads blanks, the members of an object and its closing brace. -/
def spacedMembers (depth : Nat) : Reading (List (List Letter × Json)) :=
  fun s => took (readMembers (readValue depth) (skipSpace s))

/-- How deep containers may nest within the outermost one. -/
def innerLimit : Nat := nestingLimit - 1

/-- A text that some text behind it makes a beginning of a row to which more elements can be
added. -/
def IsContinuable {α : Type} (R : Reading (List α)) (s : Text) : Prop :=
  ∃ u as, ∀ t, R (s ++ (u ++ ',' :: t)) = (R t).map fun p => (as ++ p.1, p.2)

/-! ### Numbers -/

/-- A zero is read where nothing continues it. -/
theorem spacedValue_zero (h : Stops w) : spacedValue depth ('0' :: w) = .ok (.int 0, w) :=
  NumberText.took_readValue ⟨false, .zero, .inl rfl, none, none⟩ h

private theorem skipSpace_ne_nil_of_number {n : NumberText} (hn : skipSpace x = n.text ++ tail) :
    skipSpace x ≠ [] := fun hnil => by
  obtain ⟨c, u, hc, -⟩ := n.exists_cons
  rw [hnil, hc] at hn
  cases hn

/-- Behind blanks, a number is read as its value where nothing continues it. -/
theorem spacedValue_number {n : NumberText} {u : Text} (hn : skipSpace x = n.text ++ tail)
    (hu : Stops (tail ++ u)) :
    spacedValue depth (x ++ u) = n.numeral.value.map fun j => (j, tail ++ u) := by
  rw [spacedValue, skipSpace_append_of_ne_nil (skipSpace_ne_nil_of_number hn), hn,
    List.append_assoc, n.took_readValue hu]

/-- A zero completes a number that has come to its point or its exponent. -/
theorem spacedValue_resumed {n : NumberText} (hn : skipSpace x = n.text ++ tail)
    (ht : n.Resumes tail) (hne : tail ≠ []) :
    ∃ j, ∀ w, Stops w → spacedValue depth (x ++ (['0'] ++ w)) = .ok (j, w) := by
  obtain ⟨n', hn', j, hj⟩ := ht.exists_number hne
  have hzero : skipSpace (x ++ ['0']) = n'.text ++ [] := by
    rw [skipSpace_append_of_ne_nil (skipSpace_ne_nil_of_number hn), hn, hn', List.append_nil,
      List.append_assoc]
  refine ⟨j, fun w hw => ?_⟩
  rw [← List.append_assoc, spacedValue_number hzero hw, hj]
  rfl

/-! ### Rows of elements -/

/-- What more text can make of a value, perhaps behind blanks. -/
def ValueProspect (depth : Nat) (x : Text) : Prop :=
  IsOpenNumber (skipSpace x) ∨ Prospect (spacedValue depth) x (IsClosable (spacedValue depth) x)

/-- A text that begins a row with an element whose value, perhaps behind blanks, begins at `x`.
The element that has the value `v` is `m v`. -/
structure Element {α : Type} (depth : Nat) (R : Reading (List α)) (close : Char) (m : Json → α)
    (s x : Text) : Prop where
  suffix : x <:+ s
  isClose : close = ']' ∨ close = '\x7d'
  error : ∀ u {e}, spacedValue depth (x ++ u) = .error e → R (s ++ u) = .error e
  last : ∀ u {v r t}, spacedValue depth (x ++ u) = .ok (v, r) → skipSpace r = close :: t →
    R (s ++ u) = .ok ([m v], t)
  more : ∀ u {v r t}, spacedValue depth (x ++ u) = .ok (v, r) → skipSpace r = ',' :: t →
    R (s ++ u) = (R t).map fun p => (m v :: p.1, p.2)
  other : ∀ u {v r}, spacedValue depth (x ++ u) = .ok (v, r) →
    (∀ t, skipSpace r ≠ close :: t) → (∀ t, skipSpace r ≠ ',' :: t) →
    R (s ++ u) = .error (.refused .expectingComma (skipSpace r))

namespace Element

variable {α : Type} {R : Reading (List α)} {close : Char} {m : Json → α}
  (h : Element depth R close m s x)
include h

/-- A row can be gone on with if some text completes its value. -/
theorem isContinuable (hx : IsClosable (spacedValue depth) x) : IsContinuable R s := by
  obtain ⟨u, j, hu⟩ := hx
  exact ⟨u, [m j], fun t => h.more _ (hu _ (stops_cons (by decide))) (skipSpace_cons (by decide))⟩

/-- A row that ends behind a value expects a comma. -/
theorem refused_of_nil {u r : Text} {v : Json} (hv : spacedValue depth (x ++ u) = .ok (v, r))
    (hr : skipSpace r = []) : R (s ++ u) = .error (.refused .expectingComma []) := by
  rw [h.other u hv (by simp [hr]) (by simp [hr]), hr]

/-- A row that stops within a number. -/
theorem prospect_of_isOpenNumber (hx : IsOpenNumber (skipSpace x)) :
    Prospect R s (IsContinuable R s) := by
  obtain ⟨n, tail, hn, ht⟩ := id hx
  have hread : ∀ {u}, Stops (tail ++ u) →
      spacedValue depth (x ++ u) = n.numeral.value.map fun j => (j, tail ++ u) :=
    spacedValue_number hn
  have hend : Stops (tail ++ []) := by
    rw [List.append_nil]
    exact ht.isTail.stops
  rcases n.numeral.value_cases with ⟨j, hj⟩ | ⟨k, hk⟩
  · rw [hj] at hread
    by_cases htail : tail = []
    · subst htail
      exact .awaiting (of_append_nil (h.refused_of_nil (hread hend) rfl)) rfl
        (h.isContinuable ⟨[], j, fun w hw => hread hw⟩)
    obtain ⟨j', hzero⟩ : ∃ j', ∀ w, Stops w →
        spacedValue depth (x ++ (['0'] ++ w)) = .ok (j', w) := spacedValue_resumed hn ht htail
    have hskip : skipSpace (tail ++ []) = tail := by
      rw [List.append_nil, ht.isTail.skipSpace_eq]
    refine .resuming (of_append_nil ?_) ht.isTail htail ?_ (h.isContinuable ⟨['0'], j', hzero⟩)
    · have hclose : close ∈ " \t\n\r,:]\x7d".toList := by
        rcases h.isClose with rfl | rfl <;> decide
      rw [h.other [] (hread hend), hskip]
      · rw [hskip]
        exact ht.isTail.ne_cons hclose
      · rw [hskip]
        exact ht.isTail.ne_cons (by decide)
    · exact h.refused_of_nil (hzero [] NumberText.IsTail.nil.stops) rfl
  · rw [hk] at hread
    exact .overflowing (of_append_nil (h.error [] (hread hend)))
      (exists_getLast?_of_suffix ((skipSpace_suffix x).trans h.suffix) hx.exists_last)

/-- **Rows that go on.** What more text can make of a row follows from what it can make of the
value of its first element and of the row behind that. -/
theorem prospect (hx : ValueProspect depth x)
    (ih : ∀ t : Text, t.length < s.length → Prospect R t (IsContinuable R t)) :
    Prospect R s (IsContinuable R s) := by
  rcases hx with hx | hx
  · exact h.prospect_of_isOpenNumber hx
  -- a value that is there stays, and what stands behind it decides
  cases hv : spacedValue depth x with
  | error e => exact hx.lift_error hv h.suffix h.error h.isContinuable
  | ok p =>
    obtain ⟨v, r⟩ := p
    obtain ⟨hr, hread⟩ := hx.of_ok hv
    cases hs : skipSpace r with
    | nil =>
      have hs' : skipSpace (r ++ []) = [] := by rwa [List.append_nil]
      refine .awaiting (of_append_nil (h.refused_of_nil (hread []) hs')) rfl
        ⟨[], [m v], fun t => ?_⟩
      refine h.more _ (hread _) ?_
      rw [skipSpace_append_of_nil hs]
      exact skipSpace_cons (by decide)
    | cons c t =>
      have hct : c :: t <:+ s := hs ▸ (skipSpace_suffix r).trans (hr.trans h.suffix)
      have ht : t <:+ s := (List.suffix_cons c t).trans hct
      by_cases hclose : c = close
      · subst hclose
        exact .taken (a := [m v]) ht fun u => h.last u (hread u) (skipSpace_append_cons hs u)
      by_cases hcomma : c = ','
      · subst hcomma
        have hmore : ∀ u, R (s ++ u) = (R (t ++ u)).map fun p => (m v :: p.1, p.2) :=
          fun u => h.more u (hread u) (skipSpace_append_cons hs u)
        refine (ih t hct.length_le).lift ht hmore fun ⟨u, as, hu⟩ => ⟨u, m v :: as, fun w => ?_⟩
        rw [hmore, hu]
        cases R w <;> rfl
      · refine .failed (e := .refused .expectingComma (c :: t)) (fun u => ?_) (List.cons_ne_nil c t)
        have hskip := skipSpace_append_cons hs u
        rw [h.other u (hread u), hskip]
        · rfl
        · rw [hskip]
          exact fun t' ht' => hclose (List.cons_eq_cons.mp ht').1
        · rw [hskip]
          exact fun t' ht' => hcomma (List.cons_eq_cons.mp ht').1

end Element

/-! ### Items -/

theorem element_items (s : Text) : Element depth (spacedItems depth) ']' id s s where
  suffix := List.suffix_rfl
  isClose := .inl rfl
  error _ _ h := took_readItems_error h
  last _ _ _ _ h hr := took_readItems_last h hr
  more _ _ _ _ h hr := took_readItems_more h hr
  other _ _ _ h hclose hcomma := readItems_expectingComma h hclose hcomma

private theorem items_prospect (hvalue : ∀ x, ValueProspect depth x) (s : Text) :
    Prospect (spacedItems depth) s (IsContinuable (spacedItems depth) s) := by
  induction hlen : s.length using Nat.strong_induction_on generalizing s with
  | _ k ih =>
  exact (element_items s).prospect (hvalue s) fun t ht => ih t.length (hlen ▸ ht) t rfl

/-! ### Members -/

section Members

variable {name : List Letter}

/-- A name and a colon begin a member. -/
theorem element_members {s₁ r₁ s₂ : Text} (hs : skipSpace s = '"' :: s₁) (hr₁ : r₁ <:+ s₁)
    (hname : ∀ opening u, took (readString opening (s₁ ++ u)) = .ok (name, r₁ ++ u))
    (hcolon : skipSpace r₁ = ':' :: s₂) :
    Element depth (spacedMembers depth) '\x7d' (fun v => (name, v)) s s₂ := by
  have hsplit : ∀ u, spacedMembers depth (s ++ u) =
      took (readMembers (readValue depth) ('"' :: (s₁ ++ u))) := fun u => by
    rw [spacedMembers, skipSpace_append_cons hs]
  have hcolon' : ∀ u, skipSpace (r₁ ++ u) = ':' :: (s₂ ++ u) := skipSpace_append_cons hcolon
  refine ⟨(suffix_of_skipSpace hcolon).trans (hr₁.trans (suffix_of_skipSpace hs)), .inr rfl,
    fun u _ h => ?_, fun u _ _ _ h hr => ?_, fun u _ _ _ h hr => ?_,
    fun u _ _ h hclose hcomma => ?_⟩
  all_goals rw [hsplit]
  · exact readMembers_value_error (hname _ u) (hcolon' u) h
  · exact took_readMembers_last (hname _ u) (hcolon' u) h hr
  · exact took_readMembers_more (hname _ u) (hcolon' u) h hr
  · exact readMembers_expectingComma (hname _ u) (hcolon' u) h hclose hcomma

theorem readMembers_expectingName {value : ValueReader} (h : s.head? ≠ some '"') :
    took (readMembers value s) = .error (.refused .expectingName s) := by
  rw [readMembers]
  · rfl
  · rintro t rfl
    exact h rfl

theorem spacedMembers_nil (hs : skipSpace s = []) :
    spacedMembers depth s = .error (.refused .expectingName []) := by
  rw [spacedMembers, hs, readMembers_expectingName (by simp)]

/-- A string that is still open can become the name of a member. -/
theorem isContinuable_of_name {s₁ u : Text} {marks : List Mark} (hs : skipSpace s = '"' :: s₁)
    (hu : s₁ ++ u = closedText marks) : IsContinuable (spacedMembers depth) s := by
  refine ⟨u ++ ":0".toList, [(letters marks, .int 0)], fun t => ?_⟩
  have hname : took (readString ('"' :: (s₁ ++ (u ++ ":0".toList ++ ',' :: t)))
      (s₁ ++ (u ++ ":0".toList ++ ',' :: t))) = .ok (letters marks, ":0".toList ++ ',' :: t) := by
    rw [← List.append_assoc, ← List.append_assoc, hu, List.append_assoc]
    exact took_readString marks _
  rw [spacedMembers, skipSpace_append_cons hs]
  exact took_readMembers_more hname (skipSpace_cons (by decide))
    (spacedValue_zero (stops_cons (by decide))) (skipSpace_cons (by decide))

/-- What more text can make of members behind the name of the first. -/
theorem members_prospect_of_name {s₁ r₁ : Text} (hvalue : ∀ x, ValueProspect depth x)
    (ih : ∀ t : Text, t.length < s.length →
      Prospect (spacedMembers depth) t (IsContinuable (spacedMembers depth) t))
    (hs : skipSpace s = '"' :: s₁) (hr₁ : r₁ <:+ s₁)
    (hname : ∀ opening u, took (readString opening (s₁ ++ u)) = .ok (name, r₁ ++ u)) :
    Prospect (spacedMembers depth) s (IsContinuable (spacedMembers depth) s) := by
  have hother : ∀ u, (∀ t, skipSpace (r₁ ++ u) ≠ ':' :: t) → spacedMembers depth (s ++ u) =
      .error (.refused .expectingColon (skipSpace (r₁ ++ u))) := fun u h => by
    rw [spacedMembers, skipSpace_append_cons hs]
    exact readMembers_expectingColon (hname _ u) h
  cases hcolon : skipSpace r₁ with
  | nil =>
    have hnil : skipSpace (r₁ ++ []) = [] := by rwa [List.append_nil]
    refine .awaiting (e := .refused .expectingColon []) (of_append_nil ?_) rfl
      ⟨":0".toList, [(name, .int 0)], fun t => ?_⟩
    · rw [hother [] (by rw [hnil]; exact fun _ => nofun), hnil]
    · rw [spacedMembers, skipSpace_append_cons hs]
      refine took_readMembers_more (hname _ _) ?_ (spacedValue_zero (stops_cons (by decide)))
        (skipSpace_cons (by decide))
      rw [skipSpace_append_of_nil hcolon]
      exact skipSpace_cons (by decide)
  | cons d s₂ =>
    by_cases hd : d = ':'
    · subst hd
      exact (element_members hs hr₁ hname hcolon).prospect (hvalue s₂) ih
    · have hskip := skipSpace_append_cons hcolon
      refine .failed (e := .refused .expectingColon (d :: s₂)) (fun u => ?_) (List.cons_ne_nil d s₂)
      rw [hother u fun t ht => hd (List.cons_eq_cons.mp ((hskip u).symm.trans ht)).1, hskip]
      rfl

theorem members_prospect (hvalue : ∀ x, ValueProspect depth x) (s : Text) :
    Prospect (spacedMembers depth) s (IsContinuable (spacedMembers depth) s) := by
  induction hlen : s.length using Nat.strong_induction_on generalizing s with
  | _ k ih =>
  cases hs : skipSpace s with
  | nil =>
    refine .awaiting (spacedMembers_nil hs) rfl
      ⟨"\"\":0".toList, [([], .int 0)], fun t => ?_⟩
    rw [spacedMembers, skipSpace_append_of_nil hs]
    exact took_readMembers_more took_readString_quote (skipSpace_cons (by decide))
      (spacedValue_zero (stops_cons (by decide))) (skipSpace_cons (by decide))
  | cons c s₁ =>
    by_cases hc : c = '"'
    · subst hc
      cases string_prospect s₁ with
      | taken name hr₁ hname =>
        exact members_prospect_of_name hvalue (fun t ht => ih t.length (hlen ▸ ht) t rfl) hs
          hr₁ hname
      | failed h ha =>
        refine .failed (fun u => ?_) ha
        rw [spacedMembers, skipSpace_append_cons hs]
        exact readMembers_name_error (h _ u)
      | awaiting h hm =>
        obtain ⟨e, he, ha⟩ := h ('"' :: s₁)
        obtain ⟨u, marks, hu⟩ := hm
        refine .awaiting (e := e) ?_ ha (isContinuable_of_name hs hu)
        rw [spacedMembers, hs]
        exact readMembers_name_error he
    · refine .failed (e := .refused .expectingName (c :: s₁)) (fun u => ?_)
        (List.cons_ne_nil c s₁)
      rw [spacedMembers, skipSpace_append_cons hs]
      exact readMembers_expectingName fun hhead => hc (Option.some.inj hhead)

end Members

/-! ### Values -/

/-- A string as a value. -/
theorem string_value_prospect (s : Text) :
    Prospect (valueReading depth) ('"' :: s) (IsClosable (valueReading depth) ('"' :: s)) := by
  have hread : ∀ u, valueReading depth ('"' :: s ++ u) =
      (took (readString ('"' :: (s ++ u)) (s ++ u))).map fun p => (.string p.1, p.2) :=
    fun u => took_readValue_string
  cases string_prospect s with
  | taken ls hsuffix h =>
    refine .taken (a := .string ls) (hsuffix.trans (List.suffix_cons '"' s)) fun u => ?_
    rw [hread, h]
    rfl
  | failed h ha =>
    refine .failed (fun u => ?_) ha
    rw [hread, h]
    rfl
  | awaiting h hm =>
    obtain ⟨e, he, ha⟩ := h ('"' :: s)
    obtain ⟨u, marks, hu⟩ := hm
    refine .awaiting (e := e) (of_append_nil ?_) ha ⟨u, .string (letters marks), fun w _ => ?_⟩
    · rw [hread, List.append_nil, he]
      rfl
    · rw [hread, ← List.append_assoc, hu, took_readString]
      rfl

/-- A container behind its opening: an empty one is closed, any other one is a row. -/
theorem container_prospect {α : Type} {V : Reading Json} {R : Reading (List α)}
    {opening : Char} {empty : Json} {f : List α → Json} {as' : List α} (close : Char) (last : Text)
    (hclose : isSpace close = false)
    (hempty : ∀ {s t}, skipSpace s = close :: t → V (opening :: s) = .ok (empty, t))
    (hrow : ∀ {s}, (∀ t, skipSpace s ≠ close :: t) →
      V (opening :: s) = (R s).map fun p => (f p.1, p.2))
    (hblank : ∀ {s}, skipSpace s = [] → ∃ e, R s = .error e ∧ e.Awaits)
    (hlast : ∀ w, R (last ++ w) = .ok (as', w)) (h : Prospect R s (IsContinuable R s)) :
    Prospect V (opening :: s) (IsClosable V (opening :: s)) := by
  cases hs : skipSpace s with
  | nil =>
    obtain ⟨e, he, ha⟩ := hblank hs
    refine .awaiting (e := e) ?_ ha ⟨[close], empty, fun w _ => hempty ?_⟩
    · rw [hrow (by simp [hs]), he]
      rfl
    · show skipSpace (s ++ close :: w) = close :: w
      rw [skipSpace_append_of_nil hs]
      exact skipSpace_cons hclose
  | cons c t =>
    by_cases hc : c = close
    · subst hc
      exact .taken (a := empty) ((suffix_of_skipSpace hs).trans (List.suffix_cons opening s))
        fun u => hempty (skipSpace_append_cons hs u)
    · have hopen : ∀ u, V (opening :: s ++ u) = (R (s ++ u)).map fun p => (f p.1, p.2) :=
        fun u => hrow fun t' ht' =>
          hc (List.cons_eq_cons.mp ((skipSpace_append_cons hs u).symm.trans ht')).1
      refine h.lift (List.suffix_cons opening s) hopen fun ⟨u, as, hu⟩ =>
        ⟨u ++ ',' :: last, f (as ++ as'), fun w _ => ?_⟩
      rw [hopen, List.append_assoc, List.cons_append, hu, hlast]
      rfl

theorem spacedValue_nil (hs : skipSpace s = []) :
    spacedValue depth s = .error (.refused .expectingValue []) := by
  rw [spacedValue, hs, readValue_scalar (by simp)]
  rfl

private theorem array_prospect (h : Prospect (spacedItems depth) s (IsContinuable (spacedItems depth) s)) :
    Prospect (valueReading (depth + 1)) ('[' :: s)
      (IsClosable (valueReading (depth + 1)) ('[' :: s)) :=
  container_prospect ']' "0]".toList (by decide) took_readValue_emptyArray
    took_readValue_array
    (fun hs => ⟨_, took_readItems_error (spacedValue_nil hs), by decide⟩)
    (fun w => took_readItems_last (spacedValue_zero (stops_cons (by decide)))
      (skipSpace_cons (by decide))) h

private theorem object_prospect
    (h : Prospect (spacedMembers depth) s (IsContinuable (spacedMembers depth) s)) :
    Prospect (valueReading (depth + 1)) ('\x7b' :: s)
      (IsClosable (valueReading (depth + 1)) ('\x7b' :: s)) :=
  container_prospect '\x7d' "\"\":0\x7d".toList (by decide)
    took_readValue_emptyObject took_readValue_object
    (fun hs => ⟨_, spacedMembers_nil hs, rfl⟩)
    (fun w => took_readMembers_last took_readString_quote (skipSpace_cons (by decide))
      (spacedValue_zero (stops_cons (by decide))) (skipSpace_cons (by decide))) h

/-- Within the outermost array, items are read. -/
theorem read_array (h : ∀ t, skipSpace s ≠ ']' :: t) :
    read ('[' :: s) = (spacedItems innerLimit s).map fun p => (.array p.1, p.2) :=
  took_readValue_array h

/-- Within the outermost object, members are read. -/
theorem read_object (h : ∀ t, skipSpace s ≠ '\x7d' :: t) :
    read ('\x7b' :: s) = (spacedMembers innerLimit s).map fun p => (ofMembers p.1, p.2) :=
  took_readValue_object h

/-- Blanks before a value do not change what more text can make of it. -/
theorem valueProspect_of_value
    (h : ∀ s, IsOpenNumber s ∨ Prospect (valueReading depth) s (IsClosable (valueReading depth) s))
    (x : Text) : ValueProspect depth x := by
  by_cases hx : skipSpace x = []
  · refine .inr (.awaiting (spacedValue_nil hx) (by decide) ⟨['0'], .int 0, fun w hw => ?_⟩)
    rw [spacedValue, skipSpace_append_of_nil hx]
    exact spacedValue_zero hw
  · have hspaced : ∀ u, spacedValue depth (x ++ u) = valueReading depth (skipSpace x ++ u) :=
      fun u => by rw [spacedValue, skipSpace_append_of_ne_nil hx]
    refine (h (skipSpace x)).imp_right fun h => ?_
    refine h.lift (f := id) (skipSpace_suffix x) (fun u => ?_)
      fun ⟨u, j, hu⟩ => ⟨u, j, fun w hw => ?_⟩
    · rw [hspaced]
      cases valueReading depth (skipSpace x ++ u) <;> rfl
    · rw [hspaced, hu w hw]

theorem exists_opening (hs : ¬ ∀ c ∈ s.head?, c ≠ '"' ∧ c ≠ '[' ∧ c ≠ '\x7b') :
    ∃ c t, s = c :: t ∧ (c = '"' ∨ c = '[' ∨ c = '\x7b') := by
  cases s with
  | nil => exact absurd (by simp) hs
  | cons c t =>
    refine ⟨c, t, rfl, ?_⟩
    by_contra hne
    simp only [not_or] at hne
    exact hs fun d hd => by rwa [← Option.some.inj hd]

/-- What begins neither a string nor a container is a constant or a number. -/
theorem value_prospect_of_scalar (hs : ∀ c ∈ s.head?, c ≠ '"' ∧ c ≠ '[' ∧ c ≠ '\x7b') :
    IsOpenNumber s ∨ Prospect (valueReading depth) s (IsClosable (valueReading depth) s) := by
  by_cases hne : s = []
  · subst hne
    exact .inr (.awaiting (spacedValue_nil (s := []) rfl) (by decide)
      ⟨['0'], .int 0, fun w hw => spacedValue_zero hw⟩)
  have hread : ∀ u, valueReading depth (s ++ u) = scalarReading (s ++ u) := fun u => by
    obtain ⟨c, t, rfl⟩ := List.exists_cons_of_ne_nil hne
    exact congrArg took (readValue_scalar hs)
  refine (scalar_prospect hne).imp_right fun h => ?_
  refine h.lift (f := id) List.suffix_rfl (fun u => ?_) fun ⟨u, j, hu⟩ => ⟨u, j, fun w hw => ?_⟩
  · rw [hread]
    cases scalarReading (s ++ u) <;> rfl
  · rw [hread, hu w hw]

/-- **Values that go on.** A text that begins a value ends within a number, or has the prospects
that `Prospect` lists. -/
theorem value_prospect (depth : Nat) (s : Text) :
    IsOpenNumber s ∨ Prospect (valueReading depth) s (IsClosable (valueReading depth) s) := by
  induction depth generalizing s with
  | zero =>
    by_cases hs : ∀ c ∈ s.head?, c ≠ '"' ∧ c ≠ '[' ∧ c ≠ '\x7b'
    · exact value_prospect_of_scalar hs
    obtain ⟨c, t, rfl, rfl | rfl | rfl⟩ := exists_opening hs
    · exact .inr (string_value_prospect t)
    · exact .inr (.failed (e := .tooDeep) (fun u => rfl) id)
    · exact .inr (.failed (e := .tooDeep) (fun u => rfl) id)
  | succ depth ih =>
    by_cases hs : ∀ c ∈ s.head?, c ≠ '"' ∧ c ≠ '[' ∧ c ≠ '\x7b'
    · exact value_prospect_of_scalar hs
    have hvalue := valueProspect_of_value ih
    obtain ⟨c, t, rfl, rfl | rfl | rfl⟩ := exists_opening hs
    · exact .inr (string_value_prospect t)
    · exact .inr (array_prospect (items_prospect hvalue t))
    · exact .inr (object_prospect (members_prospect hvalue t))

end Json

end ServerPages
