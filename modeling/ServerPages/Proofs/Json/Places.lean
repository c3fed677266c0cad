import ServerPages.Proofs.Json.Prospect.Values

/-!
# Places that reading comes to

A text is read through whole values: what is read next stands behind them, with some containers open
around it (`Reaches`). Whether a value is whole (`Whole`) does not depend on any bound on the
nesting. The bounds on nesting and on the digits of integers stop reading exactly where it comes to a
place that exceeds them: a container that is opened within as many as may be open
(`Part.rest_eq_tooDeep_iff`), or an integer that is too long (`Part.rest_eq_tooManyDigits_iff`).
-/

namespace ServerPages

namespace Json

open Decimal (isDigit)

variable {s t u r x y : Text} {depth k : Nat}

/-! ### Whole values and the places between them -/

/-- The two kinds of container. -/
inductive Container where
  | array
  | object

namespace Container

/-- What opens a container. -/
def opening : Container → Char
  | .array => '['
  | .object => '\x7b'

/-- What closes a container. -/
def closing : Container → Char
  | .array => ']'
  | .object => '\x7d'

/-- An element of a container begins the text, and behind blanks its value stands at `x`. -/
def Begins : Container → Text → Text → Prop
  | .array, s, x => s = x
  | .object, s, x =>
    ∃ marks r, skipSpace s = '"' :: (closedText marks ++ r) ∧ skipSpace r = ':' :: x

end Container

/-- What is read as one: a value, or the elements of a container and what closes it. -/
inductive Part where
  | value
  | row (c : Container)

/-- The number is an integer, and has more digits than one may have. -/
def NumberText.IsOverlong (n : NumberText) : Prop :=
  n.fraction = none ∧ n.exponent = none ∧ ¬ n.IsShort

/-- The text begins with a whole part, which leaves a rest. -/
inductive Whole : Part → Text → Text → Prop
  | constant {name r : Text} {v : Json} (h : (name, v) ∈ constants) : Whole .value (name ++ r) r
  | number {n : NumberText} {r : Text} (h : ¬ n.IsOverlong) (hr : Stops r) :
    Whole .value (n.text ++ r) r
  | string {marks : List Mark} {r : Text} : Whole .value ('"' :: (closedText marks ++ r)) r
  | empty {c : Container} {s r : Text} (h : skipSpace s = c.closing :: r) :
    Whole .value (c.opening :: s) r
  | container {c : Container} {s r : Text} (hopen : ∀ t, skipSpace s ≠ c.closing :: t)
      (h : Whole (.row c) s r) : Whole .value (c.opening :: s) r
  | last {c : Container} {s x t r : Text} (hx : c.Begins s x) (hv : Whole .value (skipSpace x) t)
      (ht : skipSpace t = c.closing :: r) : Whole (.row c) s r
  | more {c : Container} {s x t u r : Text} (hx : c.Begins s x)
      (hv : Whole .value (skipSpace x) t) (ht : skipSpace t = ',' :: u)
      (h : Whole (.row c) u r) : Whole (.row c) s r

/-- Reading a part comes to a value at a place, with `k` more containers open there: all values
before it are whole. -/
inductive Reaches : Part → Nat → Text → Text → Prop
  | here (s : Text) : Reaches .value 0 s s
  | enter {c : Container} {k : Nat} {s y : Text} (hopen : ∀ t, skipSpace s ≠ c.closing :: t)
      (h : Reaches (.row c) k s y) : Reaches .value (k + 1) (c.opening :: s) y
  | element {c : Container} {k : Nat} {s x y : Text} (hx : c.Begins s x)
      (h : Reaches .value k (skipSpace x) y) : Reaches (.row c) k s y
  | behind {c : Container} {k : Nat} {s x t u y : Text} (hx : c.Begins s x)
      (hv : Whole .value (skipSpace x) t) (ht : skipSpace t = ',' :: u)
      (h : Reaches (.row c) k u y) : Reaches (.row c) k s y

/-- Reading comes to a container that is opened within `depth` others. -/
def Part.NestsBeyond (p : Part) (depth : Nat) (s : Text) : Prop :=
  ∃ (c : Container) (t : Text), Reaches p depth s (c.opening :: t)

/-- Reading comes to an integer that is too long. -/
def Part.HasOverlong (p : Part) (s : Text) : Prop :=
  ∃ (k : Nat) (n : NumberText) (r : Text), Reaches p k s (n.text ++ r) ∧ n.IsOverlong ∧ Stops r

/-! ### Numbers -/

theorem stops_of_skipSpace {c : Char} (h : skipSpace t = c :: u)
    (hc : c ∈ " \t\n\r,:]\x7d".toList) : Stops t := by
  have ht : t = t.takeWhile isSpace ++ c :: u := by
    rw [← h, skipSpace, List.takeWhile_append_dropWhile]
  rw [ht]
  exact stops_blanks ⟨t.takeWhile isSpace, fun _ => List.mem_takeWhile_imp⟩ hc

theorem Container.stops_closing {c : Container} (h : skipSpace t = c.closing :: u) : Stops t :=
  stops_of_skipSpace h (by cases c <;> decide)

theorem NumberText.value_iff_isOverlong (n : NumberText) :
    (∃ j, n.numeral.value = .error (.tooManyDigits j)) ↔ n.IsOverlong := by
  constructor
  · rintro ⟨j, hj⟩
    have hshort : ¬ n.IsShort := fun h => by
      obtain ⟨v, hv⟩ := value_of_isShort h
      cases hv.symm.trans hj
    have hnone : ¬ (n.numeral.fraction ≠ [] ∨ n.numeral.exponent ≠ none) := fun h => by
      obtain ⟨v, hv⟩ := exists_value h
      cases hv.symm.trans hj
    rw [not_or, not_not, not_not] at hnone
    refine ⟨?_, Option.map_eq_none_iff.mp hnone.2, hshort⟩
    cases hf : n.fraction with
    | none => rfl
    | some ds =>
      have hempty := hnone.1
      rw [numeral, hf] at hempty
      exact absurd hempty ds.ne_nil
  · rintro ⟨hf, he, hshort⟩
    rw [numeral, hf, he]
    exact ⟨_, if_pos (Nat.not_le.mp hshort)⟩

/-- Behind digits that neither a fraction nor an exponent follows, nothing continues them. -/
theorem parts_stop {negative : Bool} {w : Text × Text} {num : Numeral}
    (h : parts negative w = (num, r)) (hf : num.fraction = []) (he : num.exponent = none) :
    r = w.2 ∧ fractionPart r = ([], r) ∧ exponentPart r = (none, r) := by
  obtain ⟨f, hf', hs, -⟩ := fractionPart_spec w.2
  obtain ⟨e, he', hs', -⟩ := exponentPart_spec (fractionPart w.2).2
  cases h
  have hfraction : fractionPart w.2 = ([], w.2) := by
    cases f with
    | none => exact Prod.ext hf hs.symm
    | some ds => exact absurd (hf'.symm.trans hf) ds.ne_nil
  have hexponent : exponentPart w.2 = (none, w.2) := by
    rw [hfraction] at he' hs'
    cases e with
    | none =>
      rw [hfraction] at he
      exact Prod.ext he hs'.symm
    | some e =>
      rw [hfraction] at he
      cases he'.symm.trans he
  rw [hfraction, hexponent]
  exact ⟨rfl, hfraction, hexponent⟩

/-- All digits before the point are taken, unless the first is a zero. -/
theorem wholePart_stop {w : Text} (h : (wholePart s).map (·.1) = some (w, r)) :
    w = ['0'] ∨ ∀ c ∈ r.head?, isDigit c = false := by
  cases s with
  | nil => cases h
  | cons c s =>
    rw [wholePart] at h
    split at h
    · cases h
      exact .inl rfl
    split at h
    · cases h
      exact .inr fun d hd => by simpa [Option.mem_def.mp hd] using List.head?_dropWhile_not isDigit s
    · cases h

/-- What is read as too many digits is an integer that nothing continues. -/
theorem exists_isOverlong {num : Numeral} (h : (numeral? s).map (·.1) = some (num, r))
    (hv : num.value = .error (.tooManyDigits k)) :
    ∃ n : NumberText, s = n.text ++ r ∧ n.IsOverlong ∧ Stops r := by
  obtain ⟨n, rfl, hs, -⟩ := numeral?_spec h
  have hlong := n.value_iff_isOverlong.mp ⟨k, hv⟩
  refine ⟨n, hs, hlong, ?_⟩
  obtain ⟨negative, body, w, hw, hparts⟩ : ∃ (negative : Bool) (body : Text) (w : Text × Text),
      (wholePart body).map (·.1) = some w ∧ parts negative w = (n.numeral, r) := by
    by_cases hminus : s.head? = some '-'
    · cases s with
      | nil => cases hminus
      | cons c body =>
        rw [Option.some.inj hminus, numeral?_minus] at h
        exact ⟨true, body, Option.map_eq_some_iff.mp h⟩
    · rw [numeral?_plain hminus] at h
      exact ⟨false, s, Option.map_eq_some_iff.mp h⟩
  have hfraction : n.numeral.fraction = [] := by rw [NumberText.numeral, hlong.1]; rfl
  have hexponent : n.numeral.exponent = none := by rw [NumberText.numeral, hlong.2.1]; rfl
  obtain ⟨rfl, hf, he⟩ := parts_stop hparts hfraction hexponent
  refine ⟨(wholePart_stop hw).resolve_left fun hzero => hlong.2.2 ?_, hf, he⟩
  have hwhole : w.1 = n.whole.text := congrArg (·.1.whole) hparts
  rw [NumberText.IsShort, ← hwhole, hzero]
  decide

/-! ### One step -/

/-- What reading a part leaves of a text. -/
def Part.rest (depth : Nat) : Part → Text → Except Refusal Text
  | .value, s => left (took (readValue depth s))
  | .row .array, s => left (spacedItems depth s)
  | .row .object, s => left (spacedMembers depth s)

/-- A string is refused for what stands in it. -/
theorem readString_refused {opening : Text} {e : Refusal}
    (h : took (readString opening s) = .error e) :
    ∃ complaint r, e = .refused complaint r := by
  induction hlen : s.length using Nat.strong_induction_on generalizing s with
  | _ k ih =>
  cases stringHead s with
  | nil => rw [readString_nil] at h; cases h; exact ⟨_, _, rfl⟩
  | quote t => rw [took_readString_quote] at h; cases h
  | mark m q hq =>
    have hleft : left (took (readString opening (m.text ++ q))) =
        left (took (readString opening q)) := left_readString_mark m hq
    rw [left_eq_error.mpr h, eq_comm] at hleft
    have hlt : q.length < k := by
      have := List.length_pos_of_ne_nil m.text_ne_nil
      rw [List.length_append] at hlen
      omega
    exact ih q.length hlt (left_eq_error.mp hleft) rfl
  | backslash => rw [readString_backslash] at h; cases h; exact ⟨_, _, rfl⟩
  | shortCode hs => rw [readString_shortCode hs] at h; cases h; exact ⟨_, _, rfl⟩
  | badCode hn e t => rw [readString_badCode hn] at h; cases h; exact ⟨_, _, rfl⟩
  | badLetter hu he t => rw [readString_badLetter hu he] at h; cases h; exact ⟨_, _, rfl⟩
  | control hq hb hc t => rw [readString_control hq hb hc] at h; cases h; exact ⟨_, _, rfl⟩

namespace Part

variable {c : Container} {e : Refusal}

private theorem left_map {α β : Type} (f : α → β) (x : Except Refusal (α × Text)) :
    left (x.map fun p => (f p.1, p.2)) = left x := by
  cases x <;> rfl

theorem rest_string : value.rest depth ('"' :: s) = left (took (readString ('"' :: s) s)) := by
  rw [rest, took_readValue_string]
  exact left_map _ _

theorem rest_zero : value.rest 0 (c.opening :: s) = .error .tooDeep := by
  cases c <;> rfl

theorem rest_empty (h : skipSpace s = c.closing :: r) :
    value.rest (depth + 1) (c.opening :: s) = .ok r := by
  cases c with
  | array => exact congrArg left (took_readValue_emptyArray h)
  | object => exact congrArg left (took_readValue_emptyObject h)

theorem rest_container (hopen : ∀ t, skipSpace s ≠ c.closing :: t) :
    value.rest (depth + 1) (c.opening :: s) = (row c).rest depth s := by
  cases c with
  | array => exact (congrArg left (took_readValue_array hopen)).trans (left_map _ _)
  | object => exact (congrArg left (took_readValue_object hopen)).trans (left_map _ _)

private theorem rest_eq_error : value.rest depth (skipSpace x) = .error e ↔
    spacedValue depth x = .error e := left_eq_error

private theorem rest_eq_ok : value.rest depth (skipSpace x) = .ok t ↔
    ∃ v, spacedValue depth x = .ok (v, t) := left_eq_ok

/-- An element that begins a text is one to the reader. -/
theorem exists_element (hx : c.Begins s x) (depth : Nat) :
    ∃ (α : Type) (R : Reading (List α)) (m : Json → α),
      (∀ s', (row c).rest depth s' = left (R s')) ∧ Element depth R c.closing m s x := by
  cases c with
  | array =>
    obtain rfl : s = x := hx
    exact ⟨Json, spacedItems depth, id, fun _ => rfl, element_items s⟩
  | object =>
    obtain ⟨marks, r, hs, hcolon⟩ := hx
    have hname : ∀ opening u, took (readString opening (closedText marks ++ r ++ u)) =
        .ok (letters marks, r ++ u) := fun opening u => by
      rw [List.append_assoc, took_readString]
    exact ⟨_, spacedMembers depth, _, fun _ => rfl,
      element_members hs (List.suffix_append _ _) hname hcolon⟩

section Row

variable (hx : c.Begins s x)
include hx

theorem rest_row_error (h : value.rest depth (skipSpace x) = .error e) :
    (row c).rest depth s = .error e := by
  obtain ⟨α, R, m, hR, helement⟩ := exists_element hx depth
  have herror := helement.error [] (by rw [List.append_nil]; exact rest_eq_error.mp h)
  rw [List.append_nil] at herror
  rw [hR, herror]
  rfl

theorem rest_row_last (h : value.rest depth (skipSpace x) = .ok t)
    (ht : skipSpace t = c.closing :: r) : (row c).rest depth s = .ok r := by
  obtain ⟨α, R, m, hR, helement⟩ := exists_element hx depth
  obtain ⟨v, hv⟩ := rest_eq_ok.mp h
  have hlast := helement.last [] (by rw [List.append_nil]; exact hv) ht
  rw [List.append_nil] at hlast
  rw [hR, hlast]
  rfl

theorem rest_row_more (h : value.rest depth (skipSpace x) = .ok t) (ht : skipSpace t = ',' :: u) :
    (row c).rest depth s = (row c).rest depth u := by
  obtain ⟨α, R, m, hR, helement⟩ := exists_element hx depth
  obtain ⟨v, hv⟩ := rest_eq_ok.mp h
  have hmore := helement.more [] (by rw [List.append_nil]; exact hv) ht
  rw [List.append_nil] at hmore
  rw [hR, hR, hmore]
  exact left_map _ _

theorem rest_row_other (h : value.rest depth (skipSpace x) = .ok t)
    (hclose : ∀ u, skipSpace t ≠ c.closing :: u) (hcomma : ∀ u, skipSpace t ≠ ',' :: u) :
    (row c).rest depth s = .error (.refused .expectingComma (skipSpace t)) := by
  obtain ⟨α, R, m, hR, helement⟩ := exists_element hx depth
  obtain ⟨v, hv⟩ := rest_eq_ok.mp h
  have hother := helement.other [] (by rw [List.append_nil]; exact hv) hclose hcomma
  rw [List.append_nil] at hother
  rw [hR, hother]
  rfl

end Row

/-- Where no element begins, a row is refused. -/
theorem rest_row_of_not_begins (h : ∀ x, ¬ c.Begins s x) (depth : Nat) :
    ∃ complaint r, (row c).rest depth s = .error (.refused complaint r) := by
  cases c with
  | array => exact absurd rfl (h s)
  | object =>
    by_cases hquote : (skipSpace s).head? = some '"'
    · obtain ⟨s₁, hs⟩ : ∃ s₁, skipSpace s = '"' :: s₁ := by
        cases hs : skipSpace s with
        | nil => rw [hs] at hquote; cases hquote
        | cons d s₁ => rw [hs] at hquote; exact ⟨s₁, by rw [Option.some.inj hquote]⟩
      cases hname : took (readString ('"' :: s₁) s₁) with
      | error e =>
        obtain ⟨complaint, r, rfl⟩ := readString_refused hname
        refine ⟨complaint, r, left_eq_error.mpr ?_⟩
        rw [spacedMembers, hs, readMembers_name_error hname]
      | ok p =>
        obtain ⟨name, r⟩ := p
        obtain ⟨marks, rfl, -⟩ := exists_marks hname
        have hcolon : ∀ t, skipSpace r ≠ ':' :: t := fun t ht => h t ⟨marks, r, hs, ht⟩
        refine ⟨.expectingColon, skipSpace r, left_eq_error.mpr ?_⟩
        rw [spacedMembers, hs, readMembers_expectingColon hname hcolon]
    · exact ⟨_, _, left_eq_error.mpr (readMembers_expectingName hquote)⟩

end Part

end Json

end ServerPages
