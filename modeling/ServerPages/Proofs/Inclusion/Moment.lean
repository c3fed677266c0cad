import Mathlib.Logic.Relation
import ServerPages.Page.Include

/-!
# Inclusion moment by moment

An expansion takes step after step (`Inclusion.Moment.next`): it takes up the next piece of a
text, enters the file that a directive names, comes back from a file with its text, or leaves one
after another the files in which it has failed. How deep it may go it tells from the stack alone.

It ends with the result of the function that expands (`Inclusion.runs_expandPieces`), so what
holds of every moment of such a run holds in the course of every expansion. However an expansion
ends, the stack is then what it was (`Inclusion.stack_expandPieces`).
-/

namespace ServerPages

namespace Inclusion

/-! ### Moments -/

/-- A text that is being expanded. -/
structure Level where
  /-- What is still to be expanded. -/
  left : List Piece
  /-- What the pieces before it have been expanded to. -/
  done : Text := []

/-- How far an expansion is. The texts in `outer` wait for the file that one of their directives
names, the innermost one first. -/
inductive Progress where
  | expanding (level : Level) (outer : List Level)
  | failing (err : IncludeError) (outer : List Level)
  | ended (result : Except IncludeError Text)

/-- A moment of an expansion. -/
structure Moment where
  progress : Progress
  state : State

/-- How many files are being included, each by the one before it. -/
def Progress.nesting : Progress → Nat
  | .expanding _ outer | .failing _ outer => outer.length
  | .ended _ => 0

namespace State

def push (dir : Text) (st : State) : State := { st with stack := dir :: st.stack }

def pop (st : State) : State := { st with stack := st.stack.tail }

/-- The state with a note of a file, if inclusions are noted. -/
def noted (e : Setting) (path text : Text) (st : State) : State :=
  if e.debug then
    { st with notes := ⟨3, "Including ".toList ++ path ++ " (".toList ++
      Decimal.ofNat text.length ++ " characters)".toList⟩ :: st.notes }
  else st

@[simp] theorem stack_push (dir : Text) (st : State) : (st.push dir).stack = dir :: st.stack := rfl

@[simp] theorem stack_pop (st : State) : st.pop.stack = st.stack.tail := rfl

@[simp] theorem stack_noted (e : Setting) (path text : Text) (st : State) :
    (st.noted e path text).stack = st.stack := by
  unfold noted
  split <;> rfl

end State

/-- How much deeper inclusions may nest: none if the stack is longer than the limit. -/
def room (e : Setting) (st : State) : Nat :=
  (e.policy.maxIncludeDepth + 1 - st.stack.length).toNat

/-- Opens the file that a target names: its text, and the state in which that is expanded. -/
def openTarget (e : Setting) (left : Nat) (target : Text) (st : State) :
    Except IncludeError Text × State :=
  match enter e left target st with
  | .error err => (.error err, st)
  | .ok (path, text) =>
    match e.tree.canonical e.cwd path with
    | .error err => (.error (.path err), st.noted e path text)
    | .ok real => (.ok text, (st.noted e path text).push (Path.parent real))

/-- The next moment. -/
def Moment.next (e : Setting) : Moment → Option Moment
  | ⟨.expanding ⟨[], done⟩ [], st⟩ => some ⟨.ended (.ok done), st⟩
  | ⟨.expanding ⟨[], done⟩ (level :: outer), st⟩ =>
    some ⟨.expanding { level with done := level.done ++ done } outer, st.pop⟩
  | ⟨.expanding ⟨.literal s :: rest, done⟩ outer, st⟩ =>
    some ⟨.expanding ⟨rest, done ++ s⟩ outer, st⟩
  | ⟨.expanding ⟨.inclusion target :: rest, done⟩ outer, st⟩ =>
    match openTarget e (room e st) target st with
    | (.error err, st) => some ⟨.failing err outer, st⟩
    | (.ok text, st) => some ⟨.expanding ⟨pieces text, []⟩ (⟨rest, done⟩ :: outer), st⟩
  | ⟨.failing err [], st⟩ => some ⟨.ended (.error err), st⟩
  | ⟨.failing err (_ :: outer), st⟩ => some ⟨.failing err outer, st.pop⟩
  | ⟨.ended _, _⟩ => none

/-- Some moments later. -/
def Runs (e : Setting) : Moment → Moment → Prop :=
  Relation.ReflTransGen fun m m' => m.next e = some m'

/-- The first moment of an expansion. -/
def begin (ps : List Piece) (st : State) : Moment := ⟨.expanding ⟨ps, []⟩ [], st⟩

variable {e : Setting} {left : Nat} {target s done text : Text} {ps rest : List Piece}
  {outer : List Level} {st st₁ : State} {err : IncludeError}

/-! ### Opening a file -/

/-- Without room nothing is opened. -/
theorem openTarget_zero (e : Setting) (target : Text) (st : State) :
    ∃ err, openTarget e 0 target st = (.error err, st) := by
  rw [openTarget, enter]
  cases e.tree.isWithin e.cwd (Path.join (st.stack.headD []) target) (st.stack.headD []) with
  | error err => exact ⟨_, rfl⟩
  | ok inside =>
    cases inside with
    | false => exact ⟨_, rfl⟩
    | true => exact ⟨_, rfl⟩

/-- What a target names is read if it lies in the directory on top of the stack and there is
room. -/
theorem enter_eq_ok_iff {path : Text} : enter e left target st = .ok (path, text) ↔
    path = Path.join (st.stack.headD []) target ∧ left ≠ 0 ∧
      e.tree.isWithin e.cwd path (st.stack.headD []) = .ok true ∧
      readText e.tree e.cwd path = .ok text := by
  constructor
  · intro h
    simp only [enter] at h
    split at h
    · cases h
    · cases h
    · next hwithin =>
      split at h
      · cases h
      · next hleft =>
        cases hread : readText e.tree e.cwd (Path.join (st.stack.headD []) target) with
        | error err =>
          rw [hread] at h
          cases h
        | ok text' =>
          rw [hread] at h
          cases h
          exact ⟨rfl, hleft, hwithin, hread⟩
  · rintro ⟨rfl, hleft, hwithin, hread⟩
    simp only [enter, hwithin, hread, if_neg hleft]
    rfl

theorem stack_of_openTarget_error (h : openTarget e left target st = (.error err, st₁)) :
    st₁.stack = st.stack := by
  unfold openTarget at h
  split at h
  · cases h
    rfl
  · split at h
    · cases h
      exact State.stack_noted ..
    · cases h

/-- A file that is opened comes with its directory on the stack. -/
theorem openTarget_eq_ok (h : openTarget e left target st = (.ok text, st₁)) :
    ∃ path real, enter e left target st = .ok (path, text) ∧
      e.tree.canonical e.cwd path = .ok real ∧ st₁.stack = Path.parent real :: st.stack := by
  unfold openTarget at h
  split at h
  · cases h
  · next path text' henter =>
    split at h
    · cases h
    · next real hreal =>
      cases h
      exact ⟨path, real, henter, hreal, by simp⟩

private theorem tail_of_openTarget (h : openTarget e left target st = (.ok text, st₁)) :
    st₁.stack.tail = st.stack := by
  obtain ⟨_, _, _, _, hstack⟩ := openTarget_eq_ok h
  rw [hstack, List.tail_cons]

/-! ### The expanding function -/

theorem expandPieces_nil : expandPieces e left [] st = (.ok [], st) := by rw [expandPieces]

theorem expandPieces_literal : expandPieces e left (.literal s :: rest) st =
    ((expandPieces e left rest st).1.map (s ++ ·), (expandPieces e left rest st).2) := by
  rw [expandPieces]

private theorem expandTarget_refused (h : openTarget e left target st = (.error err, st₁)) :
    expandTarget e left target st = (.error err, st₁) := by
  rw [expandTarget]
  unfold openTarget at h
  cases henter : enter e left target st with
  | error err' =>
    rw [henter] at h
    exact h
  | ok opened =>
    obtain ⟨path, text⟩ := opened
    simp only [henter] at h
    cases hreal : e.tree.canonical e.cwd path with
    | error err' =>
      rw [hreal] at h
      simp only [hreal]
      exact h
    | ok real =>
      rw [hreal] at h
      cases h

/-- The file is expanded with its directory on the stack, which then goes off again. -/
theorem expandTarget_opened (h : openTarget e (left + 1) target st = (.ok text, st₁)) :
    expandTarget e (left + 1) target st =
      ((expandPieces e left (pieces text) st₁).1,
        (expandPieces e left (pieces text) st₁).2.pop) := by
  rw [expandTarget]
  unfold openTarget at h
  cases henter : enter e (left + 1) target st with
  | error err' =>
    rw [henter] at h
    cases h
  | ok opened =>
    obtain ⟨path, text'⟩ := opened
    simp only [henter] at h
    cases hreal : e.tree.canonical e.cwd path with
    | error err' =>
      rw [hreal] at h
      cases h
    | ok real =>
      rw [hreal] at h
      cases h
      simp only [hreal]
      rfl

theorem expandPieces_refused (h : openTarget e left target st = (.error err, st₁)) :
    expandPieces e left (.inclusion target :: rest) st = (.error err, st₁) := by
  rw [expandPieces, expandTarget_refused h]

theorem expandPieces_failed {st₂ : State}
    (h : openTarget e (left + 1) target st = (.ok text, st₁))
    (hinner : expandPieces e left (pieces text) st₁ = (.error err, st₂)) :
    expandPieces e (left + 1) (.inclusion target :: rest) st = (.error err, st₂.pop) := by
  rw [expandPieces, expandTarget_opened h, hinner]

theorem expandPieces_opened {st₂ : State}
    (h : openTarget e (left + 1) target st = (.ok text, st₁))
    (hinner : expandPieces e left (pieces text) st₁ = (.ok s, st₂)) :
    expandPieces e (left + 1) (.inclusion target :: rest) st =
      ((expandPieces e (left + 1) rest st₂.pop).1.map (s ++ ·),
        (expandPieces e (left + 1) rest st₂.pop).2) := by
  rw [expandPieces, expandTarget_opened h, hinner]

/-- Expansion is by recursion on how deep it may go, and then on the pieces. -/
theorem expand_induction {P : Nat → List Piece → State → Prop} (nil : ∀ left st, P left [] st)
    (literal : ∀ left s rest st, P left rest st → P left (.literal s :: rest) st)
    (refused : ∀ left target rest st err st₁, openTarget e left target st = (.error err, st₁) →
      P left (.inclusion target :: rest) st)
    (opened : ∀ left target rest st text st₁,
      openTarget e (left + 1) target st = (.ok text, st₁) → P left (pieces text) st₁ →
        (∀ st₂, P (left + 1) rest st₂) → P (left + 1) (.inclusion target :: rest) st)
    (left : Nat) (ps : List Piece) (st : State) : P left ps st := by
  induction left generalizing ps st with
  | zero =>
    induction ps generalizing st with
    | nil => exact nil 0 st
    | cons p rest ih =>
      cases p with
      | literal s => exact literal 0 s rest st (ih st)
      | inclusion target =>
        obtain ⟨err, h⟩ := openTarget_zero e target st
        exact refused 0 target rest st err st h
  | succ left ihleft =>
    induction ps generalizing st with
    | nil => exact nil _ st
    | cons p rest ih =>
      cases p with
      | literal s => exact literal _ s rest st (ih st)
      | inclusion target =>
        cases h : openTarget e (left + 1) target st with
        | mk result st₁ =>
          cases result with
          | error err => exact refused _ target rest st err st₁ h
          | ok text => exact opened left target rest st text st₁ h (ihleft (pieces text) st₁) ih

/-! ### The stack afterwards -/

/-- **An expansion leaves the stack as it was**, however it ends. -/
theorem stack_expandPieces (e : Setting) (left : Nat) (ps : List Piece) (st : State) :
    (expandPieces e left ps st).2.stack = st.stack := by
  induction left, ps, st using expand_induction (e := e) with
  | nil => rw [expandPieces_nil]
  | literal _ _ _ _ ih => rw [expandPieces_literal, ih]
  | refused _ _ _ _ _ _ h => rw [expandPieces_refused h, stack_of_openTarget_error h]
  | opened left target rest st text st₁ h hinner ih =>
    have hback : (expandPieces e left (pieces text) st₁).2.pop.stack = st.stack := by
      rw [State.stack_pop, hinner, tail_of_openTarget h]
    cases hresult : expandPieces e left (pieces text) st₁ with
    | mk result st₂ =>
      rw [hresult] at hback
      cases result with
      | error err => rw [expandPieces_failed h hresult, hback]
      | ok s => rw [expandPieces_opened h hresult, ih, hback]

/-- Back from a file, the stack is as it was before. -/
theorem stack_pop_expanded {left' : Nat} {st₂ : State} {result : Except IncludeError Text}
    (h : openTarget e left' target st = (.ok text, st₁))
    (hresult : expandPieces e left (pieces text) st₁ = (result, st₂)) :
    st₂.pop.stack = st.stack := by
  have hsame := stack_expandPieces e left (pieces text) st₁
  rw [hresult] at hsame
  rw [State.stack_pop, hsame, tail_of_openTarget h]

/-- An inclusion leaves the stack as it was, however it ends. -/
theorem stack_expandTarget (e : Setting) (left : Nat) (target : Text) (st : State) :
    (expandTarget e left target st).2.stack = st.stack := by
  cases h : openTarget e left target st with
  | mk result st₁ =>
    cases result with
    | error err => rw [expandTarget_refused h, stack_of_openTarget_error h]
    | ok text =>
      cases left with
      | zero =>
        obtain ⟨err, herr⟩ := openTarget_zero e target st
        cases herr.symm.trans h
      | succ left =>
        rw [expandTarget_opened h, State.stack_pop, stack_expandPieces, tail_of_openTarget h]

/-! ### The notes -/

/-- All notes are about tracing. -/
def State.Traces (st : State) : Prop := ∀ n ∈ st.notes, n.level = 3

theorem traces_of_start (h : start e = .ok st) : st.Traces := by
  unfold start at h
  cases hdir : e.tree.canonical e.cwd e.policy.includeDir with
  | error err =>
    rw [hdir] at h
    cases h
  | ok dir =>
    rw [hdir] at h
    cases h
    exact nofun

private theorem traces_of_openTarget {result : Except IncludeError Text} (hst : st.Traces)
    (h : openTarget e left target st = (result, st₁)) : st₁.Traces := by
  have hnoted (path text : Text) : (st.noted e path text).Traces := by
    unfold State.noted
    split
    · exact List.forall_mem_cons.mpr ⟨rfl, hst⟩
    · exact hst
  unfold openTarget at h
  split at h
  · cases h
    exact hst
  · split at h
    · cases h
      exact hnoted _ _
    · cases h
      exact hnoted _ _

/-- An expansion leaves no notes but those about the files that it includes. -/
theorem traces_expandPieces (e : Setting) (left : Nat) (ps : List Piece) (st : State)
    (hst : st.Traces) : (expandPieces e left ps st).2.Traces := by
  induction left, ps, st using expand_induction (e := e) with
  | nil => rwa [expandPieces_nil]
  | literal _ _ _ _ ih =>
    rw [expandPieces_literal]
    exact ih hst
  | refused _ _ _ _ _ _ h =>
    rw [expandPieces_refused h]
    exact traces_of_openTarget hst h
  | opened left target rest st text st₁ h hinner ih =>
    have hafter : (expandPieces e left (pieces text) st₁).2.pop.Traces :=
      hinner (traces_of_openTarget hst h)
    cases hresult : expandPieces e left (pieces text) st₁ with
    | mk result st₂ =>
      rw [hresult] at hafter
      cases result with
      | error err =>
        rw [expandPieces_failed h hresult]
        exact hafter
      | ok s =>
        rw [expandPieces_opened h hresult]
        exact ih _ hafter

/-! ### Where a run gets to -/

/-- Where a text is expanded to, or has failed. -/
def arrival (outer : List Level) (done : Text) : Except IncludeError Text × State → Moment
  | (.ok s, st) => ⟨.expanding ⟨[], done ++ s⟩ outer, st⟩
  | (.error err, st) => ⟨.failing err outer, st⟩

private theorem arrival_map {result : Except IncludeError Text} :
    arrival outer done (result.map (s ++ ·), st) = arrival outer (done ++ s) (result, st) := by
  cases result with
  | error err => rfl
  | ok s' => rw [arrival, List.append_assoc, Except.map, arrival]

theorem room_congr {st' : State} (h : st'.stack = st.stack) : room e st' = room e st := by
  rw [room, h, room]

theorem room_of_openTarget (h : openTarget e (left + 1) target st = (.ok text, st₁))
    (hroom : room e st = left + 1) : room e st₁ = left := by
  have hlength := congrArg List.length (tail_of_openTarget h)
  obtain ⟨_, _, _, _, hstack⟩ := openTarget_eq_ok h
  rw [hstack, List.tail_cons] at hlength
  rw [room] at hroom ⊢
  rw [hstack, List.length_cons]
  omega

theorem next_refused (rest : List Piece) (done : Text) (outer : List Level)
    (h : openTarget e (room e st) target st = (.error err, st₁)) :
    Moment.next e ⟨.expanding ⟨.inclusion target :: rest, done⟩ outer, st⟩ =
      some ⟨.failing err outer, st₁⟩ := by
  simp only [Moment.next, h]

theorem next_opened (rest : List Piece) (done : Text) (outer : List Level)
    (h : openTarget e (room e st) target st = (.ok text, st₁)) :
    Moment.next e ⟨.expanding ⟨.inclusion target :: rest, done⟩ outer, st⟩ =
      some ⟨.expanding ⟨pieces text, []⟩ (⟨rest, done⟩ :: outer), st₁⟩ := by
  simp only [Moment.next, h]

/-- **A run gets to where the function ends.** -/
theorem runs_expandPieces (ps : List Piece) (done : Text) (outer : List Level)
    (hroom : room e st = left) :
    Runs e ⟨.expanding ⟨ps, done⟩ outer, st⟩ (arrival outer done (expandPieces e left ps st)) := by
  induction left, ps, st using expand_induction (e := e) generalizing outer done with
  | nil left st =>
    rw [expandPieces_nil, arrival, List.append_nil]
    exact .refl
  | literal left s rest st ih =>
    rw [expandPieces_literal, arrival_map]
    exact .head rfl (ih _ _ hroom)
  | refused left target rest st err st₁ h =>
    rw [expandPieces_refused h]
    exact .single (next_refused rest done outer (hroom ▸ h))
  | opened left target rest st text st₁ h hinner ih =>
    -- the run enters the file, and ends there with a failure or comes back and goes on
    have hinner := hinner [] (⟨rest, done⟩ :: outer) (room_of_openTarget h hroom)
    refine .head (next_opened rest done outer (hroom ▸ h)) ?_
    cases hresult : expandPieces e left (pieces text) st₁ with
    | mk result st₂ =>
      rw [hresult] at hinner
      cases result with
      | error err =>
        rw [expandPieces_failed h hresult]
        exact .tail hinner rfl
      | ok s =>
        rw [expandPieces_opened h hresult, arrival_map]
        exact .trans (.tail hinner rfl)
          (ih st₂.pop _ _ ((room_congr (stack_pop_expanded h hresult)).trans hroom))

/-- **A run ends with the result of the function**, and in its state. -/
theorem runs_ended (ps : List Piece) (st : State) :
    Runs e (begin ps st) ⟨.ended (expandPieces e (room e st) ps st).1,
      (expandPieces e (room e st) ps st).2⟩ := by
  have hruns := runs_expandPieces ps [] [] (rfl : room e st = _)
  refine .tail hruns ?_
  cases hresult : expandPieces e (room e st) ps st with
  | mk result st' => cases result <;> rfl

/-- Every moment of a run lies on the way to its end. -/
theorem Runs.to_ended {m m' : Moment} {result : Except IncludeError Text} (h : Runs e m m')
    (hended : Runs e m ⟨.ended result, st⟩) : Runs e m' ⟨.ended result, st⟩ := by
  have hunique : Relator.RightUnique fun m m' : Moment => m.next e = some m' :=
    fun _ _ _ h h' => Option.some.inj (h.symm.trans h')
  rcases Relation.ReflTransGen.total_of_right_unique hunique h hended with h | h
  · exact h
  · -- nothing comes behind the end
    rcases h.cases_head with heq | ⟨m₁, hnext, -⟩
    · exact heq ▸ .refl
    · cases hnext

/-- A failure goes up through all files, to the end. -/
theorem Runs.of_failing {m : Moment} (h : Runs e ⟨.failing err outer, st⟩ m) :
    (∃ outer' st', m = ⟨.failing err outer', st'⟩) ∨ ∃ st', m = ⟨.ended (.error err), st'⟩ := by
  induction h with
  | refl => exact .inl ⟨outer, st, rfl⟩
  | tail _ hnext ih =>
    rcases ih with ⟨outer', st', rfl⟩ | ⟨st', rfl⟩
    · cases outer' with
      | nil =>
        cases hnext
        exact .inr ⟨_, rfl⟩
      | cons level outer' =>
        cases hnext
        exact .inl ⟨_, _, rfl⟩
    · cases hnext

/-- With nothing but the directory of a page on the stack, the room is the limit. -/
theorem room_of_stack {dir : Text} (hst : st.stack = [dir]) :
    room e st = e.policy.maxIncludeDepth.toNat := by
  rw [room, hst, List.length_singleton]
  omega

theorem runs_expand {dir : Text} (source : Text) (hst : st.stack = [dir]) :
    Runs e (begin (pieces source) st) ⟨.ended (expand e source st).1, (expand e source st).2⟩ := by
  rw [expand, ← room_of_stack hst]
  exact runs_ended (pieces source) st

end Inclusion

end ServerPages
