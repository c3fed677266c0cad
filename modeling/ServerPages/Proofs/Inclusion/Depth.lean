import Mathlib
import ServerPages.Proofs.Inclusion.Moment

/-!
# The depth of inclusions

The files that a page includes form a graph (`Inclusion.Includes`), which may have cycles. The
expansion of a page ends all the same, since it goes no deeper than the limit. If every target
that it comes to can be included, it gives the text with every file put in its place
(`Inclusion.Spliced`), unless the files of a chain (`Inclusion.Chain`) are more than the limit;
then it fails, and it fails for nothing else (`Inclusion.depth_limit`).
-/

namespace ServerPages

namespace Inclusion

/-! ### The files that a page includes -/

/-- A text and the directory that its targets are seen from. -/
structure Document where
  dir : Text
  text : Text

/-- From a directory, a target names a file with a text. -/
structure Opens (e : Setting) (dir target : Text) (d : Document) : Prop where
  within : e.tree.isWithin e.cwd (Path.join dir target) dir = .ok true
  read : readText e.tree e.cwd (Path.join dir target) = .ok d.text
  dir : ∃ real, e.tree.canonical e.cwd (Path.join dir target) = .ok real ∧
    d.dir = Path.parent real

/-- A directive of one document names another one. -/
def Includes (e : Setting) (d d' : Document) : Prop :=
  ∃ target, .inclusion target ∈ pieces d.text ∧ Opens e d.dir target d'

/-- A document begins a chain of so many inclusions, each within the one before it. -/
inductive Chain (e : Setting) : Document → Nat → Prop
  | nil (d : Document) : Chain e d 0
  | cons {d d' : Document} {n : Nat} (h : Includes e d d') (hrest : Chain e d' n) :
    Chain e d (n + 1)

/-- Pieces seen from a directory, with the text of each file in the place of the directive that
names it. -/
inductive Spliced (e : Setting) : Text → List Piece → Text → Prop
  | nil (dir : Text) : Spliced e dir [] []
  | literal {dir s out : Text} {rest : List Piece} (h : Spliced e dir rest out) :
    Spliced e dir (.literal s :: rest) (s ++ out)
  | inclusion {dir target inner out : Text} {rest : List Piece} {d : Document}
    (hopen : Opens e dir target d) (hinner : Spliced e d.dir (pieces d.text) inner)
    (h : Spliced e dir rest out) : Spliced e dir (.inclusion target :: rest) (inner ++ out)

/-- The target that an expansion has come to lies in its directory, and is a file with a text. -/
def Moment.Includable (e : Setting) (m : Moment) : Prop :=
  ∀ target rest done outer, m.progress = .expanding ⟨.inclusion target :: rest, done⟩ outer →
    e.tree.isWithin e.cwd (Path.join (m.state.stack.headD []) target)
        (m.state.stack.headD []) = .ok true ∧
      ∃ text, readText e.tree e.cwd (Path.join (m.state.stack.headD []) target) = .ok text

variable {e : Setting} {dir target s text : Text} {ps rest : List Piece} {d d' : Document}
  {st st₁ : State} {left n : Nat}

/-! ### Documents and chains -/

theorem Opens.unique (h : Opens e dir target d) (h' : Opens e dir target d') : d = d' := by
  obtain ⟨-, hread, real, hreal, hdir⟩ := h
  obtain ⟨-, hread', real', hreal', hdir'⟩ := h'
  obtain rfl : real = real' := Except.ok.inj (hreal.symm.trans hreal')
  have htext : d.text = d'.text := Except.ok.inj (hread.symm.trans hread')
  obtain ⟨dir₁, text₁⟩ := d
  obtain ⟨dir₂, text₂⟩ := d'
  cases htext
  cases hdir.trans hdir'.symm
  rfl

/-- There is one text at most with the files in their places. -/
theorem Spliced.unique {out out' : Text} (h : Spliced e dir ps out) (h' : Spliced e dir ps out') :
    out = out' := by
  induction h generalizing out' with
  | nil =>
    cases h'
    rfl
  | literal _ ih =>
    cases h' with
    | literal h' => rw [ih h']
  | inclusion hopen _ _ ihinner ih =>
    cases h' with
    | inclusion hopen' hinner' h' =>
      cases hopen.unique hopen'
      rw [ihinner hinner', ih h']

/-- Pieces name a document that begins a chain of so many inclusions. -/
def Below (e : Setting) (dir : Text) (ps : List Piece) (n : Nat) : Prop :=
  ∃ target d, .inclusion target ∈ ps ∧ Opens e dir target d ∧ Chain e d n

private theorem chain_succ_iff : Chain e d (n + 1) ↔ Below e d.dir (pieces d.text) n := by
  constructor
  · rintro (_ | ⟨⟨target, hmem, hopen⟩, hrest⟩)
    exact ⟨target, _, hmem, hopen, hrest⟩
  · rintro ⟨target, d', hmem, hopen, hrest⟩
    exact .cons ⟨target, hmem, hopen⟩ hrest

private theorem below_literal_iff : Below e dir (.literal s :: rest) n ↔ Below e dir rest n := by
  simp [Below]

theorem Below.cons {p : Piece} (h : Below e dir rest n) : Below e dir (p :: rest) n := by
  obtain ⟨target, d, hmem, h⟩ := h
  exact ⟨target, d, List.mem_cons_of_mem p hmem, h⟩

/-- What is below a directive and what follows it, is below the file that it names or below what
follows. -/
theorem Below.cases (hopen : Opens e dir target d)
    (h : Below e dir (.inclusion target :: rest) n) : Chain e d n ∨ Below e dir rest n := by
  obtain ⟨target', d', hmem, hopen', hchain⟩ := h
  rcases List.mem_cons.mp hmem with heq | hmem
  · cases heq
    exact .inl (hopen.unique hopen' ▸ hchain)
  · exact .inr ⟨target', d', hmem, hopen', hchain⟩

/-! ### Cycles -/

/-- Around a cycle there are chains as long as one likes. -/
theorem exists_chain_of_cycle (h : Relation.TransGen (Includes e) d d) (n : Nat) :
    ∃ k, n ≤ k ∧ Chain e d k := by
  have longer : ∀ {a b : Document} {k : Nat}, Relation.TransGen (Includes e) a b → Chain e b k →
      ∃ j, k < j ∧ Chain e a j := by
    intro a b k hab hb
    induction hab using Relation.TransGen.head_induction_on with
    | single hab => exact ⟨k + 1, Nat.lt_succ_self k, .cons hab hb⟩
    | head hac _ ih =>
      obtain ⟨j, hlt, hj⟩ := ih
      exact ⟨j + 1, Nat.lt_succ_of_lt hlt, .cons hac hj⟩
  induction n with
  | zero => exact ⟨0, Nat.le_refl 0, .nil d⟩
  | succ n ih =>
    -- once more around
    obtain ⟨k, hle, hk⟩ := ih
    obtain ⟨j, hlt, hj⟩ := longer h hk
    exact ⟨j, Nat.lt_of_le_of_lt hle hlt, hj⟩

theorem Chain.extend (h : Relation.ReflTransGen (Includes e) d d') (hchain : Chain e d' n) :
    ∃ k, n ≤ k ∧ Chain e d k := by
  induction h using Relation.ReflTransGen.head_induction_on with
  | refl => exact ⟨n, Nat.le_refl n, hchain⟩
  | head hstep _ ih =>
    obtain ⟨k, hle, hk⟩ := ih
    exact ⟨k + 1, Nat.le_succ_of_le hle, .cons hstep hk⟩

/-! ### What an expansion comes to -/

/-- A target that can be included names a document. -/
theorem exists_opens (hwithin : e.tree.isWithin e.cwd (Path.join dir target) dir = .ok true)
    (hread : readText e.tree e.cwd (Path.join dir target) = .ok text) :
    ∃ real, Opens e dir target ⟨Path.parent real, text⟩ := by
  cases hreal : e.tree.canonical e.cwd (Path.join dir target) with
  | ok real => exact ⟨real, hwithin, hread, real, hreal, rfl⟩
  | error err =>
    rw [FileTree.isWithin, hreal] at hwithin
    cases hp : e.tree.canonical e.cwd dir <;> rw [hp] at hwithin <;> cases hwithin

private theorem opens_of_openTarget (hst : st.stack.headD [] = dir)
    (h : openTarget e left target st = (.ok text, st₁)) :
    ∃ d, Opens e dir target d ∧ d.text = text ∧ st₁.stack = d.dir :: st.stack := by
  obtain ⟨path, real, henter, hreal, hstack⟩ := openTarget_eq_ok h
  obtain ⟨rfl, -, hwithin, hread⟩ := enter_eq_ok_iff.mp henter
  rw [hst] at hwithin hread hreal
  exact ⟨⟨Path.parent real, text⟩, ⟨hwithin, hread, real, hreal, rfl⟩, rfl, hstack⟩

/-- What can be included is refused only for the depth. -/
theorem openTarget_eq_error {err : IncludeError} (hst : st.stack.headD [] = dir)
    (hwithin : e.tree.isWithin e.cwd (Path.join dir target) dir = .ok true)
    (hread : readText e.tree e.cwd (Path.join dir target) = .ok text)
    (h : openTarget e left target st = (.error err, st₁)) :
    left = 0 ∧ err = .tooDeep e.policy.maxIncludeDepth := by
  obtain ⟨real, -, -, real', hreal, -⟩ := exists_opens hwithin hread
  subst hst
  cases left with
  | zero =>
    rw [openTarget, enter, hwithin] at h
    cases h
    exact ⟨rfl, rfl⟩
  | succ left =>
    have henter := enter_eq_ok_iff.mpr ⟨rfl, Nat.succ_ne_zero left, hwithin, hread⟩
    simp only [openTarget, henter, hreal] at h
    cases h

/-- The text with the files in their places, as no chain is longer than the room; or the fault of
a chain that is. -/
def Outcome (e : Setting) (dir : Text) (left : Nat) (ps : List Piece) :
    Except IncludeError Text → Prop
  | .ok s => Spliced e dir ps s ∧ ∀ n, Below e dir ps n → n < left
  | .error err => err = .tooDeep e.policy.maxIncludeDepth ∧ Below e dir ps left

theorem Outcome.literal {result : Except IncludeError Text} (h : Outcome e dir left rest result) :
    Outcome e dir left (.literal s :: rest) (result.map (s ++ ·)) := by
  cases result with
  | ok out =>
    obtain ⟨hspliced, hbelow⟩ := h
    exact ⟨.literal hspliced, fun n hn => hbelow n (below_literal_iff.mp hn)⟩
  | error err => exact h.imp_right Below.cons

/-- A file that nests less deep by one is put in its place. -/
theorem Outcome.inclusion {result : Except IncludeError Text} (hopen : Opens e dir target d)
    (hinner : Outcome e d.dir left (pieces d.text) (.ok s))
    (h : Outcome e dir (left + 1) rest result) :
    Outcome e dir (left + 1) (.inclusion target :: rest) (result.map (s ++ ·)) := by
  cases result with
  | ok out =>
    obtain ⟨hspliced, hbelow⟩ := h
    refine ⟨.inclusion hopen hinner.1 hspliced, fun n hn => ?_⟩
    rcases hn.cases hopen with hchain | hn
    · cases n with
      | zero => exact Nat.succ_pos left
      | succ n => exact Nat.succ_lt_succ (hinner.2 n (chain_succ_iff.mp hchain))
    · exact hbelow n hn
  | error err => exact h.imp_right Below.cons

theorem Outcome.tooDeep {err : IncludeError} (hopen : Opens e dir target d)
    (hinner : Outcome e d.dir left (pieces d.text) (.error err)) :
    Outcome e dir (left + 1) (.inclusion target :: rest) (.error err) :=
  ⟨hinner.1, target, d, List.mem_cons_self, hopen, chain_succ_iff.mpr hinner.2⟩

/-- **The outcome of an expansion** in which every target can be included. -/
theorem outcome_expandPieces (done : Text) (outer : List Level) (hst : st.stack.headD [] = dir)
    (hroom : room e st = left)
    (hincludable : ∀ m, Runs e ⟨.expanding ⟨ps, done⟩ outer, st⟩ m → m.Includable e) :
    Outcome e dir left ps (expandPieces e left ps st).1 := by
  induction left, ps, st using expand_induction (e := e) generalizing dir done outer with
  | nil left st =>
    rw [expandPieces_nil]
    exact ⟨.nil dir, fun n ⟨_, _, hmem, _⟩ => absurd hmem List.not_mem_nil⟩
  | literal left s rest st ih =>
    rw [expandPieces_literal]
    exact (ih _ _ hst hroom fun m hruns => hincludable m (.head rfl hruns)).literal
  | refused left target rest st err st₁ h =>
    obtain ⟨hwithin, text, hread⟩ := hincludable _ .refl target rest done outer rfl
    rw [show State.stack _ = st.stack from rfl, hst] at hwithin hread
    obtain ⟨rfl, rfl⟩ := openTarget_eq_error hst hwithin hread h
    obtain ⟨real, hopens⟩ := exists_opens hwithin hread
    rw [expandPieces_refused h]
    exact ⟨rfl, target, _, List.mem_cons_self, hopens, .nil _⟩
  | opened left target rest st text st₁ h hinner ih =>
    obtain ⟨d, hopens, rfl, hstack⟩ := opens_of_openTarget hst h
    have hnext := next_opened rest done outer (hroom ▸ h)
    have hroom₁ := room_of_openTarget h hroom
    have htop : st₁.stack.headD [] = d.dir := by rw [hstack, List.headD_cons]
    -- the moments within the file, and those after it, are moments of this run
    have hinner := hinner [] (⟨rest, done⟩ :: outer) htop hroom₁ fun m hruns =>
      hincludable m (.head hnext hruns)
    cases hresult : expandPieces e left (pieces d.text) st₁ with
    | mk result st₂ =>
      rw [hresult] at hinner
      cases result with
      | error err =>
        rw [expandPieces_failed h hresult]
        exact hinner.tooDeep hopens
      | ok s =>
        rw [expandPieces_opened h hresult]
        have hback := stack_pop_expanded h hresult
        have hreturn : Runs e ⟨.expanding ⟨.inclusion target :: rest, done⟩ outer, st⟩
            ⟨.expanding ⟨rest, done ++ s⟩ outer, st₂.pop⟩ := by
          have hruns := runs_expandPieces (pieces d.text) [] (⟨rest, done⟩ :: outer) hroom₁
          rw [hresult] at hruns
          exact .head hnext (.tail hruns rfl)
        exact hinner.inclusion hopens (ih st₂.pop _ _ (hback ▸ hst)
          ((room_congr hback).trans hroom) fun m hruns => hincludable m (hreturn.trans hruns))

/-! ### Pages -/

section

variable {source : Text} {result : Except IncludeError Text}

private theorem Outcome.eq_tooDeep (h : Outcome e dir left (pieces source) result)
    (hchain : Chain e ⟨dir, source⟩ n) (hlong : left < n) :
    result = .error (.tooDeep e.policy.maxIncludeDepth) := by
  cases result with
  | error err => exact congrArg Except.error h.1
  | ok out =>
    obtain _ | n := n
    · omega
    · exact absurd (h.2 n (chain_succ_iff.mp hchain)) (by omega)

/-- Where no chain is longer than the room, the text is the only one with the files in place. -/
theorem Outcome.exists_ok (h : Outcome e dir left (pieces source) result)
    (hshort : ∀ n, Chain e ⟨dir, source⟩ n → n ≤ left) :
    ∃ out, result = .ok out ∧ ∀ out', Spliced e dir (pieces source) out' ↔ out' = out := by
  cases result with
  | error err => exact absurd (hshort _ (chain_succ_iff.mpr h.2)) (by omega)
  | ok out =>
    refine ⟨out, rfl, fun out' => ⟨fun hspliced => hspliced.unique h.1, ?_⟩⟩
    rintro rfl
    exact h.1

end


/-- **The limit is exact, and inclusion ends.** Let every target that the expansion of a page comes
to lie in its directory and be a file with a text. Then the expansion ends. If no chain of
inclusions that the page begins is longer than the limit, it gives the text with every file in
its place, which is the only one; otherwise, and so for every cycle that the page leads to, it
fails for the depth. -/
theorem depth_limit (source : Text) (hst : st.stack = [dir])
    (hincludable : ∀ m, Runs e (begin (pieces source) st) m → m.Includable e) :
    (∀ m, Runs e (begin (pieces source) st) m →
      Runs e m ⟨.ended (expand e source st).1, (expand e source st).2⟩) ∧
    ((∀ n, Chain e ⟨dir, source⟩ n → (n : Int) ≤ max e.policy.maxIncludeDepth 0) →
      ∃ out, (expand e source st).1 = .ok out ∧
        ∀ out', Spliced e dir (pieces source) out' ↔ out' = out) ∧
    (∀ n, Chain e ⟨dir, source⟩ n → max e.policy.maxIncludeDepth 0 < (n : Int) →
      (expand e source st).1 = .error (.tooDeep e.policy.maxIncludeDepth)) ∧
    ∀ d, Relation.ReflTransGen (Includes e) ⟨dir, source⟩ d → Relation.TransGen (Includes e) d d →
      (expand e source st).1 = .error (.tooDeep e.policy.maxIncludeDepth) := by
  have hroom := room_of_stack (e := e) hst
  have houtcome : Outcome e dir e.policy.maxIncludeDepth.toNat (pieces source)
      (expand e source st).1 :=
    outcome_expandPieces [] [] (by rw [hst, List.headD_cons]) hroom hincludable
  have hdeep : ∀ n, Chain e ⟨dir, source⟩ n → max e.policy.maxIncludeDepth 0 < (n : Int) →
      (expand e source st).1 = .error (.tooDeep e.policy.maxIncludeDepth) :=
    fun n hchain hlong => houtcome.eq_tooDeep hchain (by omega)
  refine ⟨fun m hruns => hruns.to_ended (runs_expand source hst), fun hshort => ?_, hdeep, ?_⟩
  · refine houtcome.exists_ok fun n hchain => ?_
    have hle := hshort n hchain
    omega
  · -- going round the cycle makes a chain of any length
    intro d hreach hcycle
    obtain ⟨k, hk, hchain⟩ := exists_chain_of_cycle hcycle (e.policy.maxIncludeDepth.toNat + 1)
    obtain ⟨j, hj, hchain⟩ := hchain.extend hreach
    exact hdeep j hchain (by omega)

/-- A directive that a text begins with is its first piece. -/
theorem pieces_of_match {s : Text} {m : Target} (h : match? s = some m) :
    pieces s = .inclusion m.path :: pieces m.rest := by
  cases s with
  | nil => cases h
  | cons c s =>
    rw [pieces]
    split
    · next m' hm =>
      cases hm.symm.trans h
      rfl
    · next hm => cases hm.symm.trans h

/-- The text of a page that includes the file `a`. -/
def mirrorText : Text := "<?go:include a ?>".toList

/-- A file `a` with this text, so that it includes itself. -/
def mirror : Setting where
  tree := ⟨[
    (["p".toList], .directory),
    (["p".toList, "a".toList], .file (Utf8.encode mirrorText))]⟩
  cwd := []
  policy := { includeDir := "p".toList, maxIncludeDepth := 1 }

/-- In `mirror` the page leads to a cycle, and fails for the depth. -/
theorem depth_limit_mirror :
    Relation.TransGen (Includes mirror) ⟨"/p".toList, mirrorText⟩ ⟨"/p".toList, mirrorText⟩ ∧
      (expand mirror mirrorText { stack := ["/p".toList] }).1 = .error (.tooDeep 1) := by
  have hpieces : pieces mirrorText = [.inclusion "a".toList] := by
    rw [pieces_of_match (m := ⟨"a".toList, []⟩) (by decide), pieces]
  have hwithin : mirror.tree.isWithin [] (Path.join "/p".toList "a".toList) "/p".toList =
      .ok true := by cbv
  have hread : readText mirror.tree [] (Path.join "/p".toList "a".toList) = .ok mirrorText := by cbv
  have hself : Includes mirror ⟨"/p".toList, mirrorText⟩ ⟨"/p".toList, mirrorText⟩ :=
    ⟨"a".toList, by simp [hpieces], hwithin, hread, "/p/a".toList, by cbv, by cbv⟩
  have hopen : openTarget mirror 1 "a".toList { stack := ["/p".toList] } =
      (.ok mirrorText, { stack := ["/p".toList, "/p".toList] }) := by cbv
  have hdeep : openTarget mirror 0 "a".toList { stack := ["/p".toList, "/p".toList] } =
      (.error (.tooDeep 1), { stack := ["/p".toList, "/p".toList] }) := by cbv
  have hincludable : ∀ m, Runs mirror (begin (pieces mirrorText) { stack := ["/p".toList] }) m →
      m.Includable mirror := by
    rw [hpieces]
    rintro m hruns target rest done outer hprogress
    have hfirst := next_opened [] [] [] hopen
    have hsecond := next_refused [] [] [⟨[], []⟩] hdeep
    rw [hpieces] at hfirst
    -- there are two moments with a target, the page and the file in it
    rcases hruns.cases_head with rfl | ⟨m₁, hm₁, hruns⟩
    · cases hprogress
      exact ⟨hwithin, _, hread⟩
    · obtain rfl := Option.some.inj (hfirst.symm.trans hm₁)
      rcases hruns.cases_head with rfl | ⟨m₂, hm₂, hruns⟩
      · cases hprogress
        exact ⟨hwithin, _, hread⟩
      · obtain rfl := Option.some.inj (hsecond.symm.trans hm₂)
        rcases Runs.of_failing hruns with ⟨_, _, rfl⟩ | ⟨_, rfl⟩ <;> cases hprogress
  have hst : ({ stack := ["/p".toList] } : State).stack = ["/p".toList] := rfl
  obtain ⟨-, -, -, hcycle⟩ := depth_limit mirrorText hst hincludable
  exact ⟨.single hself, hcycle _ .refl (.single hself)⟩

end Inclusion

end ServerPages
