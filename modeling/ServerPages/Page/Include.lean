import ServerPages.Page.Region
import ServerPages.Path.Guarded
import ServerPages.Log

/-!
# Inclusion

An `include` directive is replaced by the text of the file it names, expanded in turn.  The
directories of the files being included form a stack; a target is seen from the directory on top
and must lie within it.  Nesting is bounded.

Expansion carries the stack as state, pushes the directory of the file it enters, and pops it
however the inclusion ends.
-/

namespace ServerPages

/-- Why an inclusion fails. -/
inductive IncludeError where
  | outside (o : Outside)
  | tooDeep (maximum : Int)
  | path (e : PathError)
  | decoding (fault : Utf8.Fault)
  deriving DecidableEq, Repr

/-- Why an inclusion fails, in words. -/
def IncludeError.message : IncludeError → Text
  | .outside o => o.message
  | .tooDeep maximum => "Inclusion depth exceeded the maximum of ".toList ++ Decimal.ofInt maximum
  | .path e => e.message
  | .decoding fault => fault.message

namespace Inclusion

/-- An `include` directive in a page: its target, and what follows it. -/
structure Target where
  path : Text
  rest : Text
  deriving DecidableEq, Repr

/-- The rest after white space and a terminator, if they come next. -/
def closing? (s : Text) : Option Text := Text.after? Directive.terminator (Text.trimLeft s)

/-- What stands before the first closing on a line, and what follows that closing; `close` gives
the rest after a closing that comes next. -/
def beforeClosing (close : Text → Option Text) : Text → Option (Text × Text)
  | [] => none
  | c :: s =>
    match close (c :: s) with
    | some rest => some ([], rest)
    | none =>
      if c = '\n' then none
      else (beforeClosing close s).map fun (t, rest) => (c :: t, rest)

/-- The text that opens an `include` directive. -/
def opening : Text := Directive.opening ++ Kind.incl.word

theorem opening_ne_nil : opening ≠ [] := by simp [opening, Directive.opening]

/-- The target that follows the keyword: it starts with the first character that is no white
space and stays on that character's line. -/
def target? (afterWord : Text) : Option Target :=
  if (Text.leadingBlanks afterWord).isEmpty then none
  else
    match Text.trimLeft afterWord with
    | [] => none
    | c :: t =>
      (beforeClosing closing? t).map fun (tail, rest) =>
        ⟨c :: tail, (Directive.splitTrailing rest).2⟩

/-- The `include` directive that begins a text. -/
def match? (s : Text) : Option Target := (Text.after? opening s).bind target?

private theorem length_trimLeft_le (s : Text) : (Text.trimLeft s).length ≤ s.length :=
  (List.dropWhile_suffix _).length_le

private theorem length_after?_le {p s r : Text} (h : Text.after? p s = some r) :
    r.length ≤ s.length := by
  rw [Text.after?_eq_some_iff.1 h]; simp

private theorem length_closing?_le {s r : Text} (h : closing? s = some r) : r.length ≤ s.length :=
  Nat.le_trans (length_after?_le h) (length_trimLeft_le s)

private theorem length_beforeClosing_le {close : Text → Option Text}
    (hclose : ∀ s r, close s = some r → r.length ≤ s.length) {s t rest : Text}
    (h : beforeClosing close s = some (t, rest)) : rest.length ≤ s.length := by
  induction s generalizing t with
  | nil => cases h
  | cons c s ih =>
    rw [beforeClosing] at h
    cases hc : close (c :: s) with
    | some r =>
      rw [hc] at h
      cases h
      exact hclose _ _ hc
    | none =>
      rw [hc] at h
      by_cases hn : c = '\n'
      · simp [hn] at h
      · simp only [hn, ↓reduceIte, Option.map_eq_some_iff] at h
        obtain ⟨⟨t', r'⟩, hs, he⟩ := h
        cases he
        exact Nat.le_succ_of_le (ih hs)

private theorem length_target?_le {s : Text} {m : Target} (h : target? s = some m) :
    m.rest.length ≤ s.length := by
  unfold target? at h
  split at h
  · simp at h
  · split at h
    · simp at h
    · next c t hc =>
      obtain ⟨⟨tail, rest⟩, ht, rfl⟩ := Option.map_eq_some_iff.1 h
      have h2 := length_beforeClosing_le (fun _ _ => length_closing?_le) ht
      have h3 := length_trimLeft_le s
      have h4 := congrArg List.length (Directive.splitTrailing_append rest)
      rw [hc] at h3
      simp only [List.length_append, List.length_cons] at h3 h4 ⊢
      omega

private theorem length_match?_lt {s : Text} {m : Target} (h : match? s = some m) :
    m.rest.length < s.length := by
  obtain ⟨a, ha, hm⟩ := Option.bind_eq_some_iff.1 h
  have h1 := congrArg List.length (Text.after?_eq_some_iff.1 ha)
  have h2 := List.length_pos_iff.2 opening_ne_nil
  have h3 := length_target?_le hm
  rw [List.length_append] at h1
  omega

/-- A piece of a page before inclusion. -/
inductive Piece where
  | literal (s : Text)
  | inclusion (target : Text)
  deriving DecidableEq, Repr

/-- The pieces of a page, `include` directives leftmost first. -/
def pieces (s : Text) : List Piece :=
  match s with
  | [] => []
  | c :: t =>
    match h : match? (c :: t) with
    | some m =>
      have := length_match?_lt h
      .inclusion m.path :: pieces m.rest
    | none =>
      match pieces t with
      | .literal l :: rest => .literal (c :: l) :: rest
      | rest => .literal [c] :: rest
termination_by s.length
decreasing_by
  · exact this
  · exact Nat.lt_succ_self _

/-- What expansion carries along: the directories of the files being included, the innermost one
first, and the notes left so far, the latest first. -/
structure State where
  stack : List Text
  notes : List Note := []
  deriving DecidableEq, Repr

/-- The text of a file: UTF-8 with uniform line ends. -/
def readText (t : FileTree) (cwd : Location) (path : Text) : Except IncludeError Text :=
  match t.read cwd (Path.tidy path) with
  | .error e => .error (.path e)
  | .ok bytes =>
    match Utf8.decode bytes with
    | .error fault => .error (.decoding fault)
    | .ok s => .ok (Text.unifyNewlines s)

/-- The surroundings of an expansion. -/
structure Setting where
  tree : FileTree
  cwd : Location
  policy : Policy
  /-- Whether inclusions are noted in the log. -/
  debug : Bool := false

/-- Finds the file that a target names from the directory on top of the stack, and reads it;
`left` is how much deeper inclusions may nest. -/
def enter (e : Setting) (left : Nat) (target : Text) (st : State) :
    Except IncludeError (Text × Text) :=
  let base := st.stack.headD []
  let path := Path.join base target
  match e.tree.isWithin e.cwd path base with
  | .error err => .error (.path err)
  | .ok false => .error (.outside ⟨target, base⟩)
  | .ok true =>
    if left = 0 then .error (.tooDeep e.policy.maxIncludeDepth)
    else (readText e.tree e.cwd path).map (path, ·)

mutual

/-- Replaces the `include` directives among pieces; `left` is how much deeper inclusions may
nest. -/
def expandPieces (e : Setting) (left : Nat) (ps : List Piece) (st : State) :
    Except IncludeError Text × State :=
  match ps with
  | [] => (.ok [], st)
  | .literal s :: rest =>
    let (result, st) := expandPieces e left rest st
    (result.map (s ++ ·), st)
  | .inclusion target :: rest =>
    match expandTarget e left target st with
    | (.error err, st) => (.error err, st)
    | (.ok s, st) =>
      let (result, st) := expandPieces e left rest st
      (result.map (s ++ ·), st)
termination_by (left, ps.length + 1)

/-- The expanded text of the file that a target names. -/
def expandTarget (e : Setting) (left : Nat) (target : Text) (st : State) :
    Except IncludeError Text × State :=
  match enter e left target st with
  | .error err => (.error err, st)
  | .ok (path, text) =>
    let noted := if e.debug then
        { st with notes := ⟨3, "Including ".toList ++ path ++ " (".toList ++
          Decimal.ofNat text.length ++ " characters)".toList⟩ :: st.notes }
      else st
    match e.tree.canonical e.cwd path with
    | .error err => (.error (.path err), noted)
    | .ok real =>
      match left with
      | 0 => (.error (.tooDeep e.policy.maxIncludeDepth), noted)
      | left + 1 =>
        let (result, after) :=
          expandPieces e left (pieces text) { noted with stack := Path.parent real :: noted.stack }
        (result, { after with stack := after.stack.tail })
termination_by (left, 0)

end

/-- The stack at the start: the canonical directory of the page. -/
def start (e : Setting) : Except PathError State :=
  (e.tree.canonical e.cwd e.policy.includeDir).map fun dir => { stack := [dir] }

/-- A page with every inclusion expanded. -/
def expand (e : Setting) (source : Text) (st : State) : Except IncludeError Text × State :=
  expandPieces e e.policy.maxIncludeDepth.toNat (pieces source) st

end Inclusion

end ServerPages
