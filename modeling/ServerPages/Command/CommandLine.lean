import ServerPages.Number.Decimal
import ServerPages.Text.Quoted

/-!
# Command lines

A command line is a list of words.  Words that begin with a hyphen are switches; a long switch
may be shortened as far as it stays clear, one-letter switches may share a word, and a switch may
take a value from its own word or from the next one.  Behind a double hyphen every word is an
argument.  A command takes switches and arguments one after the other and may stop at any of
them.
-/

namespace ServerPages

namespace CommandLine

/-- A switch: its names, the short ones first, and whether it takes a value. -/
structure Switch where
  names : List Text
  takesValue : Bool := false
  deriving DecidableEq, Repr

/-- The name of a switch in messages. -/
def Switch.title (s : Switch) : Text := Text.joinWith ['/'] s.names

/-- Why a command does not go on. -/
inductive Stop where
  /-- The command line makes no sense. -/
  | misuse (message : Text)
  /-- It asks for a text only. -/
  | shown (text : Text)
  deriving DecidableEq, Repr

/-- The stop at a switch that makes no sense. -/
def Stop.atSwitch (s : Switch) (message : Text) : Stop :=
  .misuse ("argument ".toList ++ s.title ++ ": ".toList ++ message)

/-- What a command line may hold, and how a command takes it. -/
structure Grammar (σ : Type) where
  switches : List Switch
  /-- Takes a switch, with its value if it has one. -/
  take : σ → Switch → Option Text → Except Stop σ
  /-- Takes an argument; none if the command has no use for arguments. -/
  takeArgument : Option (σ → Text → σ)

/-- A value in the same word as a switch. -/
structure Attached where
  /-- Whether an equals sign stands before it. -/
  marked : Bool
  value : Text
  deriving DecidableEq, Repr

/-- What a word is. -/
inductive Word where
  | argument (s : Text)
  /-- The mark behind which all words are arguments. -/
  | mark
  | switch (s : Switch) (name : Text) (attached : Option Attached)
  | unknown (s : Text)
  deriving DecidableEq, Repr

/-- All names of switches, with their switches. -/
def named (switches : List Switch) : List (Text × Switch) :=
  switches.flatMap fun s => s.names.map (·, s)

/-- Whether a text is a negative number. -/
def isNegativeNumber : Text → Bool
  | '-' :: s =>
    let isDigit (c : Char) : Bool := (Decimal.anyDigit? c).isSome
    let s := if Text.endsWith ['\n'] s then s.dropLast else s
    match s.dropWhile isDigit with
    | [] => !s.isEmpty
    | '.' :: t => !t.isEmpty && t.all isDigit
    | _ => false
  | _ => false

/-- The switches that a word may stand for in short. -/
def candidates (switches : List Switch) (word : Text) : List (Text × Switch × Option Attached) :=
  let all := named switches
  match word with
  | '-' :: '-' :: _ =>
    let (beginning, value) := Text.cut '=' word
    (all.filter fun n => Text.beginsWith beginning n.1).map fun (name, s) =>
      (name, s, value.map (⟨true, ·⟩))
  | _ =>
    all.filterMap fun (name, s) =>
      if name = word.take 2 then some (name, s, some ⟨false, word.drop 2⟩)
      else if Text.beginsWith word name then some (name, s, none)
      else none

/-- What a word before the mark is. -/
def classify (switches : List Switch) (word : Text) : Except Stop Word :=
  let all := named switches
  match word with
  | '-' :: _ :: _ =>
    match all.lookup word with
    | some s => .ok (.switch s word none)
    | none =>
      let (name, value) := Text.cut '=' word
      match value, all.lookup name with
      | some value, some s => .ok (.switch s name (some ⟨true, value⟩))
      | _, _ =>
        match candidates switches word with
        | [(name, s, attached)] => .ok (.switch s name attached)
        | [] =>
          if isNegativeNumber word ∨ ' ' ∈ word then .ok (.argument word) else .ok (.unknown word)
        | several =>
          .error (.misuse ("ambiguous option: ".toList ++ word ++ " could match ".toList ++
            Text.joinWith ", ".toList (several.map (·.1))))
  | _ => .ok (.argument word)

/-- What the words of a command line are. -/
def words (switches : List Switch) : List Text → Except Stop (List Word)
  | [] => .ok []
  | w :: ws =>
    if w = "--".toList then .ok (.mark :: ws.map .argument)
    else do
      let first ← classify switches w
      let rest ← words switches ws
      return first :: rest

/-- A word as it was written, apart from switches. -/
def Word.text : Word → Text
  | .argument s => s
  | .mark => "--".toList
  | .switch _ name _ => name
  | .unknown s => s

/-- What one word of switches comes to. -/
structure Bundle where
  taken : List (Switch × Option Text) := []
  /-- A switch that still waits for the next word. -/
  pending : Option Switch := none
  /-- What is left over of the word. -/
  extra : List Text := []

/-- The switches that share a word: `s` by its name, with what is attached to it. -/
def unbundle (switches : List Switch) (s : Switch) (name : Text) (marked : Bool) (value : Text)
    (taken : List (Switch × Option Text)) : Except Stop Bundle :=
  let ignored : Stop := .atSwitch s ("ignored explicit argument ".toList ++ Quoted.encode value)
  if s.takesValue then .ok { taken := taken ++ [(s, some value)] }
  else if Text.beginsWith "--".toList name then .error ignored
  else
    match value with
    | [] => .error ignored
    | c :: rest =>
      if marked ∨ c = '-' then .error ignored
      else
        let taken := taken ++ [(s, none)]
        match (named switches).lookup ['-', c] with
        | none => .ok { taken, extra := ['-' :: c :: rest] }
        | some next =>
          match rest with
          | [] => .ok { taken, pending := some next }
          | '=' :: rest => unbundle switches next ['-', c] true rest taken
          | d :: rest => unbundle switches next ['-', c] false (d :: rest) taken
termination_by value.length
decreasing_by all_goals simp only [List.length_cons]; omega

/-- A command line as it is taken. -/
structure Progress (σ : Type) where
  state : σ
  /-- Whether an argument has been taken. -/
  done : Bool := false
  /-- The words that nothing takes. -/
  extras : List Text := []

/-- Takes switches one after the other. -/
def takeAll {σ : Type} (g : Grammar σ) (state : σ) (taken : List (Switch × Option Text)) :
    Except Stop σ :=
  taken.foldlM (fun state (s, value) => g.take state s value) state

/-- Takes the argument that arguments begin with, marks around it left out; gives the words left
over. -/
def takeFirst {σ : Type} (take : σ → Text → σ) (state : σ) (ws : List Word) : σ × List Word :=
  let isMark (w : Word) : Bool := w = .mark
  match ws.dropWhile isMark with
  | .argument s :: rest => (take state s, rest.dropWhile isMark)
  | rest => (state, rest)

/-- Takes the words between switches. -/
def takeArguments {σ : Type} (g : Grammar σ) (p : Progress σ) (ws : List Word) : Progress σ :=
  match ws, g.takeArgument, p.done with
  | [], _, _ => p
  | _, some take, false =>
    let (state, rest) := takeFirst take p.state ws
    { state, done := true, extras := p.extras ++ rest.map Word.text }
  | _, _, _ => { p with extras := p.extras ++ ws.map Word.text }

/-- Takes all words. -/
def takeWords {σ : Type} (g : Grammar σ) (p : Progress σ) (plain : List Word) :
    List Word → Except Stop (Progress σ)
  | [] => .ok (takeArguments g p plain)
  | .unknown s :: ws =>
    let p := takeArguments g p plain
    takeWords g { p with extras := p.extras ++ [s] } [] ws
  | .switch s name attached :: ws => do
    let p := takeArguments g p plain
    let bundle ← match attached with
      | some a => unbundle g.switches s name a.marked a.value []
      | none => pure { pending := some s }
    match bundle.pending with
    | none =>
      let state ← takeAll g p.state bundle.taken
      takeWords g { p with state, extras := p.extras ++ bundle.extra } [] ws
    | some s =>
      if s.takesValue then
        match ws with
        | .argument value :: rest =>
          let state ← takeAll g p.state (bundle.taken ++ [(s, some value)])
          takeWords g { p with state } [] rest
        | _ => throw (.atSwitch s "expected one argument".toList)
      else
        let state ← takeAll g p.state (bundle.taken ++ [(s, none)])
        takeWords g { p with state } [] ws
  | w :: ws => takeWords g p (plain ++ [w]) ws

/-- What a command makes of a command line; `complete` says what is missing at its end. -/
def parse {σ : Type} (g : Grammar σ) (start : σ) (complete : σ → Except Stop Unit)
    (line : List Text) : Except Stop σ := do
  let ws ← words g.switches line
  let p ← takeWords g ⟨start, false, []⟩ [] ws
  complete p.state
  if p.extras.isEmpty then return p.state
  else
    throw (.misuse ("unrecognized arguments: ".toList ++ Text.joinWith [' '] p.extras))

end CommandLine

end ServerPages
