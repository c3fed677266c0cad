import ServerPages.Response.Header

/-!
# The lines of a header

A header is written line by line, in the structured form as soon as an event comes, in the raw form
when all of them have come.  The lines are made of the signals as they were sent, whose letters need
not be characters; a line with other letters cannot be encoded, and nothing is written from there on.

The main statement is that the lines of events are those of their header (`linesOf_signals`).
-/

namespace ServerPages

/-- What a signal says about a header field. -/
structure SentField where
  /-- Whether the field takes the place of those of its name. -/
  replace : Bool
  name : List Letter
  value : List Letter
  deriving DecidableEq, Repr

namespace SentField

/-- The field that the value of a signal describes. -/
def parse? (s : List Letter) : Option SentField :=
  match Letter.cut ' ' s with
  | (_, none) => none
  | (mark, some rest) =>
    let (name, value) := Letter.cut ' ' rest
    if mark = Letter.ofText "true".toList then some ⟨true, name, value.getD []⟩
    else if mark = Letter.ofText "false".toList then some ⟨false, name, value.getD []⟩
    else none

/-- The field of a header as it is sent. -/
def ofField (f : HeaderField) : SentField :=
  ⟨f.replace, Letter.ofText f.name, Letter.ofText f.value⟩

private theorem parse?_ofText (s : Text) :
    parse? (Letter.ofText s) = (HeaderField.parse? s).map ofField := by
  unfold parse? HeaderField.parse?
  rw [Letter.cut_ofText]
  rcases Text.cut ' ' s with ⟨mark, _ | rest⟩
  · rfl
  · simp only [Option.map_some, Letter.cut_ofText, Letter.ofText_inj]
    have hvalue : ((Text.cut ' ' rest).2.map Letter.ofText).getD [] =
        Letter.ofText ((Text.cut ' ' rest).2.getD []) := by
      cases (Text.cut ' ' rest).2 <;> rfl
    rw [hvalue]
    split
    · rfl
    · split <;> rfl

end SentField

namespace Header

/-- Whether a signal is one that a web server understands. -/
def isKnown (s : Signal) : Bool := (knownKeys.map Letter.ofText).contains s.key

/-- The status after some signals: the last one set. -/
def statusOf (signals : List Signal) : List Letter :=
  signals.foldl (fun status s => if s.hasKey "http-status" then s.value else status)
    (Letter.ofText Event.statusOk)

/-- The raw form as it is made: the type of the body, and the names and lines of fields. -/
structure Draft where
  contentType : List Letter := Letter.ofText "text/html".toList
  fields : List (List Letter × List Letter) := []
  deriving DecidableEq, Repr

/-- The raw form after one more signal. -/
def Draft.step (d : Draft) (s : Signal) : Draft :=
  if s.hasKey "mime-type" then { d with contentType := s.value }
  else if s.hasKey "header-field" then
    match SentField.parse? s.value with
    | none => { d with fields := d.fields ++ [([], s.value)] }
    | some f =>
      let kept := if f.replace then
          d.fields.filter fun g => Letter.lower g.1 ≠ Letter.lower f.name
        else d.fields
      { d with fields := kept ++ [(f.name, f.name ++ Letter.ofText ": ".toList ++ f.value)] }
  else if isKnown s then d
  else { d with fields := d.fields ++ [(s.key, s.key ++ Letter.ofText ": ".toList ++ s.value)] }

/-- The lines that a form writes for a signal as soon as it comes. -/
def linesAtOnce (form : Format) (s : Signal) : List (List Letter) :=
  match form with
  | .structured =>
    if isKnown s then [Letter.sanitize s.key ++ .char ' ' :: Letter.sanitize s.value] else []
  | .raw | .bare => []

/-- The lines that a form writes when all signals have come. -/
def linesAtEnd (form : Format) (signals : List Signal) : List (List Letter) :=
  match form with
  | .structured => [Letter.ofText "end-header".toList]
  | .raw =>
    let d := signals.foldl Draft.step {}
    (Letter.ofText "Content-type: ".toList ++ d.contentType) :: (d.fields.map (·.2) ++ [[]])
  | .bare => []

/-- The lines of a header. -/
def linesOf (form : Format) (signals : List Signal) : List (List Letter) :=
  signals.flatMap (linesAtOnce form) ++ linesAtEnd form signals

/-! ### Writing -/

/-- Lines with a newline behind each of them. -/
def document (lines : List (List Letter)) : List Letter := lines.flatMap (· ++ [.char '\n'])

/-- The bytes of lines, if all of them can be encoded. -/
def encode? (lines : List (List Letter)) : Option Bytes := Letter.encode? (document lines)

/-- Writes lines one after the other: what is written, and the fault of the first line that cannot
be encoded, where writing ends. -/
def write : List (List Letter) → List Bytes × Option Letter.Fault
  | [] => ([], none)
  | l :: ls =>
    match Letter.encode? (l ++ [.char '\n']) with
    | none => ([], Letter.fault? (l ++ [.char '\n']))
    | some b =>
      let (parts, fault) := write ls
      (b :: parts, fault)

theorem encode?_append (ls ms : List (List Letter)) :
    encode? (ls ++ ms) = (encode? ls).bind fun a => (encode? ms).map (a ++ ·) := by
  rw [encode?, document, List.flatMap_append, Letter.encode?_append]
  rfl

private theorem encode?_cons (l : List Letter) (ls : List (List Letter)) : encode? (l :: ls) =
    (Letter.encode? (l ++ [.char '\n'])).bind fun a => (encode? ls).map (a ++ ·) := by
  rw [encode?, document, List.flatMap_cons, Letter.encode?_append]
  rfl

/-- Lines that can be encoded are written as a whole. -/
theorem write_of_encode? {ls : List (List Letter)} {b : Bytes} (h : encode? ls = some b) :
    ∃ parts, write ls = (parts, none) ∧ parts.flatten = b := by
  induction ls generalizing b with
  | nil => exact ⟨[], rfl, Option.some.inj h⟩
  | cons l ls ih =>
    rw [encode?_cons] at h
    obtain ⟨a, ha, h⟩ := Option.bind_eq_some_iff.mp h
    obtain ⟨c, hc, rfl⟩ := Option.map_eq_some_iff.mp h
    obtain ⟨parts, hparts, rfl⟩ := ih hc
    exact ⟨a :: parts, by rw [write, ha, hparts], rfl⟩

/-- Of other lines, writing meets a fault. -/
theorem exists_write_of_encode?_eq_none {ls : List (List Letter)} (h : encode? ls = none) :
    ∃ parts f, write ls = (parts, some f) := by
  induction ls with
  | nil => cases h
  | cons l ls ih =>
    rw [encode?_cons] at h
    cases hl : Letter.encode? (l ++ [.char '\n']) with
    | none =>
      cases hf : Letter.fault? (l ++ [.char '\n']) with
      | some f => exact ⟨[], f, by rw [write, hl, hf]⟩
      | none =>
        obtain ⟨t, ht⟩ := Letter.fault?_eq_none_iff.mp hf
        rw [ht, Letter.encode?_ofText] at hl
        cases hl
    | some a =>
      rw [hl] at h
      obtain ⟨parts, f, hf⟩ := ih (Option.map_eq_none_iff.mp h)
      exact ⟨a :: parts, f, by rw [write, hl, hf]⟩

/-! ### Events -/

/-- The raw form of events as it is sent. -/
def Draft.ofRaw (r : Raw) : Draft where
  contentType := Letter.ofText r.contentType
  fields := r.fields.map fun f => (Letter.ofText f.name, Letter.ofText f.text)

private theorem hasKey_signal (key : String) (e : Event) :
    e.signal.hasKey key = decide (e.key = key.toList) := by
  show decide (Letter.ofText e.key = Letter.ofText key.toList) = _
  simp only [Letter.ofText_inj]

private theorem isKnown_signal (e : Event) : isKnown e.signal = knownKeys.contains e.key := by
  rw [Bool.eq_iff_iff, isKnown, List.contains_iff_mem, List.contains_iff_mem, List.mem_map]
  exact ⟨fun ⟨key, hkey, h⟩ => Letter.ofText_inj.mp h ▸ hkey, fun h => ⟨e.key, h, rfl⟩⟩

private theorem sanitize_ofText (s : Text) :
    Letter.sanitize (Letter.ofText s) = Letter.ofText (ServerPages.sanitize s) := by
  simp [Letter.sanitize, Letter.ofText, ServerPages.sanitize]

theorem statusOf_signals (events : List Event) :
    statusOf (events.map Event.signal) = Letter.ofText (status events) := by
  unfold statusOf status
  rw [List.foldl_map]
  generalize Event.statusOk = first
  induction events generalizing first with
  | nil => rfl
  | cons e events ih =>
    rw [List.foldl_cons, List.foldl_cons, ← ih, hasKey_signal]
    by_cases h : e.key = "http-status".toList
    · simp only [h, decide_true, if_true]
      rfl
    · simp only [h, decide_false, Bool.false_eq_true, if_false]

/-- What is kept of the fields of the raw form does not depend on how they are held. -/
theorem Draft.filter_ofRaw (r : Raw) (name : Text) :
    (ofRaw r).fields.filter (fun g => Letter.lower g.1 ≠ Letter.lower (Letter.ofText name)) =
      (r.fields.filter fun g => Text.lower g.name ≠ Text.lower name).map
        fun g => (Letter.ofText g.name, Letter.ofText g.text) := by
  rw [ofRaw, List.filter_map]
  refine congrArg (List.map _ <| List.filter · r.fields) (funext fun g => ?_)
  simp only [Function.comp, Letter.lower_ofText, ne_eq, Letter.ofText_inj]

/-- One more field of the raw form. -/
theorem Draft.ofRaw_field (r : Raw) (kept : List RawField) (name value : Text) :
    { ofRaw r with fields := (kept.map fun g => (Letter.ofText g.name, Letter.ofText g.text)) ++
        [(Letter.ofText name,
          Letter.ofText name ++ Letter.ofText ": ".toList ++ Letter.ofText value)] } =
      ofRaw { r with fields := kept ++ [⟨name, name ++ ": ".toList ++ value⟩] } := by
  rw [ofRaw, ofRaw, List.map_append, List.map_singleton, Letter.ofText_append,
    Letter.ofText_append]

private theorem Draft.step_signal (r : Raw) (e : Event) :
    (Draft.ofRaw r).step e.signal = Draft.ofRaw (r.step e) := by
  unfold Draft.step Raw.step
  simp only [hasKey_signal, isKnown_signal, decide_eq_true_eq]
  split
  · rfl
  · split
    · show (match SentField.parse? (Letter.ofText e.value) with
        | none => _
        | some f => _) = _
      rw [SentField.parse?_ofText]
      cases HeaderField.parse? e.value with
      | none =>
        dsimp only [Option.map_none]
        rw [ofRaw, ofRaw, List.map_append]
        rfl
      | some f =>
        obtain ⟨_ | _, name, value⟩ := f
        · exact Draft.ofRaw_field r r.fields name value
        · have hkept := Draft.filter_ofRaw r name
          simp only [Option.map_some, SentField.ofField, if_true, hkept]
          exact Draft.ofRaw_field r _ name value
    · split
      · rfl
      · exact Draft.ofRaw_field r r.fields e.key e.value

/-- **The lines of events are those of their header.** -/
theorem linesOf_signals (form : Format) (events : List Event) :
    linesOf form (events.map Event.signal) = (lines form events).map Letter.ofText := by
  rw [linesOf, List.flatMap_map]
  cases form with
  | structured =>
    have hline (e : Event) : linesAtOnce .structured e.signal =
        if knownKeys.contains e.key then
          [Letter.ofText (ServerPages.sanitize e.key ++ ' ' :: ServerPages.sanitize e.value)]
        else [] := by
      rw [linesAtOnce, isKnown_signal, Letter.ofText_append, ← sanitize_ofText]
      show (if _ then [_ ++ Letter.char ' ' :: Letter.sanitize (Letter.ofText e.value)] else _) = _
      rw [sanitize_ofText]
      rfl
    simp only [hline, lines, List.map_append, List.map_map]
    refine congrArg (· ++ _) ?_
    induction events with
    | nil => rfl
    | cons e events ih =>
      rw [List.flatMap_cons, ih, List.filter_cons]
      split <;> rfl
  | raw =>
    have hraw (r : Raw) : (events.map Event.signal).foldl Draft.step (Draft.ofRaw r) =
        Draft.ofRaw (events.foldl Raw.step r) := by
      induction events generalizing r with
      | nil => rfl
      | cons e events ih =>
        rw [List.map_cons, List.foldl_cons, Draft.step_signal]
        exact ih (r.step e)
    have hnone : events.flatMap (fun e => linesAtOnce .raw e.signal) = [] :=
      List.flatMap_eq_nil_iff.mpr fun _ _ => rfl
    have hend := hraw {}
    show _ ++ (_ ++ Draft.contentType _) :: ((Draft.fields _).map (·.2) ++ [[]]) = _
    rw [hnone, show ({} : Draft) = Draft.ofRaw {} from rfl, hend, lines, List.map_cons,
      List.map_append, Letter.ofText_append, List.map_map, Draft.ofRaw, List.map_map]
    rfl
  | bare => exact List.append_eq_nil_iff.mpr ⟨List.flatMap_eq_nil_iff.mpr fun _ _ => rfl, rfl⟩

/-- The lines of events can be encoded, and make their header. -/
theorem encode?_signals (form : Format) (events : List Event) :
    encode? (linesOf form (events.map Event.signal)) = some (Utf8.encode (text form events)) := by
  have hdocument (ls : List Text) :
      document (ls.map Letter.ofText) = Letter.ofText (ls.flatMap line) := by
    induction ls with
    | nil => rfl
    | cons l ls ih =>
      rw [List.map_cons, List.flatMap_cons, Letter.ofText_append, ← ih, document, List.flatMap_cons,
        line, Letter.ofText_append]
      rfl
  rw [linesOf_signals, encode?, hdocument, Letter.encode?_ofText, flatMap_lines]

end Header

end ServerPages
