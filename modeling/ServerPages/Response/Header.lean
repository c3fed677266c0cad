import ServerPages.Metadata.Event
import ServerPages.Text.Blank
import ServerPages.Text.Case

/-!
# Response headers

The events of a page become the header of its response.  The structured form passes the known
events on, one line each, to a web server that understands them; the raw form is a header block
as browsers take it; the bare form writes nothing, for pages that write their own header.  Each
form gives the last status that the page has set.
-/

namespace ServerPages

/-- A text with a space for each of its white-space characters. -/
def sanitize (s : Text) : Text := s.map fun c => if Text.isBlank c then ' ' else c

/-- What an event says about a header field. -/
structure HeaderField where
  /-- Whether the field takes the place of those of its name. -/
  replace : Bool
  name : Text
  value : Text
  deriving DecidableEq, Repr

namespace HeaderField

/-- The message about a malformed value. -/
def malformed (s : Text) : Text := "Malformed header-field value ".toList ++ Quoted.encode s

/-- The field that the value of an event describes. -/
def parse? (s : Text) : Option HeaderField :=
  match Text.cut ' ' s with
  | (_, none) => none
  | (mark, some rest) =>
    let (name, value) := Text.cut ' ' rest
    if mark = "true".toList then some ⟨true, name, value.getD []⟩
    else if mark = "false".toList then some ⟨false, name, value.getD []⟩
    else none

end HeaderField

/-- The forms of a header. -/
inductive Format where
  | structured
  | raw
  | bare
  deriving DecidableEq, Repr

namespace Format

/-- The form that a name stands for. -/
def ofName? (name : Text) : Option Format :=
  if name = "structured".toList ∨ name = "mod_gosp".toList then some .structured
  else if name = "raw".toList then some .raw
  else if name = "none".toList then some .bare
  else none

/-- The message about an unknown name. -/
def unknown (name : Text) : Text :=
  Quoted.encode name ++ " is not a valid HTTP header format".toList

end Format

namespace Header

/-- The keys of the events that a web server understands. -/
def knownKeys : List Text :=
  ["mime-type", "http-status", "header-field", "keep-alive", "error-message",
   "debug-message"].map String.toList

/-- The status after some events: the last one set. -/
def status (events : List Event) : Text :=
  events.foldl (fun s e => if e.key = "http-status".toList then e.value else s) Event.statusOk

/-- Text with a newline behind it. -/
def line (s : Text) : Text := s ++ ['\n']

/-- The structured form: the known events, then the end of the header. -/
def structured (events : List Event) : Text :=
  (events.filter fun e => knownKeys.contains e.key).flatMap
    (fun e => line (sanitize e.key ++ ' ' :: sanitize e.value)) ++ line "end-header".toList

/-- A line of the raw form, and the name of its field. -/
structure RawField where
  name : Text
  text : Text
  deriving DecidableEq, Repr

/-- The raw form as it is made. -/
structure Raw where
  contentType : Text := "text/html".toList
  fields : List RawField := []
  deriving DecidableEq, Repr

/-- The raw form after one more event. -/
def Raw.step (r : Raw) (e : Event) : Raw :=
  if e.key = "mime-type".toList then { r with contentType := e.value }
  else if e.key = "header-field".toList then
    match HeaderField.parse? e.value with
    | none => { r with fields := r.fields ++ [⟨[], e.value⟩] }
    | some f =>
      let kept := if f.replace then
          r.fields.filter fun g => Text.lower g.name ≠ Text.lower f.name
        else r.fields
      { r with fields := kept ++ [⟨f.name, f.name ++ ": ".toList ++ f.value⟩] }
  else if knownKeys.contains e.key then r
  else { r with fields := r.fields ++ [⟨e.key, e.key ++ ": ".toList ++ e.value⟩] }

/-- The raw form. -/
def raw (events : List Event) : Text :=
  let r := events.foldl Raw.step {}
  line ("Content-type: ".toList ++ r.contentType) ++ r.fields.flatMap (line ·.text) ++ line []

/-- The header of a form. -/
def text (form : Format) (events : List Event) : Text :=
  match form with
  | .structured => structured events
  | .raw => raw events
  | .bare => []

/-- The lines of a header, each of which is written by itself. -/
def lines (form : Format) (events : List Event) : List Text :=
  match form with
  | .structured =>
    (events.filter fun e => knownKeys.contains e.key).map
      (fun e => sanitize e.key ++ ' ' :: sanitize e.value) ++ ["end-header".toList]
  | .raw =>
    let r := events.foldl Raw.step {}
    ("Content-type: ".toList ++ r.contentType) :: (r.fields.map (·.text) ++ [[]])
  | .bare => []

theorem flatMap_lines (form : Format) (events : List Event) :
    (lines form events).flatMap line = text form events := by
  cases form with
  | structured => simp only [lines, text, structured, List.flatMap_append, List.flatMap_map,
      List.flatMap_singleton]
  | raw => simp only [lines, text, raw, List.flatMap_cons, List.flatMap_append, List.flatMap_map,
      List.flatMap_nil, List.append_nil, List.append_assoc]
  | bare => rfl

end Header

end ServerPages
