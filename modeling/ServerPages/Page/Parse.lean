import ServerPages.Page.Include

/-!
# Cutting a page into nodes

A page is expanded and cut into regions; each region becomes a node that also knows its line and,
for a directive, the indentation its first line of code is taken to have.
-/

namespace ServerPages

namespace Node

/-- The text after the last newline of `head` followed by `s`, where `head` holds none: the part
of the last line that has been passed. -/
def lineHead (head s : Text) : Text :=
  if '\n' ∈ s then Text.lastPiece '\n' s else head ++ s

/-- The indentation of a directive's code: that of its own line if the code starts on a line of
its own, else blanks as wide as what stands before the directive on its line. -/
def indentOf (head spacing : Text) : Text :=
  if '\n' ∈ spacing then Text.lastPiece '\n' spacing
  else head.map fun c => if Text.isBlank c then c else ' '

/-- The nodes of regions that begin on a line, after `head` on that line. -/
def ofRegions (line : Nat) (head : Text) : List Region → List Node
  | [] => []
  | r :: rest =>
    let node : Node := match r with
      | .literal s => { kind := .text, text := s, line := line }
      | .directive d =>
        { kind := d.kind, text := d.code, trailing := d.trailing,
          indent := indentOf head d.spacing, line := line }
    node :: ofRegions (line + r.source.count '\n') (lineHead head r.source) rest

/-- The nodes of a page in which nothing is left to include. -/
def ofText (s : Text) : List Node := ofRegions 1 [] (Region.scan s)

end Node

namespace Page

/-- A note for each directive among nodes. -/
def directiveNotes (nodes : List Node) : List Note :=
  (nodes.filter (·.kind ≠ .text)).map fun n =>
    ⟨3, "Line ".toList ++ Decimal.ofNat n.line ++ ": ".toList ++ n.kind.word ++
      " directive".toList⟩

/-- The nodes of a page, and the notes left on the way, in order. -/
def parse (e : Inclusion.Setting) (source : Text) :
    Except IncludeError (List Node) × List Note :=
  match Inclusion.start e with
  | .error err => (.error (.path err), [])
  | .ok st =>
    match Inclusion.expand e source st with
    | (.error err, st) => (.error err, st.notes.reverse)
    | (.ok text, st) =>
      let nodes := Node.ofText text
      (.ok nodes, st.notes.reverse ++ if e.debug then directiveNotes nodes else [])

end Page

end ServerPages
