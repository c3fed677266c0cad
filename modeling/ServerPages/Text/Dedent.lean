import ServerPages.Text.Basic

/-!
# Common indentation

The margin of a text is the longest run of spaces and tabs with which all its lines begin, lines
of nothing but spaces and tabs left out.  To dedent a text is to take its margin away.
-/

namespace ServerPages

namespace Text

/-- Whether a character indents. -/
def isIndent (c : Char) : Bool := c == ' ' || c == '\t'

/-- The longest common beginning of two texts. -/
def commonStart : Text → Text → Text
  | c :: s, d :: t => if c = d then c :: commonStart s t else []
  | _, _ => []

theorem commonStart_append_left (s t : Text) : ∃ r, s = commonStart s t ++ r := by
  induction s generalizing t with
  | nil => exact ⟨[], by cases t <;> rfl⟩
  | cons c s ih =>
    cases t with
    | nil => exact ⟨c :: s, rfl⟩
    | cons d t =>
      by_cases h : c = d
      · obtain ⟨r, hr⟩ := ih t
        exact ⟨r, by subst h; simpa [commonStart] using hr⟩
      · exact ⟨c :: s, by simp [commonStart, h]⟩

/-- The common indentation of lines that hold more than spaces and tabs, none if no line does. -/
def margin? (lines : List Text) : Option Text :=
  lines.foldl
    (fun margin line =>
      if line.all isIndent then margin
      else
        let indent := line.takeWhile isIndent
        some (match margin with
          | none => indent
          | some m => commonStart m indent))
    none

/-- A line without the margin it begins with; one of nothing but spaces and tabs becomes
empty. -/
def dedentLine (margin line : Text) : Text :=
  if line.all isIndent then []
  else (after? margin line).getD line

/-- A text without its margin. -/
def dedent (s : Text) : Text :=
  let lines := splitOn '\n' s
  joinWith ['\n'] (lines.map (dedentLine ((margin? lines).getD [])))

end Text

end ServerPages
