import ServerPages.Text.Basic

/-!
# Page nodes

A page is literal text with directives in it.  A directive of kind `top` holds code of the
module, `block` statements of the page, `expr` one expression; `incl` names a file whose text
takes its place, and is gone before a page is cut into nodes.
-/

namespace ServerPages

/-- What a region of a page is. -/
inductive Kind where
  | top
  | block
  | expr
  | incl
  | text
  deriving DecidableEq, Repr

/-- The word for a kind. -/
def Kind.word : Kind → Text
  | .top => "top".toList
  | .block => "block".toList
  | .expr => "expr".toList
  | .incl => "include".toList
  | .text => "text".toList

/-- The kind that a word stands for. -/
def Kind.ofWord? (w : Text) : Option Kind :=
  [Kind.top, .block, .expr, .incl, .text].find? (·.word = w)

/-- One region of a page, in source order. -/
structure Node where
  kind : Kind
  /-- The literal text, or the code of a directive as it stands. -/
  text : Text
  /-- The blanks and the newline that follow a directive. -/
  trailing : Text := []
  /-- The indentation that the first line of the code is taken to have. -/
  indent : Text := []
  /-- The line of the page on which the region starts. -/
  line : Nat := 1
  deriving DecidableEq, Repr

/-- The limits under which a page is compiled. -/
structure Policy where
  /-- The number of `top` directives a page may have. -/
  maxTop : Int := 1
  /-- The directory that holds the page. -/
  includeDir : Text
  /-- How deep inclusions may nest. -/
  maxIncludeDepth : Int := 10
  deriving DecidableEq, Repr

end ServerPages
