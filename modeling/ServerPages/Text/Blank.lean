import ServerPages.Text.Basic

/-!
# White space

White space is the class of Unicode, the four information separators included.  The module holds
the class and the operations that trim it from the ends of a text.
-/

namespace ServerPages

namespace Text

/-- White space: the control blanks, the information separators, and the spaces and separators
of Unicode. -/
def isBlank (c : Char) : Bool :=
  let n := c.toNat
  (9 ≤ n && n ≤ 13) || (28 ≤ n && n ≤ 32) || n == 0x85 || n == 0xA0 || n == 0x1680 ||
    (0x2000 ≤ n && n ≤ 0x200A) || n == 0x2028 || n == 0x2029 || n == 0x202F || n == 0x205F ||
    n == 0x3000

/-- The text without the white space at its beginning. -/
def trimLeft (s : Text) : Text := s.dropWhile isBlank

/-- The text without the white space at its end. -/
def trimRight (s : Text) : Text := (s.reverse.dropWhile isBlank).reverse

/-- The text without the white space at both ends. -/
def trim (s : Text) : Text := trimRight (trimLeft s)

/-- White space around a number: all but the information separators. -/
def isMargin (c : Char) : Bool := isBlank c && !(28 ≤ c.toNat && c.toNat ≤ 31)

/-- A number's text without the white space around it. -/
def trimMargins (s : Text) : Text :=
  ((s.dropWhile isMargin).reverse.dropWhile isMargin).reverse

/-- Whether a text holds nothing but white space. -/
def isAllBlank (s : Text) : Bool := s.all isBlank

/-- The white space a text begins with. -/
def leadingBlanks (s : Text) : Text := s.takeWhile isBlank

theorem leadingBlanks_append_trimLeft (s : Text) : leadingBlanks s ++ trimLeft s = s :=
  List.takeWhile_append_dropWhile

end Text

end ServerPages
