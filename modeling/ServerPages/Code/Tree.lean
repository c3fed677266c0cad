import ServerPages.Text.Letter

/-!
# Syntax trees

A program is a tree.  A node has a shape, which says what construct it is and holds the names in
it; the line on which the construct begins; and its parts, in a fixed order for each shape.

Trees are walked by levels: a node comes before the nodes of the next level, and the nodes of a
level in the order of their parents (`walk`).  The main statement is that a walk meets the nodes
that lie in the tree and no others (`mem_walk_iff`).
-/

namespace ServerPages

namespace Code

/-- A value written out in a program. -/
inductive Constant where
  | none
  | bool (b : Bool)
  | int (n : Int)
  | text (s : Text)
  /-- Letters that spell no text. -/
  | letters (s : List Letter)
  /-- Any other value. -/
  | other
  deriving DecidableEq, Repr

/-- The value of a string. -/
def Constant.ofLetters (s : List Letter) : Constant := ((Letter.text? s).map .text).getD (.letters s)

@[simp]
theorem Constant.ofLetters_ofText (s : Text) : ofLetters (Letter.ofText s) = .text s := by
  rw [ofLetters, Letter.text?_ofText]
  rfl

/-- The construct that a node is.  A number of parts is given where a construct holds several
lists of them. -/
inductive Shape where
  | module
  -- Statements
  | function (name : Text) (body : Nat)
  | classBlock (name : Text)
  | forLoop (body : Nat)
  | whileLoop (body : Nat)
  | choice (body : Nat)
  | withBlock (items : Nat)
  | tryBlock (body handlers orelse : Nat)
  | handler (name : Option Text) (typed : Bool)
  | matchBlock
  | matchCase
  | returned
  | deleted
  | assignment
  | augmented (operator : Text)
  | annotated
  | raised
  | asserted
  | importModules (names : List Text)
  | importFrom (level : Nat) (module : Option Text) (names : List Text)
  | scope (names : List Text)
  | expression
  | pass
  | breakLoop
  | continueLoop
  -- Parameters
  | arguments (names : List Text)
  | parameter (name : Text)
  -- Expressions
  | name (id : Text)
  | constant (value : Constant)
  | attribute (name : Text)
  | subscript
  | call
  | keyword (name : Option Text)
  | starred
  | tuple
  | list
  | unary (operator : Text)
  | binary (operator : Text)
  | comparison (operators : List Text)
  | connective (operator : Text)
  | conditional
  | lambda
  | named
  | awaited
  | yielded
  | comprehension
  | generator
  | collection
  | slice
  | formatted
  | joined
  -- Patterns
  | pattern
  deriving DecidableEq, Repr

/-- A syntax tree. -/
inductive Tree where
  | node (shape : Shape) (line : Nat) (parts : List Tree)
  deriving Repr

instance : Inhabited Tree := ⟨.node .module 1 []⟩

namespace Tree

/-- The construct that a tree is. -/
def shape : Tree → Shape
  | node s _ _ => s

/-- The line on which a tree begins. -/
def line : Tree → Nat
  | node _ l _ => l

/-- The parts of a tree. -/
def parts : Tree → List Tree
  | node _ _ ps => ps

mutual

/-- The number of nodes in a tree. -/
def size : Tree → Nat
  | node _ _ ps => sizeAll ps + 1

/-- The number of nodes in trees. -/
def sizeAll : List Tree → Nat
  | [] => 0
  | t :: ts => size t + sizeAll ts

end

private theorem sizeAll_append (ts us : List Tree) : sizeAll (ts ++ us) = sizeAll ts + sizeAll us := by
  induction ts with
  | nil => simp [sizeAll]
  | cons t ts ih => simp [sizeAll, ih]; omega

/-- The nodes of trees by levels: each tree is met before its parts, which queue behind the trees
that wait. -/
def walkAll : List Tree → List Tree
  | [] => []
  | node s l ps :: rest => node s l ps :: walkAll (rest ++ ps)
termination_by ts => sizeAll ts
decreasing_by simp [sizeAll, sizeAll_append, size]; omega

/-- The nodes of a tree by levels. -/
def walk (t : Tree) : List Tree := walkAll [t]

/-- A node lies in a tree: it is the tree, or it lies in one of its parts. -/
inductive Lies : Tree → Tree → Prop
  | here (t : Tree) : Lies t t
  | inside {t p u : Tree} (hp : p ∈ u.parts) (h : Lies t p) : Lies t u

private theorem mem_walkAll_iff {t : Tree} {ts : List Tree} :
    t ∈ walkAll ts ↔ ∃ u ∈ ts, Lies t u := by
  fun_induction walkAll ts with
  | case1 => simp
  | case2 s l ps rest ih =>
    simp only [List.mem_cons, ih, List.mem_append]
    constructor
    · rintro (rfl | ⟨u, hu | hu, h⟩)
      · exact ⟨_, .inl rfl, .here _⟩
      · exact ⟨u, .inr hu, h⟩
      · exact ⟨_, .inl rfl, .inside hu h⟩
    · rintro ⟨u, rfl | hu, h⟩
      · cases h with
        | here => exact .inl rfl
        | inside hp h => exact .inr ⟨_, .inr hp, h⟩
      · exact .inr ⟨u, .inl hu, h⟩

/-- A walk meets the nodes that lie in the tree. -/
theorem mem_walk_iff {t u : Tree} : t ∈ walk u ↔ Lies t u := by
  simp [walk, mem_walkAll_iff]

end Tree

end Code

end ServerPages
