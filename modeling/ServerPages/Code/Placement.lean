import ServerPages.Code.Tree

/-!
# Places of statements

A program whose grammar is right may still hold a statement in a place where it means nothing: a
`return` outside a function, or a `break` outside a loop.  Blocks that loop or guard are nested
in a function to a limited depth.
-/

namespace ServerPages

namespace Code

/-- What surrounds a part of a program. -/
structure Place where
  inFunction : Bool := false
  inLoop : Bool := false
  /-- The number of blocks around that loop or guard, within the function at hand. -/
  depth : Nat := 0
  deriving DecidableEq, Repr

namespace Place

/-- The most blocks that may be nested. -/
def depthLimit : Nat := 20

/-- The inside of a loop. -/
def loop (p : Place) : Place := { p with inLoop := true, depth := p.depth + 1 }

/-- The inside of blocks that guard. -/
def guarded (p : Place) (blocks : Nat) : Place := { p with depth := p.depth + blocks }

/-- The place of part number `i` of a node that has `count` parts and stands at a place. -/
def part (p : Place) (shape : Shape) (count i : Nat) : Place :=
  match shape with
  | .function .. | .lambda => { inFunction := true }
  | .classBlock _ => {}
  | .forLoop body => if 2 ≤ i ∧ i < 2 + body then p.loop else p
  | .whileLoop body => if 1 ≤ i ∧ i < 1 + body then p.loop else p
  | .withBlock items => if items ≤ i then p.guarded items else p
  | .tryBlock body handlers orelse =>
    let final := if body + handlers + orelse < count then 1 else 0
    if i < body then p.guarded (final + if handlers = 0 then 0 else 1)
    else if i < body + handlers then p.guarded (final + 1)
    else p.guarded final
  | .handler _ _ => p.guarded 1
  | _ => p

/-- Whether a node of a shape may stand at a place. -/
def admits (p : Place) : Shape → Bool
  | .returned | .yielded | .awaited => p.inFunction
  | .breakLoop | .continueLoop => p.inLoop
  | _ => true

end Place

namespace Tree

mutual

/-- Whether all of a tree may stand where it does. -/
def isPlaced (p : Place) : Tree → Bool
  | .node s _ ts =>
    p.admits s && decide (p.depth ≤ Place.depthLimit) && arePlaced (p.part s ts.length) 0 ts

/-- Whether trees may stand where they do; the place of each is found by its number. -/
def arePlaced (place : Nat → Place) (i : Nat) : List Tree → Bool
  | [] => true
  | t :: ts => isPlaced (place i) t && arePlaced place (i + 1) ts

end

end Tree

end Code

end ServerPages
