import ServerPages.Metadata.Event

/-!
# Channels

A page sends events over a channel, first in, first out.  The channel holds a limited number of
items.  Closing it puts an end marker behind the events; after that nothing more is sent.

The main statements are that a channel keeps the order of what it is given (`items_put`,
`items_close`) and that closing twice changes nothing (`close_close`).
-/

namespace ServerPages

/-- What a channel carries. -/
inductive Channel.Item where
  | event (e : Signal)
  /-- No more events follow. -/
  | finish
  deriving DecidableEq, Repr

/-- A channel of events. -/
structure Channel where
  /-- The most items that wait at a time; 0 for no limit. -/
  capacity : Nat
  /-- The items that wait, the oldest first. -/
  items : List Channel.Item := []
  closed : Bool := false
  deriving DecidableEq, Repr

namespace Channel

/-- Whether no further item can wait. -/
def isFull (c : Channel) : Bool := 0 < c.capacity && c.capacity ≤ c.items.length

/-- The fault of an event that comes after the end. -/
def late (e : Signal) : Fault :=
  Fault.library "MetadataClosed"
    ("Metadata channel closed; cannot send ".toList ++ Letter.quoted e.key)

/-- The channel with an event put behind what waits. -/
def put (c : Channel) (e : Signal) : Except Fault Channel :=
  if c.closed then .error (late e) else .ok { c with items := c.items ++ [.event e] }

/-- The channel with events put one after the other. -/
def putAll (c : Channel) (es : List Signal) : Except Fault Channel := es.foldlM put c

/-- The channel with the end marker behind what waits. -/
def close (c : Channel) : Channel :=
  if c.closed then c else { c with items := c.items ++ [.finish], closed := true }

/-- The oldest item, and the channel without it. -/
def take? (c : Channel) : Option (Item × Channel) :=
  match c.items with
  | [] => none
  | item :: rest => some (item, { c with items := rest })

theorem items_put {c d : Channel} {e : Signal} (h : c.put e = .ok d) :
    d.items = c.items ++ [.event e] ∧ d.closed = false := by
  unfold put at h
  split at h
  · cases h
  · next hc => cases h; exact ⟨rfl, by simpa using hc⟩

theorem items_close {c : Channel} (h : c.closed = false) :
    c.close.items = c.items ++ [.finish] := by
  simp [close, h]

theorem closed_close (c : Channel) : c.close.closed = true := by
  unfold close
  split
  · assumption
  · rfl

theorem close_close (c : Channel) : c.close.close = c.close := by
  have h := closed_close c
  show (if c.close.closed then c.close else _) = c.close
  rw [if_pos h]

end Channel

end ServerPages
