import ServerPages.Text.Basic

/-!
# The log

Parts of the program leave notes as they work.  A note has a level, and it passes when the
verbosity in force is at least that level; nothing passes when no verbosity is in force.  The notes
that pass go to standard error, each in a line of its own that also tells when and where it was left.
-/

namespace ServerPages

/-- A note for the log: level 1 is normal, 2 verbose, 3 for tracing. -/
structure Note where
  level : Int
  text : Text
  deriving DecidableEq, Repr

namespace Note

/-- Whether a note passes under a verbosity. -/
def passes (verbosity : Option Int) (n : Note) : Bool :=
  match verbosity with
  | none => false
  | some v => n.level ≤ v

/-- The name of a note's level. -/
def levelName (n : Note) : Text :=
  if n.level = 1 then "INFO".toList
  else if n.level = 2 then "DEBUG".toList
  else "TRACE".toList

end Note

/-- What work comes to that leaves notes: a value or an error, and the notes that it has left by
then, in order. -/
structure Noted (ε α : Type) where
  result : Except ε α
  notes : List Note := []

namespace Noted

variable {ε α β : Type}

/-- Work that leaves no note. -/
def of (r : Except ε α) : Noted ε α := ⟨r, []⟩

/-- Leaves a note. -/
def leave (level : Int) (text : Text) : Noted ε Unit := ⟨.ok (), [⟨level, text⟩]⟩

/-- One piece of work behind another; an error ends both. -/
def bind (x : Noted ε α) (f : α → Noted ε β) : Noted ε β :=
  match x.result with
  | .error e => ⟨.error e, x.notes⟩
  | .ok a => ⟨(f a).result, x.notes ++ (f a).notes⟩

instance : Monad (Noted ε) where
  pure a := of (.ok a)
  bind := bind

/-- The same work with its error told in other terms. -/
def mapError {ε' : Type} (x : Noted ε α) (f : ε → ε') : Noted ε' α := ⟨x.result.mapError f, x.notes⟩

@[simp] theorem result_of (r : Except ε α) : (of r).result = r := rfl

@[simp] theorem result_pure (a : α) : (pure a : Noted ε α).result = .ok a := rfl

@[simp] theorem result_bind (x : Noted ε α) (f : α → Noted ε β) :
    (x >>= f).result = x.result >>= fun a => (f a).result := by
  show (bind x f).result = _
  rw [bind]
  cases x.result <;> rfl

theorem notes_bind_of_error {x : Noted ε α} {e : ε} (h : x.result = .error e)
    (f : α → Noted ε β) : (x >>= f).notes = x.notes := by
  show (bind x f).notes = _
  rw [bind, h]

/-- The notes of work that is done in two parts are those of its parts. -/
theorem forall_notes_bind {P : Note → Prop} {x : Noted ε α} {f : α → Noted ε β}
    (hx : ∀ n ∈ x.notes, P n) (hf : ∀ a, x.result = .ok a → ∀ n ∈ (f a).notes, P n) :
    ∀ n ∈ (x >>= f).notes, P n := by
  show ∀ n ∈ (bind x f).notes, P n
  rw [bind]
  cases hr : x.result with
  | error e => exact hx
  | ok a => exact List.forall_mem_append.mpr ⟨hx, hf a hr⟩

end Noted

end ServerPages
