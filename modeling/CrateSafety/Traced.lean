/-!
# Computations that leave notes

A traced computation leaves notes in order and ends in a value or a failure. What was noted before a
failure is kept.
-/

namespace CrateSafety

/-- The notes and the outcome of a computation. -/
structure Traced (ν ε α : Type) where
  /-- What was noted, in order. -/
  notes : List ν
  /-- How the computation ended. -/
  outcome : Except ε α

namespace Traced

variable {ν ε ε' α β : Type}

/-- A value without notes. -/
def done (a : α) : Traced ν ε α :=
  ⟨[], .ok a⟩

/-- A failure without notes. -/
def fail (e : ε) : Traced ν ε α :=
  ⟨[], .error e⟩

/-- One note. -/
def note (n : ν) : Traced ν ε Unit :=
  ⟨[n], .ok ()⟩

/-- One computation after another; the second runs only if the first succeeds. -/
def andThen (x : Traced ν ε α) (f : α → Traced ν ε β) : Traced ν ε β :=
  match x.outcome with
  | .ok a => ⟨x.notes ++ (f a).notes, (f a).outcome⟩
  | .error e => ⟨x.notes, .error e⟩

instance : Monad (Traced ν ε) where
  pure := done
  bind := andThen

/-- A computation that may fail and leaves no notes, its failures renamed. -/
def lift (rename : ε' → ε) : Except ε' α → Traced ν ε α
  | .ok a => done a
  | .error e => fail (rename e)

end Traced

end CrateSafety
