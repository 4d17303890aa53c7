import DualRendition.Failure

/-!
# Cooperative stopping

A long operation asks its `Stop` once before every row. The answers depend only on how many
questions were asked before: `Stop.check` takes that number, and `Stop.sweep` runs a whole pass of
rows, the first failing question ending it.
-/

namespace DualRendition

/-- The pieces `f 0, …, f (count - 1)` laid end to end, unless one of them fails. -/
def layOut {α : Type} (count : Nat) (f : Nat → Outcome (Array α)) : Outcome (Array α) := do
  let pieces ← (List.range count).mapM f
  return pieces.toArray.flatten

/-- When an operation is told to stop: after `granted` checks have passed, or never. -/
structure Stop where
  granted : Option Nat
  reason : StopReason
  deriving DecidableEq, Repr

namespace Stop

/-- The stop that never asks for anything. -/
def never : Stop := ⟨none, .cancelled⟩

/-- Whether the check that follows `asked` earlier ones passes. -/
def permits (stop : Stop) (asked : Nat) : Bool :=
  match stop.granted with
  | none => true
  | some granted => asked < granted

/-- The check that follows `asked` earlier ones. -/
def check (stop : Stop) (asked : Nat) : Outcome Unit :=
  if stop.permits asked then .ok () else .error (.stopped stop.reason)

/-- Lays the rows `f 0, …, f (rows - 1)` end to end, with a check before each of them; `asked`
checks were made before the pass. -/
def sweep {α : Type} (stop : Stop) (asked rows : Nat) (f : Nat → Outcome (Array α)) :
    Outcome (Array α) :=
  layOut rows fun y => do
    stop.check (asked + y)
    f y

end Stop

end DualRendition
