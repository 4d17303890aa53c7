import DualRendition.Failure

/-!
# Editing

An `Edit σ α` works on a value of type `σ` in place: it returns an `α` or fails, and either way the
edited value is what it left behind. Nothing is rolled back on failure.
-/

namespace DualRendition

/-- A step that changes a `σ` and may fail. -/
abbrev Edit (σ α : Type) := EStateM Failure σ α

namespace Edit

variable {σ α : Type}

/-- A computation that leaves the edited value alone. -/
def ofOutcome (o : Outcome α) : Edit σ α := fun s =>
  match o with
  | .ok a => .ok a s
  | .error e => .error e s

/-- The result of an edit and the value afterwards. -/
def apply (e : Edit σ α) (s : σ) : Outcome α × σ :=
  match e.run s with
  | .ok a t => (.ok a, t)
  | .error f t => (.error f, t)

end Edit

end DualRendition
