/-!
# Triples over the colour channels

`Rgb α` holds one `α` for each of red, green and blue: linear light, gains, matrix rows, or the
metadata of a channel.
-/

namespace DualRendition

/-- One value for each of the red, green and blue channels. -/
structure Rgb (α : Type) where
  red : α
  green : α
  blue : α
  deriving DecidableEq, Repr, Inhabited

namespace Rgb

variable {α β γ : Type}

/-- The same value in all three channels. -/
def replicate (a : α) : Rgb α := ⟨a, a, a⟩

def map (f : α → β) (t : Rgb α) : Rgb β := ⟨f t.red, f t.green, f t.blue⟩

def zipWith (f : α → β → γ) (s : Rgb α) (t : Rgb β) : Rgb γ :=
  ⟨f s.red t.red, f s.green t.green, f s.blue t.blue⟩

/-- Red, green, blue, in this order. -/
def toList (t : Rgb α) : List α := [t.red, t.green, t.blue]

/-- The value of channel 0, 1 or 2. -/
def get (t : Rgb α) : Fin 3 → α
  | 0 => t.red
  | 1 => t.green
  | 2 => t.blue

/-- The triple with `f c` in channel `c`. -/
def ofFn (f : Fin 3 → α) : Rgb α := ⟨f 0, f 1, f 2⟩

@[simp] theorem get_map (f : α → β) (t : Rgb α) (c : Fin 3) : (t.map f).get c = f (t.get c) := by
  match c with
  | 0 | 1 | 2 => rfl

@[simp] theorem get_zipWith (f : α → β → γ) (s : Rgb α) (t : Rgb β) (c : Fin 3) :
    (zipWith f s t).get c = f (s.get c) (t.get c) := by
  match c with
  | 0 | 1 | 2 => rfl

@[simp] theorem get_replicate (a : α) (c : Fin 3) : (replicate a).get c = a := by
  match c with
  | 0 | 1 | 2 => rfl

/-- Whether the three channels hold one value. -/
def isUniform [DecidableEq α] (t : Rgb α) : Bool := t.green = t.red ∧ t.blue = t.red

end Rgb

end DualRendition
