import DualRendition.Failure

/-!
# Fractions

Metadata stores numbers as 32-bit numerators over 32-bit denominators. A float is turned into a
fraction by scaling it with a power of ten, rounding half up and reducing by the greatest common
divisor; the largest of the scales `10^6, …, 1` whose numerator fits is taken.
-/

namespace DualRendition

/-- A numerator over a denominator; it stands for a number when the denominator is not zero. -/
structure Ratio (ν : Type) where
  numerator : ν
  denominator : UInt32
  deriving DecidableEq, Repr, Inhabited

/-- A fraction of either sign. -/
abbrev Fraction := Ratio Int32

/-- A fraction that is not negative. -/
abbrev UnsignedFraction := Ratio UInt32

namespace Ratio

/-- Whether the denominator is not zero. -/
def isValid {ν : Type} (r : Ratio ν) : Bool := r.denominator != 0

/-- The quotient, with `integer` reading the numerator. -/
def quotient {ν : Type} (integer : ν → Int) (r : Ratio ν) : Outcome Float :=
  if r.isValid then .ok (Float.ofInt (integer r.numerator) / r.denominator.toFloat)
  else .error (.parameter .zeroDenominator)

/-- The scales, largest first. -/
def scales : List Nat := [1000000, 100000, 10000, 1000, 100, 10, 1]

/-- `value · scale` rounded half up: the floor of the product plus one half, both taken in double
precision. -/
def scaled? (value : Float) (scale : Nat) : Option Int :=
  (Dyadic.ofFloat? (value * scale.toFloat + 0.5)).map Dyadic.floor

/-- Numerator and denominator divided by their greatest common divisor. -/
def reduce (numerator : Int) (denominator : Nat) : Int × Nat :=
  let divisor := max (Nat.gcd numerator.natAbs denominator) 1
  (numerator.tdiv divisor, denominator / divisor)

/-- The numerator at a scale, when it lies between `low` and `high`. -/
def fitting? (value : Float) (low high : Int) (scale : Nat) : Option Int :=
  (scaled? value scale).filter fun numerator => low ≤ numerator ∧ numerator ≤ high

/-- The reduced fraction at the largest scale whose numerator lies between `low` and `high`. -/
def approximate (value : Float) (low high : Int) : Outcome (Int × Nat) :=
  if value.isFinite then
    let hit := scales.findSome? fun scale =>
      (fitting? value low high scale).map (reduce · scale)
    match hit with
    | some fraction => .ok fraction
    | none => .error (.parameter (.fractionRange value))
  else .error (.parameter (.nonFiniteFraction value))

end Ratio

namespace Fraction

/-- The number a fraction stands for. -/
def toFloat (r : Fraction) : Outcome Float := r.quotient Int32.toInt

/-- The fraction nearest to `value` at the largest scale that fits. -/
def ofFloat (value : Float) : Outcome Fraction := do
  let (numerator, denominator) ← Ratio.approximate value (-2147483648) 2147483647
  return ⟨Int32.ofInt numerator, UInt32.ofNat denominator⟩

end Fraction

namespace UnsignedFraction

/-- The number a fraction stands for. -/
def toFloat (r : UnsignedFraction) : Outcome Float := r.quotient (·.toNat)

/-- The fraction nearest to `value` at the largest scale that fits; a negative value has none. -/
def ofFloat (value : Float) : Outcome UnsignedFraction := do
  if value < 0 then throw (.parameter (.negativeFraction value))
  let (numerator, denominator) ← Ratio.approximate value 0 4294967295
  return ⟨UInt32.ofNat numerator.toNat, UInt32.ofNat denominator⟩

end UnsignedFraction

end DualRendition
