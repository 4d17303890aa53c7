/-!
# Floats as exact numbers

A finite float is exactly `± significand · 2 ^ exponent`. `Dyadic` reads these parts off the bits of
a double precision float, so that rounding to an integer and printing can be done in exact integer
arithmetic; `widen` carries a single precision float to double precision in the same way.
-/

namespace DualRendition

/-- The power of two `2 ^ n`. -/
def twoPow (n : Nat) : Nat := Nat.pow 2 n

/-- The power of ten `10 ^ n`. -/
def tenPow (n : Nat) : Nat := Nat.pow 10 n

/-- The number `± significand · 2 ^ exponent`. -/
structure Dyadic where
  negative : Bool
  significand : Nat
  exponent : Int
  deriving DecidableEq, Repr

namespace Dyadic

/-- The number that a double precision float is, unless it is infinite or not a number. The
significand of a normal float has 53 bits; all subnormal floats share the least exponent. -/
def ofFloat? (x : Float) : Option Dyadic :=
  let bits := x.toBits.toNat
  let biased := bits / twoPow 52 % twoPow 11
  let fraction := bits % twoPow 52
  if biased = 2047 then none
  else
    some {
      negative := bits / twoPow 63 = 1
      significand := if biased = 0 then fraction else fraction + twoPow 52
      exponent := ((max biased 1 : Nat) : Int) - 1075 }

/-- The greatest integer that is not above the number. -/
def floor (d : Dyadic) : Int :=
  let signed : Int := if d.negative then -d.significand else d.significand
  if 0 ≤ d.exponent then signed * twoPow d.exponent.toNat else signed / twoPow (-d.exponent).toNat

end Dyadic

/-- A single precision float in double precision, which changes no value: a normal float gets the
wider exponent and trailing zeros, a subnormal one is its fraction times `2 ^ -149`. -/
def widen (x : Float32) : Float :=
  let bits := x.toBits.toNat
  let sign := bits / twoPow 31
  let biased := bits / twoPow 23 % twoPow 8
  let fraction := bits % twoPow 23
  let ofFields (biased fraction : Nat) : Float :=
    Float.ofBits (.ofNat (sign * twoPow 63 + biased * twoPow 52 + fraction))
  if biased = 255 then
    if fraction = 0 then ofFields 2047 0 else 0 / 0
  else if biased = 0 then
    let magnitude := fraction.toFloat * Float.ofBits (.ofNat (874 * twoPow 52))
    if sign = 1 then -magnitude else magnitude
  else ofFields (biased + 896) (fraction * twoPow 29)

end DualRendition
