import DualRendition.Dyadic

/-!
# Shortest decimal numerals

A binary float is written with the fewest significant digits that still read back as the same
float; of several such numerals the nearest one is taken, and of two equally near ones the larger.

`Dyadic.roundsHere` decides which decimals read back as a float, and `Dyadic.shortest` searches the
decimal grids from the coarsest to the finest for one that does, in exact integer arithmetic.
`Numeral.text` lays the digits out positionally, never with an exponent.
-/

namespace DualRendition

/-- A float as text sees it: no number, an infinity, or `digits · 10 ^ exponent` with a sign. -/
inductive Numeral where
  | notANumber
  | infinite (negative : Bool)
  | finite (negative : Bool) (digits : Nat) (exponent : Int)
  deriving DecidableEq, Repr

namespace Dyadic

/-- Whether the neighbour below is half as far away as the one above: at a power of two, unless the
neighbour below is subnormal. -/
def narrowBelow (b : Dyadic) : Bool := b.significand = twoPow 52 ∧ -1074 < b.exponent

/-- Compares `d · 10 ^ k` with `x · 2 ^ q`, each power moved to the side where it is a natural
number. -/
def compareDecimal (d : Nat) (k : Int) (x : Nat) (q : Int) : Ordering :=
  compare (d * tenPow k.toNat * twoPow (-q).toNat) (x * twoPow q.toNat * tenPow (-k).toNat)

/-- Whether `d · 10 ^ k` rounds to the magnitude of a double. Both ends of the rounding interval
belong to an even significand. -/
def roundsHere (b : Dyadic) (d : Nat) (k : Int) : Bool :=
  let low := 4 * b.significand - (if b.narrowBelow then 1 else 2)
  let high := 4 * b.significand + 2
  let even := b.significand % 2 == 0
  let above := compareDecimal d k low (b.exponent - 2)
  let below := compareDecimal d k high (b.exponent - 2)
  (above == .gt || (even && above == .eq)) && (below == .lt || (even && below == .eq))

/-- A power of ten above the number and close to it. As `log10 2` is just below 0.30103, the power
of two above the number gives one that is at most two too high. -/
def topPower (b : Dyadic) : Int :=
  (b.significand.log2 + 1 + b.exponent) * 30103 / 100000 + 1

/-- The nearest point of the grid `10 ^ k` that rounds to the magnitude; an exact tie goes up. -/
def onGrid? (b : Dyadic) (k : Int) : Option Nat :=
  let numerator := b.significand * twoPow b.exponent.toNat * tenPow (-k).toNat
  let denominator := twoPow (-b.exponent).toNat * tenPow k.toNat
  let lower := numerator / denominator
  let remainder := numerator % denominator
  let nearest := if 2 * remainder < denominator then lower else lower + 1
  let other := if 2 * remainder < denominator then lower + 1 else lower
  [nearest, other].find? (b.roundsHere · k)

/-- Drops trailing zeros from the digits, at most `fuel` of them. -/
def dropZeros : Nat → Nat → Int → Nat × Int
  | 0, d, k => (d, k)
  | fuel + 1, d, k => if d % 10 = 0 then dropZeros fuel (d / 10) (k + 1) else (d, k)

/-- The shortest decimal `(digits, exponent)` that rounds to the number: the first hit among the
grids from the top power down. Seventeen digits always suffice. -/
def shortest (b : Dyadic) : Nat × Int :=
  let hit := (List.range 20).findSome? fun (n : Nat) =>
    let k := b.topPower - n
    (b.onGrid? k).map fun d => (d, k)
  match hit with
  | some (d, k) => dropZeros 20 d k
  | none => (0, 0)

end Dyadic

namespace Numeral

/-- The numeral of a double precision float. -/
def ofFloat (x : Float) : Numeral :=
  match Dyadic.ofFloat? x with
  | none => if x.isNaN then .notANumber else .infinite (x < 0)
  | some d =>
    if d.significand = 0 then .finite d.negative 0 0
    else
      let (digits, exponent) := d.shortest
      .finite d.negative digits exponent

/-- The digits of a whole number with a point before the last `places` of them. -/
def withPoint (digits : List Char) (places : Nat) : List Char :=
  let padded := List.replicate (places + 1 - digits.length) '0' ++ digits
  padded.take (padded.length - places) ++ '.' :: padded.drop (padded.length - places)

/-- Positional text: no exponent, no point in a whole number, a sign on negative zero. -/
def text : Numeral → String
  | notANumber => "NaN"
  | infinite negative => if negative then "-inf" else "inf"
  | finite negative digits exponent =>
    let shown := Nat.toDigits 10 digits
    let body :=
      if digits = 0 then ['0']
      else if 0 ≤ exponent then shown ++ List.replicate exponent.toNat '0'
      else withPoint shown (-exponent).toNat
    String.ofList (if negative then '-' :: body else body)

end Numeral

end DualRendition
