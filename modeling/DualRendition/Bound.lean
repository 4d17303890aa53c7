/-!
# Bounding floats

The rules for numbers that need not be ordinary: `clamp` lets a NaN pass and keeps the sign of a
zero, while `smaller` and `larger` ignore a NaN beside a number.
-/

namespace DualRendition

/-- `x` held between `low` and `high`. What compares with neither bound stays as it is. -/
def clamp {α : Type} [LT α] [DecidableLT α] (x low high : α) : α :=
  if x < low then low else if high < x then high else x

/-- The larger of the two, or the other one beside a NaN. -/
def larger {α : Type} [LT α] [DecidableLT α] [BEq α] (x y : α) : α :=
  if y < x then x else if y == y then y else x

/-- The smaller of the two, or the other one beside a NaN. -/
def smaller {α : Type} [LT α] [DecidableLT α] [BEq α] (x y : α) : α :=
  if x < y then x else if y == y then y else x

end DualRendition
