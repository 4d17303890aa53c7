import Mathlib.Algebra.Order.Round
import Mathlib.Data.Rat.Floor
import DualRendition.Color.Light

/-!
# Codes at another depth

A code is rescaled from one depth to another by rounding `code · toMax / fromMax` to the nearest
integer, halves upward, with one division in words of 32 bits. `nearest x y` is this division in
natural numbers: half of the divisor, rounded down, is added before dividing, and `cast_nearest`
says that the result is `round (x / y)` whether the divisor is even or odd.

`rescale_rounds` is what a depth may rely on: the words never overflow, every code of one depth
becomes the nearest code of the other, in order and with both ends kept, and a code that goes to a
depth which is not smaller comes back unchanged. The last holds because two roundings are off by
less than half a unit together (`nearest_nearest`).
-/

namespace DualRendition

namespace Code

/-! ## Rounding a quotient -/

/-- `x / y` rounded to nearest, halves upward. -/
def nearest (x y : Nat) : Nat := (x + y / 2) / y

variable {x y : Nat}

theorem nearest_eq_iff (hy : 0 < y) {q : Nat} :
    nearest x y = q ↔ q * y ≤ x + y / 2 ∧ x + y / 2 < q * y + y := by
  unfold nearest
  rw [Nat.div_eq_iff hy]
  omega

/-- Where the rounded quotient stands, with the halves of the divisor doubled away. -/
theorem nearest_bounds (x : Nat) (hy : 0 < y) :
    2 * (nearest x y * y) ≤ 2 * x + y ∧ 2 * x + y < 2 * (nearest x y * y) + 2 * y := by
  obtain ⟨hlow, hhigh⟩ := (nearest_eq_iff hy).mp (rfl : nearest x y = nearest x y)
  omega

/-- It is the nearest integer. -/
theorem cast_nearest (x : Nat) (hy : 0 < y) : (nearest x y : ℤ) = round ((x : ℚ) / y) := by
  obtain ⟨hlow, hhigh⟩ := nearest_bounds x hy
  have hpos : (0 : ℚ) < y := by exact_mod_cast hy
  have hlow : (2 : ℚ) * (nearest x y * y) ≤ 2 * x + y := by exact_mod_cast hlow
  have hhigh : (2 : ℚ) * x + y < 2 * (nearest x y * y) + 2 * y := by exact_mod_cast hhigh
  refine (round_eq_iff.mpr ⟨?_, ?_⟩).symm
  · rw [le_div_iff₀ hpos, Int.cast_natCast]
    linarith
  · rw [div_lt_iff₀ hpos, Int.cast_natCast]
    linarith

/-- With an odd divisor no quotient lies half way between two integers. -/
theorem ne_half_of_odd (x : Nat) (hy : Odd y) (k : ℤ) : (x : ℚ) / y ≠ k + 1 / 2 := by
  intro h
  have hpos : (y : ℚ) ≠ 0 := by exact_mod_cast hy.pos.ne'
  have hdouble : (2 : ℚ) * x = (2 * k + 1) * y := by
    rw [div_eq_iff hpos] at h
    linarith
  have hdouble : 2 * (x : ℤ) = (2 * k + 1) * y := by exact_mod_cast hdouble
  -- the left side is even and the right side is odd
  have hodd : Odd (2 * (x : ℤ)) := by
    rw [hdouble]
    exact (odd_two_mul_add_one k).mul (by exact_mod_cast hy)
  exact Int.not_even_iff_odd.mpr hodd (even_two_mul _)

theorem nearest_mono {x' : Nat} (h : x ≤ x') (y : Nat) : nearest x y ≤ nearest x' y :=
  Nat.div_le_div_right (Nat.add_le_add_right h _)

/-- A quotient without remainder needs no rounding. -/
theorem nearest_mul_self (q : Nat) (hy : 0 < y) : nearest (q * y) y = q := by
  rw [nearest_eq_iff hy]
  omega

/-- A number of `a`ths that is rounded to `b`ths, and back, is the same when `b` is not smaller. -/
theorem nearest_nearest {a b : Nat} (ha : 0 < a) (hab : a ≤ b) (c : Nat) :
    nearest (nearest (c * b) a * a) b = c := by
  have hb : 0 < b := Nat.lt_of_lt_of_le ha hab
  rcases Nat.eq_or_lt_of_le hab with rfl | hlt
  · rw [nearest_mul_self c ha, nearest_mul_self c ha]
  · -- the first rounding is off by half of `a` at most, which is less than half of `b`
    obtain ⟨hlow, hhigh⟩ := nearest_bounds (c * b) ha
    rw [nearest_eq_iff hb]
    omega

/-! ## The same in words -/

/-- The product of two words, if it is one. -/
def product? (a b : UInt32) : Option UInt32 :=
  if a.toNat * b.toNat < UInt32.size then some (a * b) else none

/-- The sum of two words, if it is one. -/
def sum? (a b : UInt32) : Option UInt32 :=
  if a.toNat + b.toNat < UInt32.size then some (a + b) else none

/-- The quotient of two words, if there is one. -/
def quotient? (a b : UInt32) : Option UInt32 := if b = 0 then none else some (a / b)

/-- `rescale` with every word looked at: it has no outcome once a product or a sum is too large for
32 bits, or a divisor is zero. -/
def rescale? (code fromMax toMax : UInt16) : Option UInt16 :=
  if fromMax = toMax then some code
  else do
    let product ← product? code.toUInt32 toMax.toUInt32
    let sum ← sum? product (fromMax.toUInt32 / 2)
    let quotient ← quotient? sum fromMax.toUInt32
    return quotient.toUInt16

variable {code code' fromMax toMax : UInt16}

/-- The largest sum stays below `2 ^ 32`, by less than 100,000. -/
theorem sum_lt (code fromMax toMax : UInt16) :
    code.toNat * toMax.toNat + fromMax.toNat / 2 < UInt32.size := by
  have hcode := code.toNat_lt
  have hfrom := fromMax.toNat_lt
  have hto := toMax.toNat_lt
  have hproduct : code.toNat * toMax.toNat ≤ 65535 * 65535 :=
    Nat.mul_le_mul (by omega) (by omega)
  show _ < 2 ^ 32
  omega

theorem product_lt (code toMax : UInt16) : code.toNat * toMax.toNat < UInt32.size :=
  Nat.lt_of_le_of_lt (Nat.le_add_right ..) (sum_lt code 0 toMax)

theorem toNat_product (code toMax : UInt16) :
    (code.toUInt32 * toMax.toUInt32).toNat = code.toNat * toMax.toNat := by
  rw [UInt32.toNat_mul, UInt16.toNat_toUInt32, UInt16.toNat_toUInt32]
  exact Nat.mod_eq_of_lt (product_lt code toMax)

theorem toNat_half (fromMax : UInt16) : (fromMax.toUInt32 / 2).toNat = fromMax.toNat / 2 := by
  rw [UInt32.toNat_div, UInt16.toNat_toUInt32]
  rfl

theorem toNat_sum (code fromMax toMax : UInt16) :
    (code.toUInt32 * toMax.toUInt32 + fromMax.toUInt32 / 2).toNat =
      code.toNat * toMax.toNat + fromMax.toNat / 2 := by
  rw [UInt32.toNat_add, toNat_product, toNat_half]
  exact Nat.mod_eq_of_lt (sum_lt code fromMax toMax)

/-- No word overflows, for codes beyond the largest one neither. -/
theorem rescale?_eq (hfrom : fromMax ≠ 0) (code toMax : UInt16) :
    rescale? code fromMax toMax = some (rescale code fromMax toMax) := by
  have hproduct : product? code.toUInt32 toMax.toUInt32 =
      some (code.toUInt32 * toMax.toUInt32) := by
    unfold product?
    rw [UInt16.toNat_toUInt32, UInt16.toNat_toUInt32, if_pos (product_lt code toMax)]
  have hsum : sum? (code.toUInt32 * toMax.toUInt32) (fromMax.toUInt32 / 2) =
      some (code.toUInt32 * toMax.toUInt32 + fromMax.toUInt32 / 2) := by
    unfold sum?
    rw [toNat_product, toNat_half, if_pos (sum_lt code fromMax toMax)]
  have hnonzero : fromMax.toUInt32 ≠ 0 := by
    intro h
    apply hfrom
    rw [← UInt16.toNat_inj, ← UInt16.toNat_toUInt32, h]
    rfl
  unfold rescale? rescale
  by_cases hsame : fromMax = toMax
  · rw [if_pos hsame, if_pos hsame]
  · rw [if_neg hsame, if_neg hsame, hproduct, Option.bind_eq_bind, Option.bind_some, hsum,
      Option.bind_some, quotient?, if_neg hnonzero]
    rfl

/-- The code of one depth that a code of another becomes. -/
theorem toNat_rescale (hfrom : 0 < fromMax.toNat) (h : code ≤ fromMax) :
    (rescale code fromMax toMax).toNat = nearest (code.toNat * toMax.toNat) fromMax.toNat := by
  unfold rescale
  by_cases hsame : fromMax = toMax
  · rw [if_pos hsame, ← hsame, nearest_mul_self _ hfrom]
  · rw [if_neg hsame, UInt32.toNat_toUInt16, UInt32.toNat_div, toNat_sum, UInt16.toNat_toUInt32]
    -- nothing is lost in 16 bits, as the result is no larger than the largest code
    refine Nat.mod_eq_of_lt (Nat.lt_of_le_of_lt ?_ toMax.toNat_lt)
    calc nearest (code.toNat * toMax.toNat) fromMax.toNat
        ≤ nearest (toMax.toNat * fromMax.toNat) fromMax.toNat := by
          refine nearest_mono ?_ _
          rw [Nat.mul_comm]
          exact Nat.mul_le_mul_left _ (UInt16.le_iff_toNat_le.mp h)
      _ = toMax.toNat := nearest_mul_self _ hfrom

theorem rescale_mono (hfrom : 0 < fromMax.toNat) (h : code ≤ code') (h' : code' ≤ fromMax)
    (toMax : UInt16) : rescale code fromMax toMax ≤ rescale code' fromMax toMax := by
  rw [UInt16.le_iff_toNat_le, toNat_rescale hfrom (UInt16.le_trans h h'), toNat_rescale hfrom h']
  exact nearest_mono (Nat.mul_le_mul_right _ (UInt16.le_iff_toNat_le.mp h)) _

theorem rescale_self (hfrom : 0 < fromMax.toNat) (toMax : UInt16) :
    rescale fromMax fromMax toMax = toMax := by
  rw [← UInt16.toNat_inj, toNat_rescale hfrom (UInt16.le_refl _), Nat.mul_comm,
    nearest_mul_self _ hfrom]

/-- A code of one depth becomes a code of the other. -/
theorem rescale_le (h : code ≤ fromMax) : rescale code fromMax toMax ≤ toMax := by
  rcases Nat.eq_zero_or_pos fromMax.toNat with hzero | hfrom
  · -- there is no depth without codes, but the quotient would be zero
    unfold rescale
    by_cases hsame : fromMax = toMax
    · rw [if_pos hsame, ← hsame]
      exact h
    · rw [if_neg hsame, UInt16.le_iff_toNat_le, UInt32.toNat_toUInt16, UInt32.toNat_div,
        UInt16.toNat_toUInt32, hzero, Nat.div_zero]
      exact Nat.zero_le _
  · calc rescale code fromMax toMax
        ≤ rescale fromMax fromMax toMax := rescale_mono hfrom h (UInt16.le_refl _) toMax
      _ = toMax := rescale_self hfrom toMax

/-- A code that goes to a depth which is not smaller comes back unchanged. -/
theorem rescale_rescale (hfrom : 0 < fromMax.toNat) (hwiden : fromMax ≤ toMax)
    (h : code ≤ fromMax) : rescale (rescale code fromMax toMax) toMax fromMax = code := by
  have hwiden' := UInt16.le_iff_toNat_le.mp hwiden
  rw [← UInt16.toNat_inj, toNat_rescale (Nat.lt_of_lt_of_le hfrom hwiden') (rescale_le h),
    toNat_rescale hfrom h, nearest_nearest hfrom hwiden']

/-- **Rescaling is exact rounding.** In the words that it is computed in nothing overflows, whatever
the code is. A code up to the largest one of its depth becomes the nearest code of the other depth,
halves upward; under an odd largest code there are no halves. 0 stays 0, the largest code becomes
the largest one, and the order of the codes is kept. Nothing is lost at a depth that is not smaller:
rescaled back, every code is the same again. -/
theorem rescale_rounds (hfrom : 1 ≤ fromMax) :
    (∀ code, rescale? code fromMax toMax = some (rescale code fromMax toMax)) ∧
    (∀ code ≤ fromMax,
      ((rescale code fromMax toMax).toNat : ℤ) =
        round ((code.toNat * toMax.toNat : ℚ) / fromMax.toNat) ∧
      rescale code fromMax toMax ≤ toMax) ∧
    (Odd fromMax.toNat → ∀ (code : UInt16) (k : ℤ),
      (code.toNat * toMax.toNat : ℚ) / fromMax.toNat ≠ k + 1 / 2) ∧
    rescale 0 fromMax toMax = 0 ∧ rescale fromMax fromMax toMax = toMax ∧
    (∀ code code', code ≤ code' → code' ≤ fromMax →
      rescale code fromMax toMax ≤ rescale code' fromMax toMax) ∧
    (fromMax ≤ toMax → ∀ code ≤ fromMax,
      rescale (rescale code fromMax toMax) toMax fromMax = code) := by
  have hpos : 0 < fromMax.toNat := UInt16.le_iff_toNat_le.mp hfrom
  have hcast : ∀ code : UInt16, (code.toNat * toMax.toNat : ℚ) = (code.toNat * toMax.toNat : ℕ) :=
    fun code => (Nat.cast_mul _ _).symm
  refine ⟨fun code => rescale?_eq (UInt16.pos_iff_ne_zero.mp hpos) code toMax, ?_, ?_, ?_,
    rescale_self hpos toMax, fun code code' h h' => rescale_mono hpos h h' toMax,
    fun hwiden code h => rescale_rescale hpos hwiden h⟩
  · intro code h
    rw [toNat_rescale hpos h, cast_nearest _ hpos, hcast]
    exact ⟨rfl, rescale_le h⟩
  · intro hodd code k
    rw [hcast]
    exact ne_half_of_odd _ hodd k
  · rw [← UInt16.toNat_inj, toNat_rescale hpos UInt16.zero_le, UInt16.toNat_zero, Nat.zero_mul,
      nearest_eq_iff hpos]
    omega

/-- From 8 bits to 10 and back. -/
theorem rescale_widened :
    (1 : UInt16) ≤ 255 ∧ rescale 128 255 1023 = 514 ∧
    ((514 : ℕ) : ℤ) = round ((128 * 1023 : ℚ) / 255) ∧ rescale 514 1023 255 = 128 := by
  have hfrom : (1 : UInt16) ≤ 255 := by decide
  obtain ⟨-, hnearest, -, -, -, -, hback⟩ := @rescale_rounds 255 1023 hfrom
  exact ⟨hfrom, rfl, (hnearest 128 (by decide)).1, hback (by decide) 128 (by decide)⟩

end Code

end DualRendition
