import Mathlib.Data.Rat.Lemmas
import DualRendition.Fraction
import DualRendition.Proofs.Outcome

/-!
# Floats become fractions

A float is stored at the largest scale, a power of ten up to a million, at which its numerator has
32 bits: `Ratio.LargestScale`. What is stored is that fraction and no other, in lowest terms:
`Ratio.LowestTerms`. `Ratio.conversion_exact` says so of fractions of either sign and of unsigned
ones, together with when there is none.

The search over scales, with Euclid's algorithm in it, is also given step by step, as it would be
written down as a loop: `Ratio.Search` relates a scale to the answer that the search reaches from
there, and `Ratio.search_iff` says that there is always one. No float operation is looked into; the
numerator at a scale is what `Ratio.scaled?` says.
-/

namespace DualRendition

namespace Ratio

/-! ## Lowest terms -/

/-- Euclid's algorithm: divisor and remainder take the places of the two numbers, until nothing
remains. -/
def euclid (a b : Nat) : Nat := if b = 0 then a else euclid b (a % b)
termination_by b
decreasing_by exact Nat.mod_lt a (Nat.pos_of_ne_zero ‹_›)

theorem euclid_eq_gcd (a b : Nat) : euclid a b = Nat.gcd a b := by
  induction a, b using euclid.induct with
  | case1 a => rw [euclid, if_pos rfl, Nat.gcd_zero_right]
  | case2 a b hb ih =>
    rw [euclid, if_neg hb, ih]
    calc Nat.gcd b (a % b)
        = Nat.gcd (a % b) b := Nat.gcd_comm ..
      _ = Nat.gcd b a := (Nat.gcd_rec b a).symm
      _ = Nat.gcd a b := Nat.gcd_comm ..

/-- `numerator / denominator` is the fraction `x / scale` in lowest terms. -/
structure LowestTerms (x : Int) (scale : Nat) (numerator : Int) (denominator : Nat) : Prop where
  quotient : (numerator : ℚ) / denominator = x / scale
  coprime : Nat.gcd numerator.natAbs denominator = 1
  positive : 1 ≤ denominator
  divides : denominator ∣ scale

variable {x : Int} {scale : Nat} {numerator : Int} {denominator : Nat}

theorem reduce_lowestTerms (x : Int) (hscale : 0 < scale) :
    LowestTerms x scale (reduce x scale).1 (reduce x scale).2 := by
  have hpos : 0 < Nat.gcd x.natAbs scale := Nat.gcd_pos_of_pos_right _ hscale
  have hreduce : reduce x scale =
      (x.tdiv (Nat.gcd x.natAbs scale : Nat), scale / Nat.gcd x.natAbs scale) := by
    unfold reduce
    rw [Nat.max_eq_left hpos]
  rw [hreduce]
  generalize hdivisor : Nat.gcd x.natAbs scale = divisor at hpos ⊢
  have hleft : divisor ∣ x.natAbs := hdivisor ▸ Nat.gcd_dvd_left ..
  have hright : divisor ∣ scale := hdivisor ▸ Nat.gcd_dvd_right ..
  have hx : x.tdiv divisor * divisor = x := Int.tdiv_mul_cancel (Int.natCast_dvd.mpr hleft)
  have hs : scale / divisor * divisor = scale := Nat.div_mul_cancel hright
  refine ⟨?_, ?_, Nat.div_pos (Nat.le_of_dvd hscale hright) hpos, Nat.div_dvd_of_dvd hright⟩
  · -- both fractions, with the divisor put back into the first one
    have hne : (divisor : ℚ) ≠ 0 := by exact_mod_cast hpos.ne'
    have hx : (x.tdiv divisor : ℚ) * divisor = x := by exact_mod_cast hx
    have hs : ((scale / divisor : Nat) : ℚ) * divisor = scale := by exact_mod_cast hs
    rw [← mul_div_mul_right _ _ hne, hx, hs]
  · rw [Int.natAbs_tdiv, Int.natAbs_natCast, ← hdivisor]
    exact Nat.coprime_div_gcd_div_gcd (hdivisor ▸ hpos)

/-- There is one fraction in lowest terms. -/
theorem LowestTerms.unique {numerator' : Int} {denominator' : Nat}
    (h : LowestTerms x scale numerator denominator)
    (h' : LowestTerms x scale numerator' denominator') :
    numerator = numerator' ∧ denominator = denominator' := by
  have hquotient : (numerator : ℚ) / (denominator : ℤ) = numerator' / (denominator' : ℤ) := by
    rw [Int.cast_natCast, Int.cast_natCast, h.quotient, h'.quotient]
  obtain ⟨hnumerator, hdenominator⟩ := Rat.div_int_inj (by exact_mod_cast h.positive)
    (by exact_mod_cast h'.positive) h.coprime h'.coprime hquotient
  exact ⟨hnumerator, by exact_mod_cast hdenominator⟩

/-- The numerator in lowest terms divides the one it comes from. -/
theorem LowestTerms.exists_mul_eq (h : LowestTerms x scale numerator denominator)
    (hscale : 0 < scale) : ∃ factor : Nat, 1 ≤ factor ∧ numerator * factor = x := by
  obtain ⟨factor, rfl⟩ := h.divides
  refine ⟨factor, Nat.pos_of_mul_pos_left hscale, ?_⟩
  have hquotient := h.quotient
  have hden : (denominator : ℚ) ≠ 0 := by exact_mod_cast (Nat.pos_of_mul_pos_right hscale).ne'
  have hfactor : (factor : ℚ) ≠ 0 := by exact_mod_cast (Nat.pos_of_mul_pos_left hscale).ne'
  rw [Nat.cast_mul, div_eq_div_iff hden (mul_ne_zero hden hfactor)] at hquotient
  have hproduct : (numerator : ℚ) * factor = x := by
    refine mul_right_cancel₀ hden ?_
    rw [mul_assoc, mul_comm (factor : ℚ), hquotient]
  exact_mod_cast hproduct

/-- Lowest terms stay within bounds around zero, ... -/
theorem LowestTerms.numerator_bounds {low high : Int}
    (h : LowestTerms x scale numerator denominator) (hscale : 0 < scale) (hlow : low ≤ 0)
    (hhigh : 0 ≤ high) (hx : low ≤ x ∧ x ≤ high) : low ≤ numerator ∧ numerator ≤ high := by
  obtain ⟨factor, hfactor, rfl⟩ := h.exists_mul_eq hscale
  have hfactor : (1 : Int) ≤ factor := by exact_mod_cast hfactor
  rcases Int.le_total 0 numerator with hsign | hsign
  · have hle : numerator * 1 ≤ numerator * factor := Int.mul_le_mul_of_nonneg_left hfactor hsign
    omega
  · have hle : numerator * factor ≤ numerator * 1 := Int.mul_le_mul_of_nonpos_left hsign hfactor
    omega

/-- ... and no denominator is over its scale. -/
theorem LowestTerms.denominator_le (h : LowestTerms x scale numerator denominator)
    (hscale : 0 < scale) : denominator ≤ scale :=
  Nat.le_of_dvd hscale h.divides

/-! ## The largest scale -/

/-- At this scale the numerator of the value is `x`, which lies between the bounds. -/
structure Fits (value : Float) (low high : Int) (scale : Nat) (x : Int) : Prop where
  numerator : scaled? value scale = some x
  low_le : low ≤ x
  le_high : x ≤ high

/-- `x` fits at `10 ^ k`, and up to `10 ^ top` nothing fits at any larger power of ten. -/
structure LargestScale (value : Float) (low high : Int) (top k : Nat) (x : Int) : Prop where
  le_top : k ≤ top
  fits : Fits value low high (10 ^ k) x
  largest : ∀ j ≤ top, k < j → ∀ y, ¬Fits value low high (10 ^ j) y

variable {value : Float} {low high : Int}

theorem Fits.fitting?_eq (h : Fits value low high scale x) :
    fitting? value low high scale = some x := by
  unfold fitting?
  rw [Option.filter_eq_some_iff, decide_eq_true_eq]
  exact ⟨h.numerator, h.low_le, h.le_high⟩

theorem fitting?_eq_none (h : ∀ x, ¬Fits value low high scale x) :
    fitting? value low high scale = none := by
  rw [Option.eq_none_iff_forall_ne_some]
  intro x hx
  unfold fitting? at hx
  rw [Option.filter_eq_some_iff, decide_eq_true_eq] at hx
  exact h x ⟨hx.1, hx.2.1, hx.2.2⟩

/-- There is one largest scale. -/
theorem LargestScale.unique {top k k' : Nat} {x' : Int} (h : LargestScale value low high top k x)
    (h' : LargestScale value low high top k' x') : k = k' ∧ x = x' := by
  obtain rfl : k = k' := by
    rcases Nat.lt_trichotomy k k' with hlt | heq | hlt
    · exact absurd h'.fits (h.largest k' h'.le_top hlt x')
    · exact heq
    · exact absurd h.fits (h'.largest k h.le_top hlt x)
  exact ⟨rfl, Option.some.inj (h.fits.numerator.symm.trans h'.fits.numerator)⟩

/-- The scales from `10 ^ top` down. -/
def scalesFrom : Nat → List Nat
  | 0 => [1]
  | top + 1 => 10 ^ (top + 1) :: scalesFrom top

/-- The answer of the search when it starts at `10 ^ top`. -/
def answerFrom (value : Float) (low high : Int) (top : Nat) : Outcome (Int × Nat) :=
  let hit := (scalesFrom top).findSome? fun scale =>
    (fitting? value low high scale).map (reduce · scale)
  match hit with
  | some fraction => .ok fraction
  | none => .error (.parameter (.fractionRange value))

/-- The search starts at a million. -/
theorem approximate_eq_answerFrom (hfinite : value.isFinite = true) :
    approximate value low high = answerFrom value low high 6 := by
  unfold approximate
  rw [if_pos hfinite]
  rfl

theorem answerFrom_of_fits {top : Nat} (h : Fits value low high (10 ^ top) x) :
    answerFrom value low high top = .ok (reduce x (10 ^ top)) := by
  obtain ⟨rest, hrest⟩ : ∃ rest, scalesFrom top = 10 ^ top :: rest := by
    cases top with
    | zero => exact ⟨[], rfl⟩
    | succ top => exact ⟨scalesFrom top, rfl⟩
  unfold answerFrom
  rw [hrest, List.findSome?_cons, h.fitting?_eq]
  rfl

theorem answerFrom_zero (h : ∀ x, ¬Fits value low high 1 x) :
    answerFrom value low high 0 = .error (.parameter (.fractionRange value)) := by
  unfold answerFrom scalesFrom
  rw [List.findSome?_cons, fitting?_eq_none h]
  rfl

theorem answerFrom_succ {top : Nat} (h : ∀ x, ¬Fits value low high (10 ^ (top + 1)) x) :
    answerFrom value low high (top + 1) = answerFrom value low high top := by
  unfold answerFrom
  rw [scalesFrom, List.findSome?_cons, fitting?_eq_none h]
  rfl

/-- Either there is a largest scale, and the answer is the fraction there, or nothing fits and there
is no answer. -/
theorem answerFrom_cases (value : Float) (low high : Int) (top : Nat) :
    (∃ k x, LargestScale value low high top k x ∧
      answerFrom value low high top = .ok (reduce x (10 ^ k))) ∨
    (∀ k ≤ top, ∀ x, ¬Fits value low high (10 ^ k) x) ∧
      answerFrom value low high top = .error (.parameter (.fractionRange value)) := by
  induction top with
  | zero =>
    by_cases hfits : ∃ x, Fits value low high (10 ^ 0) x
    · obtain ⟨x, hx⟩ := hfits
      exact .inl ⟨0, x, ⟨Nat.le_refl _, hx, fun j hj hlt => by omega⟩, answerFrom_of_fits hx⟩
    · rw [not_exists] at hfits
      refine .inr ⟨?_, answerFrom_zero hfits⟩
      intro k hk
      rw [Nat.le_zero.mp hk]
      exact hfits
  | succ top ih =>
    by_cases hfits : ∃ x, Fits value low high (10 ^ (top + 1)) x
    · obtain ⟨x, hx⟩ := hfits
      exact .inl ⟨top + 1, x, ⟨Nat.le_refl _, hx, fun j hj hlt => by omega⟩, answerFrom_of_fits hx⟩
    · -- nothing fits at the first scale, and so all is as from the next one on
      rw [not_exists] at hfits
      have hcons : ∀ {P : Nat → Prop}, (∀ k ≤ top, P k) → P (top + 1) → ∀ k ≤ top + 1, P k := by
        intro P hbelow hhead k hk
        rcases Nat.le_succ_iff.mp hk with hle | rfl
        · exact hbelow k hle
        · exact hhead
      rw [answerFrom_succ hfits]
      rcases ih with ⟨k, x, h, hanswer⟩ | ⟨hnone, hanswer⟩
      · refine .inl ⟨k, x, ⟨Nat.le_succ_of_le h.le_top, h.fits, ?_⟩, hanswer⟩
        exact hcons h.largest fun _ => hfits
      · exact .inr ⟨hcons hnone hfits, hanswer⟩

/-- A value becomes the fraction at the largest scale, in lowest terms. -/
theorem approximate_eq_ok_iff :
    approximate value low high = .ok (numerator, denominator) ↔
      value.isFinite = true ∧ ∃ k x, LargestScale value low high 6 k x ∧
        LowestTerms x (10 ^ k) numerator denominator := by
  have hpow : ∀ k, 0 < 10 ^ k := fun _ => Nat.pow_pos (by decide)
  by_cases hfinite : value.isFinite = true
  · rw [approximate_eq_answerFrom hfinite]
    constructor
    · intro hanswer
      rcases answerFrom_cases value low high 6 with ⟨k, x, h, hfound⟩ | ⟨-, hnone⟩
      · have hreduce := reduce_lowestTerms x (hpow k)
        rw [Except.ok.inj (hfound.symm.trans hanswer)] at hreduce
        exact ⟨hfinite, k, x, h, hreduce⟩
      · cases hnone.symm.trans hanswer
    · rintro ⟨-, k, x, h, hlowest⟩
      rcases answerFrom_cases value low high 6 with ⟨k', x', h', hfound⟩ | ⟨hnone, -⟩
      · obtain ⟨rfl, rfl⟩ := h.unique h'
        obtain ⟨hnumerator, hdenominator⟩ :=
          hlowest.unique (reduce_lowestTerms x (hpow k))
        rw [hfound, hnumerator, hdenominator]
      · exact absurd h.fits (hnone k h.le_top x)
  · unfold approximate
    rw [if_neg hfinite]
    exact ⟨fun h => (nomatch h), fun h => absurd h.1 hfinite⟩

/-- There is no answer for what is no number, and for numbers that fit at no scale. -/
theorem exists_approximate_error_iff :
    (∃ failure, approximate value low high = .error failure) ↔
      value.isFinite = false ∨ ∀ k ≤ 6, ∀ x, ¬Fits value low high (10 ^ k) x := by
  by_cases hfinite : value.isFinite = true
  · rw [approximate_eq_answerFrom hfinite]
    rcases answerFrom_cases value low high 6 with ⟨k, x, h, hfound⟩ | ⟨hnone, hanswer⟩
    · rw [hfound]
      refine ⟨fun ⟨_, herror⟩ => (nomatch herror), ?_⟩
      rintro (hinfinite | hnone)
      · rw [hfinite] at hinfinite
        cases hinfinite
      · exact absurd h.fits (hnone k h.le_top x)
    · rw [hanswer]
      exact ⟨fun _ => .inr hnone, fun _ => ⟨_, rfl⟩⟩
  · unfold approximate
    rw [if_neg hfinite]
    exact ⟨fun _ => .inl (Bool.not_eq_true _ ▸ hfinite), fun _ => ⟨_, rfl⟩⟩

/-! ## The search as a loop -/

/-- What the search answers when it goes on from a scale. A numerator that fits is divided, like the
scale, by the divisor that Euclid's algorithm finds; if none fits, a tenth of the scale is tried,
and after 1 nothing more. -/
inductive Search (value : Float) (low high : Int) : Nat → Outcome (Int × Nat) → Prop
  | fits {scale x divisor} (h : Fits value low high scale x)
      (hdivisor : divisor = max (euclid x.natAbs scale) 1) :
      Search value low high scale (.ok (x.tdiv divisor, scale / divisor))
  | exhausted (h : ∀ x, ¬Fits value low high 1 x) :
      Search value low high 1 (.error (.parameter (.fractionRange value)))
  | next {scale answer} (h : ∀ x, ¬Fits value low high scale x) (hscale : scale ≠ 1)
      (rest : Search value low high (scale / 10) answer) : Search value low high scale answer

/-- From every power of ten the search comes to an end. -/
theorem search_answerFrom (value : Float) (low high : Int) (top : Nat) :
    Search value low high (10 ^ top) (answerFrom value low high top) := by
  induction top with
  | zero =>
    by_cases hfits : ∃ x, Fits value low high (10 ^ 0) x
    · obtain ⟨x, hx⟩ := hfits
      rw [answerFrom_of_fits hx]
      exact .fits hx (by rw [euclid_eq_gcd])
    · rw [not_exists] at hfits
      rw [answerFrom_zero hfits]
      exact .exhausted hfits
  | succ top ih =>
    by_cases hfits : ∃ x, Fits value low high (10 ^ (top + 1)) x
    · obtain ⟨x, hx⟩ := hfits
      rw [answerFrom_of_fits hx]
      exact .fits hx (by rw [euclid_eq_gcd])
    · rw [not_exists] at hfits
      rw [answerFrom_succ hfits]
      have htenth : 10 ^ (top + 1) / 10 = 10 ^ top := by
        rw [Nat.pow_succ, Nat.mul_div_cancel _ (by decide)]
      exact .next hfits (Nat.one_lt_pow (by omega) (by decide)).ne' (htenth ▸ ih)

/-- The search comes to one end only. -/
theorem Search.unique {answer answer' : Outcome (Int × Nat)}
    (h : Search value low high scale answer) (h' : Search value low high scale answer') :
    answer = answer' := by
  induction h with
  | fits h hdivisor =>
    cases h' with
    | fits h' hdivisor' =>
      obtain rfl := Option.some.inj (h.numerator.symm.trans h'.numerator)
      rw [hdivisor, hdivisor']
    | exhausted h' => exact absurd h (h' _)
    | next h' _ _ => exact absurd h (h' _)
  | exhausted h =>
    cases h' with
    | fits h' _ => exact absurd h' (h _)
    | exhausted _ => rfl
    | next _ hscale _ => exact absurd rfl hscale
  | next h hscale _ ih =>
    cases h' with
    | fits h' _ => exact absurd h' (h _)
    | exhausted _ => exact absurd rfl hscale
    | next _ _ rest => exact ih rest

/-- Starting at a million, the search ends with the answer for the value. -/
theorem search_iff (hfinite : value.isFinite = true) {answer : Outcome (Int × Nat)} :
    Search value low high 1000000 answer ↔ approximate value low high = answer := by
  have hsearch : Search value low high 1000000 (approximate value low high) := by
    rw [approximate_eq_answerFrom hfinite]
    exact search_answerFrom value low high 6
  exact ⟨hsearch.unique, fun h => h ▸ hsearch⟩

end Ratio

/-! ## Numerators and denominators of 32 bits -/

open Ratio (approximate approximate_eq_ok_iff exists_approximate_error_iff Fits LargestScale
  LowestTerms Search search_iff)

variable {value : Float}

/-- The parts of an answer are as large as its scale allows. -/
theorem Ratio.parts_le {low high : Int} {numerator : Int} {denominator : Nat}
    (h : approximate value low high = .ok (numerator, denominator)) (hlow : low ≤ 0)
    (hhigh : 0 ≤ high) : (low ≤ numerator ∧ numerator ≤ high) ∧ denominator < UInt32.size := by
  obtain ⟨-, k, x, hlargest, hlowest⟩ := approximate_eq_ok_iff.mp h
  have hscale : 0 < 10 ^ k := Nat.pow_pos (by decide)
  have hle : 10 ^ k ≤ 10 ^ 6 := Nat.pow_le_pow_right (by decide) hlargest.le_top
  refine ⟨hlowest.numerator_bounds hscale hlow hhigh ⟨hlargest.fits.low_le, hlargest.fits.le_high⟩,
    ?_⟩
  have hdenominator := hlowest.denominator_le hscale
  show denominator < 2 ^ 32
  omega

/-- A fraction of either sign holds the answer unchanged. -/
theorem Fraction.ofFloat_eq_ok_iff {r : Fraction} :
    Fraction.ofFloat value = .ok r ↔
      approximate value (-2147483648) 2147483647 =
        .ok (r.numerator.toInt, r.denominator.toNat) := by
  unfold Fraction.ofFloat
  constructor
  · intro h
    obtain ⟨⟨numerator, denominator⟩, hanswer, hr⟩ := Outcome.bind_eq_ok.mp h
    obtain rfl := Outcome.pure_eq_ok.mp hr
    obtain ⟨⟨hlow, hhigh⟩, hdenominator⟩ := Ratio.parts_le hanswer (by decide) (by decide)
    rw [hanswer, Int32.toInt_ofInt_of_le hlow (by omega), UInt32.toNat_ofNat_of_lt' hdenominator]
  · intro h
    rw [h, Outcome.ok_bind]
    dsimp only
    rw [Int32.ofInt_toInt, UInt32.ofNat_toNat]
    rfl

theorem Fraction.exists_ofFloat_error_iff :
    (∃ failure, Fraction.ofFloat value = .error failure) ↔
      ∃ failure, approximate value (-2147483648) 2147483647 = .error failure := by
  unfold Fraction.ofFloat
  cases approximate value (-2147483648) 2147483647 with
  | ok parts => exact ⟨fun ⟨_, h⟩ => (nomatch h), fun ⟨_, h⟩ => (nomatch h)⟩
  | error failure => exact ⟨fun _ => ⟨failure, rfl⟩, fun _ => ⟨failure, rfl⟩⟩

/-- So does an unsigned fraction, when the value is not negative. -/
theorem UnsignedFraction.ofFloat_eq_ok_iff {r : UnsignedFraction} :
    UnsignedFraction.ofFloat value = .ok r ↔
      ¬value < 0 ∧ approximate value 0 4294967295 =
        .ok (r.numerator.toNat, r.denominator.toNat) := by
  unfold UnsignedFraction.ofFloat
  dsimp only
  simp only [Outcome.throw_eq, Outcome.error_bind, Outcome.guard_eq_ok]
  refine and_congr_right fun _ => ⟨?_, ?_⟩
  · intro h
    obtain ⟨⟨numerator, denominator⟩, hanswer, hr⟩ := Outcome.bind_eq_ok.mp h
    obtain rfl := Outcome.pure_eq_ok.mp hr
    obtain ⟨⟨hlow, hhigh⟩, hdenominator⟩ := Ratio.parts_le hanswer (by decide) (by decide)
    have hnumerator : numerator.toNat < UInt32.size := by
      show _ < 2 ^ 32
      omega
    rw [hanswer, UInt32.toNat_ofNat_of_lt' hnumerator, UInt32.toNat_ofNat_of_lt' hdenominator,
      Int.toNat_of_nonneg hlow]
  · intro h
    rw [h, Outcome.ok_bind]
    dsimp only
    rw [Int.toNat_natCast, UInt32.ofNat_toNat, UInt32.ofNat_toNat]
    rfl

theorem UnsignedFraction.exists_ofFloat_error_iff :
    (∃ failure, UnsignedFraction.ofFloat value = .error failure) ↔
      value < 0 ∨ ∃ failure, approximate value 0 4294967295 = .error failure := by
  unfold UnsignedFraction.ofFloat
  dsimp only
  simp only [Outcome.throw_eq, Outcome.error_bind]
  by_cases hnegative : value < 0
  · rw [if_pos hnegative]
    exact ⟨fun _ => .inl hnegative, fun _ => ⟨_, rfl⟩⟩
  · rw [if_neg hnegative, or_iff_right hnegative]
    cases approximate value 0 4294967295 with
    | ok parts => exact ⟨fun ⟨_, h⟩ => (nomatch h), fun ⟨_, h⟩ => (nomatch h)⟩
    | error failure => exact ⟨fun _ => ⟨failure, rfl⟩, fun _ => ⟨failure, rfl⟩⟩

/-- **Conversion is exact after scaling.** A float becomes the fraction `x / 10 ^ k` in lowest terms
and no other, where `10 ^ k` is the largest power of ten up to a million at which the numerator `x`
of the float, scaled and rounded, is in the range of 32 bits; the parts found are those stored, as
nothing is lost in 32 bits. There is no fraction for what is not finite, for what fits at no scale,
and in the unsigned case for what is negative. For a finite float, the search over the scales ends
with the answer and with no other. -/
theorem Ratio.conversion_exact (value : Float) :
    (∀ r, Fraction.ofFloat value = .ok r ↔
      value.isFinite = true ∧ ∃ k x, LargestScale value (-2147483648) 2147483647 6 k x ∧
        LowestTerms x (10 ^ k) r.numerator.toInt r.denominator.toNat) ∧
    (∀ r, UnsignedFraction.ofFloat value = .ok r ↔
      ¬value < 0 ∧ value.isFinite = true ∧ ∃ k x, LargestScale value 0 4294967295 6 k x ∧
        LowestTerms x (10 ^ k) r.numerator.toNat r.denominator.toNat) ∧
    (∀ r, Fraction.ofFloat value = .ok r →
      approximate value (-2147483648) 2147483647 =
        .ok (r.numerator.toInt, r.denominator.toNat)) ∧
    (∀ r, UnsignedFraction.ofFloat value = .ok r →
      approximate value 0 4294967295 = .ok (r.numerator.toNat, r.denominator.toNat)) ∧
    ((∃ failure, Fraction.ofFloat value = .error failure) ↔
      value.isFinite = false ∨
        ∀ k ≤ 6, ∀ x, ¬Fits value (-2147483648) 2147483647 (10 ^ k) x) ∧
    ((∃ failure, UnsignedFraction.ofFloat value = .error failure) ↔
      value < 0 ∨ value.isFinite = false ∨ ∀ k ≤ 6, ∀ x, ¬Fits value 0 4294967295 (10 ^ k) x) ∧
    (value.isFinite = true → ∀ low high answer,
      Search value low high 1000000 answer ↔ approximate value low high = answer) := by
  refine ⟨?_, ?_, fun r h => Fraction.ofFloat_eq_ok_iff.mp h,
    fun r h => (UnsignedFraction.ofFloat_eq_ok_iff.mp h).2, ?_, ?_,
    fun hfinite low high answer => search_iff hfinite⟩
  · intro r
    rw [Fraction.ofFloat_eq_ok_iff, approximate_eq_ok_iff]
  · intro r
    rw [UnsignedFraction.ofFloat_eq_ok_iff, approximate_eq_ok_iff]
  · rw [Fraction.exists_ofFloat_error_iff, exists_approximate_error_iff]
  · rw [UnsignedFraction.exists_ofFloat_error_iff, exists_approximate_error_iff]

/-- The least fraction of either sign and the largest unsigned one fit at the last scale. -/
theorem Ratio.limits_exact :
    (∃ k x, LargestScale (-2147483648) (-2147483648) 2147483647 6 k x ∧
      LowestTerms x (10 ^ k) (-2147483648) 1) ∧
    ∃ k x, LargestScale 4294967295 0 4294967295 6 k x ∧ LowestTerms x (10 ^ k) 4294967295 1 := by
  obtain ⟨hsigned, -⟩ := Ratio.conversion_exact (-2147483648)
  obtain ⟨-, hunsigned, -⟩ := Ratio.conversion_exact 4294967295
  exact ⟨((hsigned ⟨-2147483648, 1⟩).mp rfl).2, ((hunsigned ⟨4294967295, 1⟩).mp rfl).2.2⟩

end DualRendition
