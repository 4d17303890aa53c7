import DualRendition.Stop
import DualRendition.Proofs.Raster.Addressing

/-!
# Passes over rows

A pass lays its rows end to end, with a check before each. It succeeds exactly when all checks pass
and all rows can be computed (`Stop.sweep_eq_ok_iff`). Otherwise it matters which comes first: a
stop that runs out inside the pass ends it after the rows that were granted, unless one of these has
ended it before (`Stop.sweep_of_lt`).

Structure: `layOut` is taken apart at its last piece (`layOut_succ`), and everything about passes is
an induction over their rows from there.
-/

namespace DualRendition

open Outcome (OnlyAborts)

/-! ## Pieces laid end to end -/

section LayOut

variable {α : Type} {count width height : Nat} {f f' : Nat → Outcome (Array α)} {all : Array α}

theorem layOut_zero (f : Nat → Outcome (Array α)) : layOut 0 f = .ok #[] := rfl

/-- The last piece comes behind all others. -/
theorem layOut_succ (count : Nat) (f : Nat → Outcome (Array α)) :
    layOut (count + 1) f = (do
      let front ← layOut count f
      let last ← f count
      return front ++ last) := by
  unfold layOut
  rw [List.range_succ, List.mapM_append]
  cases (List.range count).mapM f with
  | error failure => rfl
  | ok pieces =>
    simp only [Outcome.ok_bind, Outcome.pure_eq, List.mapM_cons, List.mapM_nil]
    cases f count with
    | error failure => rfl
    | ok last =>
      simp only [Outcome.ok_bind]
      rw [← List.append_toArray, Array.flatten_append]
      simp

theorem layOut_congr (h : ∀ i < count, f i = f' i) : layOut count f = layOut count f' := by
  induction count with
  | zero => rfl
  | succ count ih =>
    rw [layOut_succ, layOut_succ, ih fun i hi => h i (Nat.lt_succ_of_lt hi),
      h count (Nat.lt_succ_self count)]

/-- Pieces that are all there are laid end to end, ... -/
theorem layOut_ok {piece : Nat → Array α} (h : ∀ i < count, f i = .ok (piece i)) :
    layOut count f = .ok ((Array.range count).flatMap piece) := by
  induction count with
  | zero => rfl
  | succ count ih =>
    rw [layOut_succ, ih fun i hi => h i (Nat.lt_succ_of_lt hi), h count (Nat.lt_succ_self count),
      Array.range_succ, Array.flatMap_append, Array.flatMap_singleton]
    rfl

theorem layOut_pure (count : Nat) (piece : Nat → Array α) :
    layOut count (fun i => pure (piece i)) = .ok ((Array.range count).flatMap piece) :=
  layOut_ok fun _ _ => rfl

/-- ... and no piece may be missing. -/
theorem exists_piece_of_layOut (h : layOut count f = .ok all) : ∀ i < count, ∃ a, f i = .ok a := by
  induction count generalizing all with
  | zero => exact fun i hi => absurd hi (Nat.not_lt_zero i)
  | succ count ih =>
    rw [layOut_succ] at h
    obtain ⟨front, hfront, h⟩ := Outcome.bind_eq_ok.mp h
    obtain ⟨last, hlast, -⟩ := Outcome.bind_eq_ok.mp h
    intro i hi
    rcases Nat.lt_succ_iff_lt_or_eq.mp hi with hi | rfl
    · exact ih hfront i hi
    · exact ⟨last, hlast⟩

/-- What a computation gives, if it succeeds. -/
theorem eq_ok_toOption {x : Outcome (Array α)} (h : ∃ a, x = .ok a) :
    x = .ok (x.toOption.getD #[]) := by
  obtain ⟨a, rfl⟩ := h
  rfl

/-- All pieces are laid out when each of them can be computed. -/
theorem exists_layOut_iff : (∃ all, layOut count f = .ok all) ↔ ∀ i < count, ∃ a, f i = .ok a := by
  constructor
  · intro h
    obtain ⟨all, hall⟩ := h
    exact exists_piece_of_layOut hall
  · intro h
    exact ⟨_, layOut_ok fun i hi => eq_ok_toOption (h i hi)⟩

/-- Rows of pieces, all laid end to end. -/
theorem layOut_rows_eq_ok_iff {f : Nat → Nat → Outcome (Array α)} :
    (layOut height fun y => layOut width fun x => f x y) = .ok all ↔
      ∃ piece : Nat → Nat → Array α, (∀ y < height, ∀ x < width, f x y = .ok (piece x y)) ∧
        all = (Array.range height).flatMap fun y =>
          (Array.range width).flatMap fun x => piece x y := by
  constructor
  · intro h
    have hpiece : ∀ y < height, ∀ x < width, f x y = .ok ((f x y).toOption.getD #[]) := by
      intro y hy x hx
      obtain ⟨row, hrow⟩ := exists_piece_of_layOut h y hy
      exact eq_ok_toOption (exists_piece_of_layOut hrow x hx)
    exact ⟨fun x y => (f x y).toOption.getD #[], hpiece,
      Except.ok.inj (h.symm.trans (layOut_ok fun y hy => layOut_ok (hpiece y hy)))⟩
  · intro h
    obtain ⟨piece, hpiece, rfl⟩ := h
    exact layOut_ok fun y hy => layOut_ok (hpiece y hy)

theorem layOut_onlyAborts (h : ∀ i < count, OnlyAborts (f i)) : OnlyAborts (layOut count f) := by
  induction count with
  | zero => exact .ok _
  | succ count ih =>
    rw [layOut_succ]
    refine .bind (ih fun i hi => h i (Nat.lt_succ_of_lt hi)) fun front => ?_
    exact .bind (h count (Nat.lt_succ_self count)) fun last => .ok _

end LayOut

/-! ## Passes -/

namespace Stop

variable {α : Type} {stop : Stop} {asked rows granted : Nat} {reason : StopReason}
  {f : Nat → Outcome (Array α)} {all : Array α}

theorem check_eq_ok_iff : stop.check asked = .ok () ↔ stop.permits asked = true := by
  unfold check
  by_cases h : stop.permits asked = true <;> simp [h]

/-- A check that passes leaves what follows. -/
theorem check_bind_of_permits (h : stop.permits asked = true) (x : Outcome α) :
    (do stop.check asked; x) = x := by
  rw [check_eq_ok_iff.mpr h]
  rfl

theorem sweep_succ (stop : Stop) (asked rows : Nat) (f : Nat → Outcome (Array α)) :
    stop.sweep asked (rows + 1) f = (do
      let front ← stop.sweep asked rows f
      stop.check (asked + rows)
      let last ← f rows
      return front ++ last) := by
  unfold sweep
  rw [layOut_succ]
  simp only [bind_assoc]

/-- A pass in which every check passes is its rows. -/
theorem sweep_of_permits (h : ∀ y < rows, stop.permits (asked + y) = true) :
    stop.sweep asked rows f = layOut rows f :=
  layOut_congr fun y hy => check_bind_of_permits (h y hy) (f y)

theorem sweep_eq_ok_iff :
    stop.sweep asked rows f = .ok all ↔
      (∀ y < rows, stop.permits (asked + y) = true) ∧ layOut rows f = .ok all := by
  constructor
  · intro h
    have hpermits : ∀ y < rows, stop.permits (asked + y) = true := by
      intro y hy
      obtain ⟨row, hrow⟩ := exists_piece_of_layOut h y hy
      exact check_eq_ok_iff.mp (Outcome.check_bind_eq_ok.mp hrow).1
    exact ⟨hpermits, (sweep_of_permits hpermits).symm.trans h⟩
  · intro h
    exact (sweep_of_permits h.1).trans h.2

theorem sweep_never (asked rows : Nat) (f : Nat → Outcome (Array α)) :
    never.sweep asked rows f = layOut rows f :=
  sweep_of_permits fun _ _ => rfl

/-- Passes over the same rows are the same. -/
theorem sweep_congr {f' : Nat → Outcome (Array α)} (h : ∀ y < rows, f y = f' y) :
    stop.sweep asked rows f = stop.sweep asked rows f' :=
  layOut_congr fun y hy => by rw [h y hy]

theorem permits_granted_iff :
    permits ⟨some granted, reason⟩ asked = true ↔ asked < granted := decide_eq_true_iff

/-- A stop that is left with enough checks does not show, ... -/
theorem sweep_of_le (h : asked + rows ≤ granted) :
    sweep ⟨some granted, reason⟩ asked rows f = layOut rows f :=
  sweep_of_permits fun y hy => permits_granted_iff.mpr (by omega)

/-- ... and any other ends the pass after the rows that are granted. -/
theorem sweep_of_lt (hle : asked ≤ granted) (hlt : granted < asked + rows) :
    sweep ⟨some granted, reason⟩ asked rows f =
      layOut (granted - asked) f >>= fun _ => .error (.stopped reason) := by
  induction rows with
  | zero => omega
  | succ rows ih =>
    rw [sweep_succ]
    by_cases hlast : granted < asked + rows
    · rw [ih hlast, bind_assoc]
      rfl
    · -- the check before the last row is the one that fails
      obtain rfl : granted = asked + rows := by omega
      have hcheck : check ⟨some (asked + rows), reason⟩ (asked + rows) =
          .error (.stopped reason) := by
        unfold check
        rw [if_neg fun h => Nat.lt_irrefl _ (permits_granted_iff.mp h)]
      rw [sweep_of_le (Nat.le_refl _), hcheck, Nat.add_sub_cancel_left]
      rfl

end Stop

end DualRendition
