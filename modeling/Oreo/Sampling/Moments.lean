import Mathlib.Algebra.BigOperators.Group.List.Basic
import Mathlib.Algebra.BigOperators.Ring.List
import Mathlib.Algebra.Order.BigOperators.Group.List
import Mathlib.Algebra.Order.Field.Basic
import Mathlib.Tactic.FieldSimp
import Mathlib.Tactic.Linarith
import Mathlib.Tactic.LinearCombination
import Mathlib.Tactic.Ring

namespace Oreo.Sampling

/-! # Moments of a finite sample

A sample is a list over an ordered field. Nothing here takes a square root:
a standard deviation is any nonnegative `s` with `s * s = variance xs`, so the
facts hold for every field and every way of computing the root.
-/

variable {K : Type*} [Field K]

def mean (xs : List K) : K := xs.sum / xs.length

/-- The sum of the squared distances of a sample from a centre. -/
def squaresAbout (center : K) (xs : List K) : K :=
  (xs.map fun x => (x - center) ^ 2).sum

def variance (xs : List K) : K := squaresAbout (mean xs) xs / xs.length

theorem squaresAbout_expand (center : K) (xs : List K) :
    squaresAbout center xs =
      squaresAbout 0 xs - 2 * center * xs.sum + xs.length * center ^ 2 := by
  induction xs with
  | nil => simp [squaresAbout]
  | cons x xs ih =>
      simp only [squaresAbout, List.map_cons, List.sum_cons, List.length_cons, Nat.cast_succ] at ih ⊢
      rw [ih]
      ring

theorem sum_scaled_squares (center : K) (size : Nat) (xs : List K) :
    (xs.map fun x => (x - center) / size * (x - center)).sum = squaresAbout center xs / size := by
  induction xs with
  | nil => simp [squaresAbout]
  | cons x xs ih =>
      simp only [squaresAbout, List.map_cons, List.sum_cons] at ih ⊢
      rw [ih]
      ring

section Unit

variable (c : K) (xs : List K)

theorem mean_map_mul : mean (xs.map (c * ·)) = c * mean xs := by
  rw [mean, mean, List.length_map, List.sum_map_mul_left, List.map_id', mul_div_assoc]

theorem squaresAbout_map_mul (center : K) :
    squaresAbout (c * center) (xs.map (c * ·)) = c ^ 2 * squaresAbout center xs := by
  unfold squaresAbout
  rw [List.map_map, ← List.sum_map_mul_left]
  congr 1
  apply List.map_congr_left
  intro x _
  simp only [Function.comp_apply]
  ring

theorem variance_map_mul : variance (xs.map (c * ·)) = c ^ 2 * variance xs := by
  rw [variance, variance, mean_map_mul, squaresAbout_map_mul, List.length_map, mul_div_assoc]

end Unit

section Partition

variable (keep : K → Bool) (xs : List K)

theorem sum_filter_partition (f : K → K) :
    ((xs.filter keep).map f).sum + ((xs.filter fun x => !keep x).map f).sum = (xs.map f).sum := by
  simpa using List.sum_map_filter_add_sum_map_filter_not (fun x => keep x = true) f xs

theorem squaresAbout_partition (center : K) :
    squaresAbout center (xs.filter keep) + squaresAbout center (xs.filter fun x => !keep x) =
      squaresAbout center xs :=
  sum_filter_partition keep xs _

end Partition

variable [LinearOrder K] [IsStrictOrderedRing K]

theorem length_pos_cast {xs : List K} (nonempty : xs ≠ []) : (0 : K) < xs.length :=
  Nat.cast_pos.mpr (List.length_pos_iff.mpr nonempty)

theorem sum_eq_length_mul_mean {xs : List K} (nonempty : xs ≠ []) :
    xs.sum = xs.length * mean xs := by
  have positive := length_pos_cast nonempty
  unfold mean
  field_simp

theorem squaresAbout_mean {xs : List K} (nonempty : xs ≠ []) :
    squaresAbout (mean xs) xs = xs.length * variance xs := by
  have positive := length_pos_cast nonempty
  unfold variance
  field_simp

/-- Moving the centre away from the mean adds the squared shift once for each element. -/
theorem squaresAbout_shift {xs : List K} (nonempty : xs ≠ []) (center : K) :
    squaresAbout center xs =
      squaresAbout (mean xs) xs + xs.length * (mean xs - center) ^ 2 := by
  rw [squaresAbout_expand center, squaresAbout_expand (mean xs), sum_eq_length_mul_mean nonempty]
  ring

theorem squaresAbout_nonneg (center : K) (xs : List K) : 0 ≤ squaresAbout center xs := by
  apply List.sum_nonneg
  intro value member
  obtain ⟨x, -, rfl⟩ := List.mem_map.mp member
  exact sq_nonneg _

theorem variance_nonneg (xs : List K) : 0 ≤ variance xs :=
  div_nonneg (squaresAbout_nonneg _ _) (Nat.cast_nonneg _)

/-- Cauchy's inequality for the deviations from a fixed centre. -/
theorem sq_sum_sub_le (center : K) (xs : List K) :
    (xs.sum - xs.length * center) ^ 2 ≤ xs.length * squaresAbout center xs := by
  by_cases nonempty : xs = []
  · simp [nonempty]
  · have positive := length_pos_cast nonempty
    have spread := squaresAbout_nonneg (mean xs) xs
    rw [squaresAbout_shift nonempty center, sum_eq_length_mul_mean nonempty]
    nlinarith only [mul_nonneg positive.le spread]

/-- Chebyshev's count: elements at squared distance at least `bound` each
contribute that much to the sum of squares. -/
theorem length_mul_le_squaresAbout {center bound : K} {xs : List K}
    (far : ∀ x ∈ xs, bound ≤ (x - center) ^ 2) :
    xs.length * bound ≤ squaresAbout center xs := by
  have counted := List.card_nsmul_le_sum (xs.map fun x => (x - center) ^ 2) bound (by
    intro value member
    obtain ⟨x, inSample, rfl⟩ := List.mem_map.mp member
    exact far x inSample)
  rw [List.length_map, nsmul_eq_mul] at counted
  exact counted

/-- Samuelson's inequality: one element of `n` lies within `√(n - 1)` standard
deviations of the mean. -/
theorem samuelson {xs : List K} {x : K} (member : x ∈ xs) :
    xs.length * (x - mean xs) ^ 2 ≤ (xs.length - 1) * squaresAbout (mean xs) xs := by
  have nonempty : xs ≠ [] := List.ne_nil_of_mem member
  obtain ⟨front, back, rfl⟩ := List.append_of_mem member
  generalize center : mean (front ++ x :: back) = c
  -- the other elements must balance the deviation of `x`
  have balance := sum_eq_length_mul_mean nonempty
  rw [center] at balance
  have others := sq_sum_sub_le c (front ++ back)
  simp only [squaresAbout, List.map_append, List.map_cons, List.sum_append, List.sum_cons,
    List.length_append, List.length_cons, Nat.cast_add, Nat.cast_succ] at balance others ⊢
  have opposite : front.sum + back.sum - ((front.length : K) + back.length) * c = -(x - c) := by
    linear_combination balance
  rw [opposite] at others
  linear_combination others

/-- The Bhatia–Davis inequality. -/
theorem variance_le_mul {xs : List K} {low high : K} (nonempty : xs ≠ [])
    (above : ∀ x ∈ xs, low ≤ x) (below : ∀ x ∈ xs, x ≤ high) :
    variance xs ≤ (high - mean xs) * (mean xs - low) := by
  have positive := length_pos_cast nonempty
  have products : 0 ≤ (xs.map fun x => (high - x) * (x - low)).sum := by
    apply List.sum_nonneg
    intro value member
    obtain ⟨x, inSample, rfl⟩ := List.mem_map.mp member
    exact mul_nonneg (sub_nonneg.mpr (below x inSample)) (sub_nonneg.mpr (above x inSample))
  have expanded (ys : List K) : (ys.map fun x => (high - x) * (x - low)).sum =
      (high + low) * ys.sum - ys.length * (high * low) - squaresAbout 0 ys := by
    induction ys with
    | nil => simp [squaresAbout]
    | cons y ys ih =>
        simp only [squaresAbout, List.map_cons, List.sum_cons, List.length_cons, Nat.cast_succ] at ih ⊢
        rw [ih]
        ring
  have spread := squaresAbout_expand (mean xs) xs
  rw [expanded, sum_eq_length_mul_mean nonempty] at products
  rw [squaresAbout_mean nonempty, sum_eq_length_mul_mean nonempty] at spread
  have scaled : (xs.length : K) * variance xs ≤
      xs.length * ((high - mean xs) * (mean xs - low)) := by
    linear_combination products + spread
  exact le_of_mul_le_mul_left scaled positive

theorem le_mean {xs : List K} {low : K} (nonempty : xs ≠ []) (above : ∀ x ∈ xs, low ≤ x) :
    low ≤ mean xs := by
  have counted := List.card_nsmul_le_sum xs low above
  rw [nsmul_eq_mul, sum_eq_length_mul_mean nonempty] at counted
  exact le_of_mul_le_mul_left counted (length_pos_cast nonempty)

theorem mean_le {xs : List K} {high : K} (nonempty : xs ≠ []) (below : ∀ x ∈ xs, x ≤ high) :
    mean xs ≤ high := by
  have counted := List.sum_le_card_nsmul xs high below
  rw [nsmul_eq_mul, sum_eq_length_mul_mean nonempty] at counted
  exact le_of_mul_le_mul_left counted (length_pos_cast nonempty)

end Oreo.Sampling
