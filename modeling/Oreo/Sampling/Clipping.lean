import Oreo.Sampling.Moments
import Mathlib.Algebra.Order.Ring.Abs
import Mathlib.Tactic.Positivity

namespace Oreo.Sampling

/-! # Discarding the elements far from the mean

`keep` is any selection that only discards elements at least `t` standard
deviations away from the mean of `xs`. The discarded elements carry so much of
the sum of squares that the mean cannot move further than the deviation shrinks.
-/

variable {K : Type*} [Field K] [LinearOrder K] [IsStrictOrderedRing K]

section Discard

variable {xs : List K} {keep : K → Bool} {t s : K}

/-- Whatever `keep` discards lies at least `t * s` from the mean. -/
def DiscardsOnlyFar (keep : K → Bool) (t s : K) (xs : List K) : Prop :=
  ∀ x ∈ xs, keep x = false → t * s ≤ |x - mean xs|

theorem DiscardsOnlyFar.sq_le (far : DiscardsOnlyFar keep t s xs) (tolerance : 0 ≤ t) (spread : 0 ≤ s) :
    ∀ x ∈ xs.filter (fun x => !keep x), t ^ 2 * s ^ 2 ≤ (x - mean xs) ^ 2 := by
  intro x member
  obtain ⟨inSample, discarded⟩ := List.mem_filter.mp member
  have distance := far x inSample (by simpa using discarded)
  calc t ^ 2 * s ^ 2 = (t * s) ^ 2 := by ring
    _ ≤ |x - mean xs| ^ 2 := pow_le_pow_left₀ (mul_nonneg tolerance spread) distance 2
    _ = (x - mean xs) ^ 2 := sq_abs _

/-- Chebyshev's bound on the number of discarded elements. -/
theorem DiscardsOnlyFar.count_le (far : DiscardsOnlyFar keep t s xs) (tolerance : 0 ≤ t)
    (spread : 0 < s) (deviation : s ^ 2 = variance xs) :
    t ^ 2 * (xs.filter fun x => !keep x).length ≤ xs.length := by
  by_cases empty : xs = []
  · simp [empty]
  · have counted := length_mul_le_squaresAbout (far.sq_le tolerance spread.le)
    have partition := squaresAbout_partition keep xs (mean xs)
    have kept := squaresAbout_nonneg (mean xs) (xs.filter keep)
    rw [squaresAbout_mean empty, ← deviation] at partition
    have scaled : t ^ 2 * ((xs.filter fun x => !keep x).length : K) * s ^ 2 ≤ xs.length * s ^ 2 := by
      linear_combination counted + kept + partition
    exact le_of_mul_le_mul_right scaled (by positivity)

theorem DiscardsOnlyFar.none_of_small (far : DiscardsOnlyFar keep t s xs) (tolerance : 0 ≤ t)
    (spread : 0 < s) (deviation : s ^ 2 = variance xs) (small : (xs.length : K) ≤ t ^ 2) :
    xs.filter (fun x => !keep x) = [] := by
  by_contra remaining
  obtain ⟨x, member⟩ := List.exists_mem_of_ne_nil _ remaining
  have inSample := List.mem_of_mem_filter member
  have positive := length_pos_cast (List.ne_nil_of_mem inSample)
  have distance := far.sq_le tolerance spread.le x member
  have bounded := samuelson inSample
  rw [squaresAbout_mean (List.ne_nil_of_mem inSample), ← deviation] at bounded
  have limited : (x - mean xs) ^ 2 ≤ (xs.length - 1) * s ^ 2 := by
    have scaled : xs.length * (x - mean xs) ^ 2 ≤ xs.length * ((xs.length - 1) * s ^ 2) := by
      linear_combination bounded
    exact le_of_mul_le_mul_left scaled positive
  have square : (0 : K) < s ^ 2 := by positivity
  nlinarith only [distance, limited, square, mul_le_mul_of_nonneg_right small square.le]

end Discard

/-- The arithmetic of one clipping step: `b` elements stay and `r` go, `d` is the
shift of the mean, and the discarded elements have sum of squares `q`. -/
theorem shift_add_le {t s s' d b r q : K} (tolerance : 0 < t) (wide : 3 ≤ t ^ 2)
    (spread : 0 ≤ s) (stay : 0 < b) (go : 0 ≤ r)
    (balance : (b + r) * s ^ 2 = b * s' ^ 2 + b * d ^ 2 + q)
    (far : r * (t ^ 2 * s ^ 2) ≤ q) (pull : (b * d) ^ 2 ≤ r * q) :
    d + t * s' ≤ t * s := by
  have squaresNonneg : 0 ≤ q := le_trans (by positivity) far
  -- the discarded squares dominate the geometric mean of their two lower bounds
  have geometric : t * s * (b * d) ≤ q := by
    apply le_of_sq_le_sq _ squaresNonneg
    calc (t * s * (b * d)) ^ 2 = t ^ 2 * s ^ 2 * (b * d) ^ 2 := by ring
      _ ≤ t ^ 2 * s ^ 2 * (r * q) := mul_le_mul_of_nonneg_left pull (by positivity)
      _ = r * (t ^ 2 * s ^ 2) * q := by ring
      _ ≤ q * q := mul_le_mul_of_nonneg_right far squaresNonneg
      _ = q ^ 2 := by ring
  have above : 1 ≤ t := by nlinarith only [tolerance, wide]
  have near : d ≤ t * s := by
    have squared : b * d ^ 2 ≤ b * s ^ 2 := by
      have outer : r * s ^ 2 ≤ q := le_trans (by nlinarith only [mul_nonneg go (sq_nonneg s), wide]) far
      nlinarith only [balance, outer, mul_nonneg stay.le (sq_nonneg s')]
    have below : d ≤ s := le_of_sq_le_sq (le_of_mul_le_mul_left squared stay) spread
    exact le_trans below (le_mul_of_one_le_left spread above)
  have squared : (t * s') ^ 2 ≤ (t * s - d) ^ 2 := by
    have scaled : b * (t * s') ^ 2 ≤ b * (t * s - d) ^ 2 := by
      nlinarith only [balance, far, geometric, mul_nonneg (sub_nonneg.mpr wide) squaresNonneg,
        mul_nonneg stay.le (sq_nonneg d), mul_nonneg stay.le (sq_nonneg (t * d))]
    exact le_of_mul_le_mul_left scaled stay
  have contracted : t * s' ≤ t * s - d := le_of_sq_le_sq squared (sub_nonneg.mpr near)
  linarith only [contracted]

/-- After a clipping step with tolerance at least `√3`, the interval of `t`
deviations around the new mean lies inside the one before. -/
theorem DiscardsOnlyFar.contracts {xs : List K} {keep : K → Bool} {t s s' : K}
    (far : DiscardsOnlyFar keep t s xs) (tolerance : 0 < t) (wide : 3 ≤ t ^ 2)
    (spread : 0 ≤ s) (deviation : s ^ 2 = variance xs)
    (kept : xs.filter keep ≠ []) (deviation' : s' ^ 2 = variance (xs.filter keep)) :
    |mean (xs.filter keep) - mean xs| + t * s' ≤ t * s := by
  have nonempty : xs ≠ [] := by
    intro same
    subst same
    exact kept rfl
  have lengths : ((xs.filter keep).length : K) + (xs.filter fun x => !keep x).length = xs.length := by
    have := List.length_eq_length_filter_add (l := xs) keep
    exact_mod_cast this.symm
  have sums := sum_filter_partition keep xs (fun x => x)
  simp only [List.map_id'] at sums
  have squares := squaresAbout_partition keep xs (mean xs)
  rw [squaresAbout_shift kept, squaresAbout_mean kept, squaresAbout_mean nonempty,
    ← deviation, ← deviation'] at squares
  apply shift_add_le tolerance wide spread (length_pos_cast kept)
    (Nat.cast_nonneg (xs.filter fun x => !keep x).length) (q := squaresAbout (mean xs) (xs.filter fun x => !keep x))
  · rw [lengths, sq_abs, ← squares]
  · exact length_mul_le_squaresAbout (far.sq_le tolerance.le spread)
  · have cauchy := sq_sum_sub_le (mean xs) (xs.filter fun x => !keep x)
    rw [sum_eq_length_mul_mean kept, sum_eq_length_mul_mean nonempty] at sums
    have opposite : (xs.filter fun x => !keep x).sum - (xs.filter fun x => !keep x).length * mean xs =
        -((xs.filter keep).length * (mean (xs.filter keep) - mean xs)) := by
      linear_combination sums - mean xs * lengths
    rw [opposite, neg_sq] at cauchy
    rw [mul_pow, sq_abs, ← mul_pow]
    exact cauchy

end Oreo.Sampling
