import Oreo.Utils.Aggregate.Exact

namespace Oreo.Utils.Aggregate

open Oreo.Sampling

/-! # The unit of the samples

The loop compares relative quantities, except for the bound on the mean and the
seeds of the extremes. Within their range a change of unit takes the loop through
the same passes, with every variable in the new unit.
-/

variable {K : Type*} [Field K] [LinearOrder K]

def Locals.scale (c : K) (s : Locals K) : Locals K :=
  { s with
    avg := c * s.avg, dev := c ^ 2 * s.dev, _avg := c * s._avg, _stddev := c * s._stddev,
    max := c * s.max, min := c * s.min }

def Step.scale (c : K) : Step K → Step K
  | .tooMuchNoise s => .tooMuchNoise (s.scale c)
  | .precise s => .precise (s.scale c)
  | .next s => .next (s.scale c)

def Pass.scale (c : K) (p : Pass K) : Pass K := ⟨p.entry.scale c, p.exit.scale c⟩

def Stats.scale (c : K) (stats : Stats K) : Stats K :=
  ⟨c * stats.mean, c * stats.stddev, c * stats.max, c * stats.min⟩

omit [LinearOrder K] in
theorem start_scale (c : K) (size : Nat) : (start size : Locals K).scale c = start size := by
  simp [Locals.scale, start]

variable [IsStrictOrderedRing K] {sqrt : K → K} {data : List K} {s : Locals K} {c : K}

theorem accepts_scale (positive : 0 < c) (s : Locals K) (x : K) :
    (s.scale c).accepts (c * x) = s.accepts x := by
  have width : tolerance * (c * s._stddev) = c * (tolerance * s._stddev) := mul_left_comm _ _ _
  simp only [Locals.accepts, Locals.scale, ← mul_sub, abs_mul, abs_of_pos positive, width,
    mul_lt_mul_iff_right₀ positive]

theorem retained_scale (positive : 0 < c) (s : Locals K) (data : List K) :
    (s.scale c).retained (data.map (c * ·)) = (s.retained data).map (c * ·) := by
  simp only [Locals.retained, List.filter_map, Function.comp_def, accepts_scale positive]

theorem rejected_scale (positive : 0 < c) (s : Locals K) (data : List K) :
    (s.scale c).rejected (data.map (c * ·)) = (s.rejected data).map (c * ·) := by
  simp only [Locals.rejected, List.filter_map, Function.comp_def, accepts_scale positive]

theorem IsSquareRoot.scale (root : IsSquareRoot sqrt) (positive : 0 < c) {x : K} (nonneg : 0 ≤ x) :
    sqrt (c ^ 2 * x) = c * sqrt x := by
  apply (sq_eq_sq₀ (root.nonneg _) (mul_nonneg positive.le (root.nonneg x))).mp
  rw [root.square _ (mul_nonneg (sq_nonneg c) nonneg), mul_pow, root.square x nonneg]

theorem report_scale (root : IsSquareRoot sqrt) (positive : 0 < c) (kept : s.retained data ≠ [])
    (range : InRange data) (range' : InRange (data.map (c * ·))) :
    (s.scale c).report sqrt (data.map (c * ·)) = (s.report sqrt data).scale c := by
  have monotone : Monotone (c * ·) := monotone_mul_left_of_nonneg positive.le
  have inside : ∀ x ∈ s.retained data, (1 / 1000 ≤ x ∧ x ≤ 2 ^ 63) ∧ 1 / 1000 ≤ c * x ∧ c * x ≤ 2 ^ 63 := by
    intro x member
    have sample := List.mem_of_mem_filter member
    exact ⟨range x sample, range' (c * x) (List.mem_map_of_mem sample)⟩
  have low : (llongMin : K) ≤ 1 / 1000 := by norm_num [llongMin]
  have largest := largest_map monotone kept (fun x member => low.trans (inside x member).1.1)
    (fun x member => low.trans (inside x member).2.1)
  have high : ∀ x ∈ s.retained data, x ≤ llongMax := fun x member => (inside x member).1.2
  have high' : ∀ x ∈ s.retained data, c * x ≤ llongMax := fun x member => (inside x member).2.2
  have smallest := smallest_map monotone kept high high'
  rw [Locals.report, Locals.report, retained_scale positive, rejected_scale positive]
  simp only [mean_map_mul, variance_map_mul, root.scale positive (variance_nonneg _), largest, smallest,
    List.length_map, List.isEmpty_map, Locals.scale]

omit [IsStrictOrderedRing K] in
/-- A mean in range leaves the break to the relative deviation, which has no unit. -/
theorem isPrecise_scale (positive : 0 < c) (mean : 1 / 1000 ≤ s._avg) (mean' : 1 / 1000 ≤ c * s._avg) :
    (s.scale c).isPrecise ↔ s.isPrecise := by
  simp only [Locals.isPrecise, Locals.scale, not_lt_of_ge mean, not_lt_of_ge mean', false_or,
    mul_div_mul_left _ _ positive.ne']

theorem InRange.mean_scale {xs : List K} (nonempty : xs ≠ [])
    (range : InRange (xs.map (c * ·))) : 1 / 1000 ≤ c * mean xs := by
  rw [← mean_map_mul]
  exact le_mean (by simpa using nonempty) fun x member => (range x member).1

theorem pass_scale (root : IsSquareRoot sqrt) (positive : 0 < c) (kept : s.retained data ≠ [])
    (range : InRange data) (range' : InRange (data.map (c * ·))) :
    pass sqrt (data.map (c * ·)) (s.scale c) = (pass sqrt data s).scale c := by
  have kept' : (s.scale c).retained (data.map (c * ·)) ≠ [] := by
    rw [retained_scale positive]
    simpa using kept
  have mean : 1 / 1000 ≤ (s.report sqrt data)._avg :=
    le_mean kept fun x member => (range x (List.mem_of_mem_filter member)).1
  have mean' : 1 / 1000 ≤ c * (s.report sqrt data)._avg := by
    apply InRange.mean_scale kept
    rw [← retained_scale positive]
    exact fun x member => range' x (List.mem_of_mem_filter member)
  rw [pass_eq sqrt kept', pass_eq sqrt kept, report_scale root positive kept range range']
  simp only [isPrecise_scale positive mean mean']
  split <;> rfl

variable (root : IsSquareRoot sqrt) (positive : 0 < c) (nonempty : data ≠ [])
variable (range : InRange data) (range' : InRange (data.map (c * ·)))
include root positive nonempty range range'

theorem passes_scale (remaining : Nat) (entry : Entry sqrt data s) :
    passes sqrt (data.map (c * ·)) remaining (s.scale c) =
      (passes sqrt data remaining s).map (Pass.scale c) := by
  induction remaining generalizing s with
  | zero => rfl
  | succ remaining ih =>
      have kept := entry.retained_nonempty root nonempty
      by_cases running : s.changed = true
      · have running' : (s.scale c).changed = true := running
        rw [passes, passes, if_pos running, if_pos running', pass_scale root positive kept range range']
        cases body : pass sqrt data s with
        | tooMuchNoise s' => simp [Step.scale, Pass.scale]
        | precise s' => simp [Step.scale, Pass.scale]
        | next s' => simpa [Step.scale, Pass.scale] using ih (.inr ⟨_, entry.next root nonempty body⟩)
      · have stopped : ¬ (s.scale c).changed = true := running
        rw [passes, passes, if_neg running, if_neg stopped]
        rfl

theorem loop_scale (remaining : Nat) (entry : Entry sqrt data s) :
    loop sqrt (data.map (c * ·)) remaining (s.scale c) = (loop sqrt data remaining s).scale c := by
  rw [loop_eq_last, loop_eq_last, passes_scale root positive nonempty range range' remaining entry,
    List.getLast?_map]
  cases (passes sqrt data remaining s).getLast? with
  | none => rfl
  | some p => rcases p with ⟨entry, exit⟩; cases exit <;> rfl

theorem aggregate_scale :
    aggregate sqrt (data.map (c * ·)) = (aggregate sqrt data).map (Stats.scale c) := by
  have entry : Entry sqrt data (start data.length) := .inl rfl
  have looped := loop_scale root positive nonempty range range' maxIter entry
  rw [start_scale] at looped
  obtain ⟨last, -, -, described⟩ := loop_describes root nonempty
  have deviation := root.scale positive (variance_nonneg (last.entry.retained data))
  rw [← described.dev] at deviation
  have size : data.length ≠ 0 := by simpa using nonempty
  rw [aggregate, aggregate, List.length_map, looped, Locals.outputs, Locals.outputs, if_pos size, if_pos size]
  simp only [Locals.scale, deviation, Option.map_some, Stats.scale, mul_ite, mul_zero]

end Oreo.Utils.Aggregate
