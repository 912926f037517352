import Oreo.Utils.Aggregate.Rescale
import Oreo.Utils.CollectResults.Reorder

namespace Oreo.Utils

open Aggregate

section General

variable {K : Type*} [Field K]

def Closest.scale (c : K) (closest : Closest K) : Closest K :=
  { closest with value := closest.value.map (c * ·) }

def inUnit (c : K) (res : BenchResult K) : BenchResult K :=
  { res with
    mean := res.mean.map (c * ·), stddev := res.stddev.map (c * ·), max := res.max.map (c * ·),
    min := res.min.map (c * ·), kClosest := res.kClosest.map (c * ·) }

variable [LinearOrder K] [IsStrictOrderedRing K] {c : K} (positive : 0 < c)

theorem readAt_map {A B : Type*} (f : A → B) (data : List A) (index : Nat) :
    readAt (data.map f) index = (readAt data index).map f := by
  unfold readAt
  rw [List.getElem?_map]
  cases data[index]? <;> rfl

include positive

theorem isClose_scale (previous current : K) :
    isClose (c * previous) (c * current) = isClose previous current := by
  simp only [isClose, ← mul_sub, abs_mul, abs_of_pos positive, mul_div_mul_left _ _ positive.ne',
    mul_eq_zero, positive.ne', false_or]

theorem qsort_scale (data : List K) :
    qsort doubleCmp (data.map (c * ·)) = (qsort doubleCmp data).map (c * ·) := by
  have sorted : ((qsort doubleCmp data).map (c * ·)).Pairwise (· ≤ ·) := by
    apply List.pairwise_map.mpr
    exact (qsort_sorted data).imp fun ordered => mul_le_mul_of_nonneg_left ordered positive.le
  have reordered := (qsort_perm data).map (c * ·)
  rw [← qsort_eq_of_perm reordered, qsort_of_sorted sorted]

theorem closestScan_scale (data : List K) (k remaining idx contCnt : Nat) :
    closestScan (data.map (c * ·)) k remaining idx contCnt =
      (closestScan data k remaining idx contCnt).map (Closest.scale c) := by
  induction remaining generalizing idx contCnt with
  | zero =>
      rw [closestScan, closestScan, readAt_map]
      cases readAt data (idx - contCnt) <;> rfl
  | succ remaining ih =>
      rw [closestScan, closestScan, readAt_map, readAt_map]
      cases readAt data idx with
      | error outside => rfl
      | ok current =>
          cases readAt data (idx - 1) with
          | error outside => rfl
          | ok previous =>
              simp only [bind, Except.bind, Except.map, isClose_scale positive, ih, readAt_map]
              split
              · split
                · cases readAt data (idx - (contCnt + 1)) <;> rfl
                · rfl
              · rfl

theorem closestK_scale (data : List K) (k : Nat) :
    closestK (data.map (c * ·)) k = (closestK data k).map (Closest.scale c) := by
  rw [closestK, closestK, List.length_map]
  split
  · rfl
  · split
    · rw [readAt_map]
      cases readAt data 0 <;> rfl
    · rw [qsort_scale positive, closestScan_scale positive]

theorem collectResults_scale {sqrt : K → K} (root : IsSquareRoot sqrt) {data : List K} (nonempty : data ≠ [])
    (range : InRange data) (range' : InRange (data.map (c * ·))) (config : BenchConfig) :
    collectResults sqrt (data.map (c * ·)) config = (collectResults sqrt data config).map (inUnit c) := by
  rw [collectResults, collectResults, closestK_scale positive,
    aggregate_scale root positive nonempty range range']
  cases closestK data closestCount with
  | error outside => rfl
  | ok closest => cases aggregate sqrt data <;> rfl

end General

/-- What a change of the time unit does to a run of `collect_results`. -/
structure CommutesWithUnit (c : ℝ) (data : List ℝ) (config : BenchConfig) : Prop where
  stats : aggregate Real.sqrt (data.map (c * ·)) = (aggregate Real.sqrt data).map (Stats.scale c)
  /-- With `k_closest`, or the same index where its read lies outside the array. -/
  results : collectResults Real.sqrt (data.map (c * ·)) config =
    (collectResults Real.sqrt data config).map (inUnit c)
  /-- Pass by pass, a sample is accepted in both units or in neither. -/
  accepts : List.Forall₂ (fun p q => ∀ x, q.entry.accepts (c * x) = p.entry.accepts x)
    (runs data) (runs (data.map (c * ·)))
  /-- Both runs make the same passes, and end in the same way. -/
  passes : runs (data.map (c * ·)) = (runs data).map (Pass.scale c)

theorem collectResults_commutes_with_unit (c : ℝ) (data : List ℝ) (config : BenchConfig) (nonempty : data ≠ [])
    (positive : 0 < c) (range : ∀ x ∈ data, 1 / 1000 ≤ x ∧ x ≤ 2 ^ 63)
    (range' : ∀ x ∈ data, 1 / 1000 ≤ c * x ∧ c * x ≤ 2 ^ 63) : CommutesWithUnit c data config := by
  have scaled : InRange (data.map (c * ·)) := by simpa [InRange] using range'
  have passes : runs (data.map (c * ·)) = (runs data).map (Pass.scale c) := by
    have entry : Entry Real.sqrt data (start data.length) := .inl rfl
    have rescaled := passes_scale real_sqrt positive nonempty range scaled maxIter entry
    rw [start_scale] at rescaled
    rw [runs, List.length_map, rescaled]
    rfl
  refine ⟨aggregate_scale real_sqrt positive nonempty range scaled,
    collectResults_scale positive real_sqrt nonempty range scaled config, ?_, passes⟩
  rw [passes, List.forall₂_map_right_iff, List.forall₂_same]
  exact fun p _ x => accepts_scale positive p.entry x

theorem collectResults_commutes_with_unit_double : CommutesWithUnit 2 [1, 3] ⟨2, .test⟩ :=
  collectResults_commutes_with_unit 2 [1, 3] ⟨2, .test⟩ (by simp) (by norm_num) (by norm_num) (by norm_num)

end Oreo.Utils
