import Oreo.Utils.Aggregate.Passes

namespace Oreo.Utils.Aggregate

open Oreo.Sampling

/-! # The order of the samples

A pass reads its array through two scans. Both scans are sums, extremes and counts
over what the filter lets through, so a reordered array takes the loop through the
same states.
-/

variable {K : Type*} [Field K] [LinearOrder K] {data data' : List K} (reordered : data.Perm data')
include reordered

theorem retained_perm (s : Locals K) : (s.retained data).Perm (s.retained data') :=
  reordered.filter s.accepts

theorem rejected_perm (s : Locals K) : (s.rejected data).Perm (s.rejected data') :=
  reordered.filter fun x => !s.accepts x

theorem foldl_accumulate_perm (s : Locals K) :
    data.foldl accumulate s = data'.foldl accumulate s := by
  have kept := retained_perm reordered s
  have dropped := rejected_perm reordered s
  rw [foldl_accumulate, foldl_accumulate, kept.sum_eq, largest_perm kept, smallest_perm kept,
    dropped.length_eq, dropped.isEmpty_eq]

theorem foldl_addDeviation_perm (s : Locals K) :
    data.foldl addDeviation s = data'.foldl addDeviation s := by
  have deviations := (retained_perm reordered s).map fun x => (x - s.avg) / s.validSize * (x - s.avg)
  rw [foldl_addDeviation, foldl_addDeviation, deviations.sum_eq]

variable (sqrt : K → K)

theorem pass_perm (s : Locals K) : pass sqrt data s = pass sqrt data' s := by
  simp only [pass, reordered.length_eq, foldl_accumulate_perm reordered, foldl_addDeviation_perm reordered]

theorem loop_perm (remaining : Nat) (s : Locals K) :
    loop sqrt data remaining s = loop sqrt data' remaining s := by
  induction remaining generalizing s with
  | zero => rfl
  | succ remaining ih => simp only [loop, pass_perm reordered, ih]

theorem aggregate_perm : aggregate sqrt data = aggregate sqrt data' := by
  rw [aggregate, aggregate, reordered.length_eq, loop_perm reordered]

end Oreo.Utils.Aggregate
