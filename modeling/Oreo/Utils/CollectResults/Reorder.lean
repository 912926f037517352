import Oreo.Utils.Aggregate.Reorder
import Oreo.Utils.ClosestK.Bounds

namespace Oreo.Utils

section General

variable {K : Type*} [Field K] [LinearOrder K] {data data' : List K} (reordered : data.Perm data')
include reordered

omit [Field K] in
theorem qsort_eq_of_perm : qsort doubleCmp data = qsort doubleCmp data' := by
  have sorted := ((qsort_perm data).trans reordered).trans (qsort_perm data').symm
  exact sorted.eq_of_pairwise' (qsort_sorted data) (qsort_sorted data')

theorem closestK_perm (k : Nat) : closestK data k = closestK data' k := by
  by_cases single : data.length = 1
  · obtain ⟨x, rfl⟩ := List.length_eq_one_iff.mp single
    rw [List.singleton_perm.mp reordered]
  · simp only [closestK, ← reordered.length_eq, if_neg single, qsort_eq_of_perm reordered]

theorem collectResults_perm (sqrt : K → K) (config : BenchConfig) :
    collectResults sqrt data config = collectResults sqrt data' config := by
  rw [collectResults, collectResults, Aggregate.aggregate_perm reordered, closestK_perm reordered]

end General

/-- `collect_results` does not depend on the order in which the samples were taken.
When `closest_k` reads outside of its array, an error with the index, it does so at
the same index, and `aggregate` has stored the same statistics by then. -/
theorem collectResults_order_free (data data' : List ℝ) (reordered : data.Perm data') (config : BenchConfig) :
    Aggregate.aggregate Real.sqrt data = Aggregate.aggregate Real.sqrt data' ∧
      collectResults Real.sqrt data config = collectResults Real.sqrt data' config :=
  ⟨Aggregate.aggregate_perm reordered Real.sqrt, collectResults_perm reordered Real.sqrt config⟩

theorem collectResults_order_free_pair :
    Aggregate.aggregate Real.sqrt [1, 2] = Aggregate.aggregate Real.sqrt [2, 1] ∧
      collectResults Real.sqrt [1, 2] ⟨5, .test⟩ = collectResults Real.sqrt [2, 1] ⟨5, .test⟩ :=
  collectResults_order_free [1, 2] [2, 1] (List.Perm.swap 2 1 []) ⟨5, .test⟩

end Oreo.Utils
