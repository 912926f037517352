import Oreo.Utils.Aggregate.Exact
import Oreo.Utils.Timer

namespace Oreo.Utils.Aggregate

open Oreo.Sampling

/-! # Where the seeds of the extremes are left over -/

/-- The samples that pairs of timer readings give. -/
def ticks (stamps : List (UInt64 × UInt64)) : List ℝ := stamps.map fun stamp => (getDuration stamp.1 stamp.2 : ℝ)

/-- `aggregate` writes samples of the array through `max` and `min`. -/
def ExtremesAreSamples (data : List ℝ) : Prop :=
  ∃ stats, aggregate Real.sqrt data = some stats ∧ stats.max ∈ data ∧ stats.min ∈ data

theorem ticks_nonneg (stamps : List (UInt64 × UInt64)) : ∀ x ∈ ticks stamps, 0 ≤ x := by
  intro x member
  obtain ⟨stamp, -, rfl⟩ := List.mem_map.mp member
  exact Nat.cast_nonneg _

variable {data : List ℝ}

theorem aggregate_extremes (nonempty : data ≠ []) (nonneg : ∀ x ∈ data, 0 ≤ x) :
    ∃ stats, aggregate Real.sqrt data = some stats ∧ stats.max ∈ data ∧
      stats.min = smallest llongMax (kept Real.sqrt data) := by
  obtain ⟨s, outputs, described, left⟩ := aggregate_describes real_sqrt nonempty
  have subset : kept Real.sqrt data ⊆ data := (sigmaClip_sublist _ _ _ _ _).subset
  refine ⟨_, outputs.trans (if_pos (by simpa using nonempty)), ?_, described.min⟩
  rw [described.max]
  apply subset
  apply largest_mem left
  intro x member
  have above := nonneg x (subset member)
  simp only [llongMin]
  linarith only [above]

theorem smallest_mem_iff (seed : ℝ) (xs : List ℝ) (subset : xs ⊆ data) :
    smallest seed xs ∈ data ↔ (∃ x ∈ xs, x ≤ seed) ∨ seed ∈ data := by
  obtain ⟨belowSeed, below⟩ := smallest_le seed xs
  constructor
  · intro member
    by_cases displaced : ∃ x ∈ xs, x ≤ seed
    · exact .inl displaced
    · rcases smallest_eq_seed_or_mem seed xs with same | found
      · exact .inr (same ▸ member)
      · exact absurd ⟨smallest seed xs, found, belowSeed⟩ displaced
  · intro either
    rcases smallest_eq_seed_or_mem seed xs with same | found
    · rcases either with displaced | inData
      · obtain ⟨x, member, low⟩ := displaced
        have reached : smallest seed xs = x := le_antisymm (below x member) (low.trans (le_of_eq same.symm))
        rw [reached]
        exact subset member
      · rw [same]
        exact inData
    · exact subset found

/-- The largest sample is always found. The smallest one is not if all the samples that
clipping keeps lie above `LLONG_MAX`: then `min` is this seed, whether it is a sample or not. -/
theorem aggregate_extremes_are_samples_iff (stamps : List (UInt64 × UInt64)) (nonempty : stamps ≠ []) :
    ExtremesAreSamples (ticks stamps) ↔
      (∃ x ∈ kept Real.sqrt (ticks stamps), x ≤ llongMax) ∨ llongMax ∈ ticks stamps := by
  have subset : kept Real.sqrt (ticks stamps) ⊆ ticks stamps := (sigmaClip_sublist _ _ _ _ _).subset
  obtain ⟨stats, result, largest, min⟩ :=
    aggregate_extremes (by simpa [ticks] using nonempty) (ticks_nonneg stamps)
  rw [← smallest_mem_iff llongMax _ subset, ← min]
  constructor
  · intro samples
    obtain ⟨stats', result', -, member⟩ := samples
    obtain rfl := Option.some.inj (result.symm.trans result')
    exact member
  · exact fun member => ⟨stats, result, largest, member⟩

theorem aggregate_extremes_are_samples_iff_pair :
    ExtremesAreSamples (ticks [(1, 0), (5, 9)]) ↔
      (∃ x ∈ kept Real.sqrt (ticks [(1, 0), (5, 9)]), x ≤ llongMax) ∨ llongMax ∈ ticks [(1, 0), (5, 9)] :=
  aggregate_extremes_are_samples_iff [(1, 0), (5, 9)] (by simp)

/-- A clock that is one tick behind: the only sample is `2 ^ 64 - 1`. -/
theorem aggregate_leaves_seed : ticks [(1, 0)] = [2 ^ 64 - 1] ∧ ¬ ExtremesAreSamples (ticks [(1, 0)]) := by
  have single : ticks [(1, 0)] = [2 ^ 64 - 1] := by
    have wrapped : getDuration 1 0 = 2 ^ 64 - 1 := by decide
    simp only [ticks, List.map_cons, List.map_nil, wrapped]
    norm_num
  refine ⟨single, ?_⟩
  intro samples
  obtain ⟨stats, result, -, member⟩ := samples
  rw [single] at result member
  obtain ⟨stats', result', -, min⟩ := aggregate_extremes (by simp : [(2 : ℝ) ^ 64 - 1] ≠ []) (by norm_num)
  obtain rfl := Option.some.inj (result'.symm.trans result)
  have settled : Precise Real.sqrt [(2 : ℝ) ^ 64 - 1] := .inr (by norm_num [variance, squaresAbout, mean])
  rw [kept, sigmaClip_of_settled _ settled] at min
  rw [min] at member
  norm_num [smallest, llongMax] at member

end Oreo.Utils.Aggregate
