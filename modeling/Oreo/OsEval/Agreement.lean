import Oreo.OsEval.Durations
import Oreo.Utils.Timer
import Mathlib.Algebra.BigOperators.Group.List.Basic
import Mathlib.Algebra.Ring.Rat
import Mathlib.Tactic.Ring

namespace Oreo.OsEval

open Oreo.Posix Oreo.Posix.Timespec Oreo.Utils

/-! # The duration routines agree -/

/-- `add_diff_to_sum(result, end, start)` for each pair of a start and an end. -/
def addDiffs (result : Timespec Int) (pairs : List (Timespec Int × Timespec Int)) : Timespec Int :=
  pairs.foldl (fun result pair => addDiffToSum result pair.2 pair.1) result

variable {result a b smaller bigger : Timespec Int}

theorem addDiffToSum_normalised (before : result.Normalised) (late : a.Normalised) (early : b.Normalised) :
    (addDiffToSum result a b).Normalised := by
  obtain ⟨nonneg, below⟩ := before
  obtain ⟨lateNonneg, lateBelow⟩ := late
  obtain ⟨earlyNonneg, earlyBelow⟩ := early
  unfold addDiffToSum
  split
  · constructor <;> dsimp only <;> omega
  · split
    · constructor <;> dsimp only <;> omega
    · constructor <;> dsimp only <;> omega

theorem addDiffToSum_nanos (result a b : Timespec Int) :
    (addDiffToSum result a b).nanos = result.nanos + (a.nanos - b.nanos) := by
  unfold addDiffToSum nanos
  split
  · dsimp only
    omega
  · split
    · dsimp only
      omega
    · dsimp only
      omega

theorem calcDiff_normalised (early : smaller.Normalised) (late : bigger.Normalised) :
    (calcDiff smaller bigger).Normalised := by
  obtain ⟨earlyNonneg, earlyBelow⟩ := early
  obtain ⟨lateNonneg, lateBelow⟩ := late
  unfold calcDiff
  split
  · constructor <;> dsimp only <;> omega
  · constructor <;> dsimp only <;> omega

theorem calcDiff_nanos (smaller bigger : Timespec Int) :
    (calcDiff smaller bigger).nanos = bigger.nanos - smaller.nanos := by
  unfold calcDiff nanos
  split
  · dsimp only
    omega
  · dsimp only
    omega

theorem getTimespecDiffNsec_eq (tstart tend : Timespec Int) :
    getTimespecDiffNsec (some tstart) (some tend) = ((tend.nanos - tstart.nanos : Int) : ℚ) := by
  simp only [getTimespecDiffNsec, nanos]
  push_cast
  ring

theorem addDiffs_normalised {pairs : List (Timespec Int × Timespec Int)} (before : result.Normalised)
    (normalised : ∀ pair ∈ pairs, pair.1.Normalised ∧ pair.2.Normalised) : (addDiffs result pairs).Normalised := by
  induction pairs generalizing result with
  | nil => exact before
  | cons pair pairs ih =>
      obtain ⟨early, late⟩ := normalised pair List.mem_cons_self
      exact ih (addDiffToSum_normalised before late early) fun other member =>
        normalised other (List.mem_cons_of_mem _ member)

theorem addDiffs_nanos (result : Timespec Int) (pairs : List (Timespec Int × Timespec Int)) :
    ((addDiffs result pairs).nanos : ℚ) =
      result.nanos + (pairs.map fun pair => getTimespecDiffNsec (some pair.1) (some pair.2)).sum := by
  induction pairs generalizing result with
  | nil => simp [addDiffs]
  | cons pair pairs ih =>
      have rest := ih (addDiffToSum result pair.2 pair.1)
      rw [addDiffToSum_nanos] at rest
      rw [List.map_cons, List.sum_cons, getTimespecDiffNsec_eq, ← add_assoc, ← Int.cast_add]
      exact rest

/-- Accumulated by `add_diff_to_sum`, measured by `calc_diff` or computed by
`get_timespec_diff_nsec`, the durations are the same. -/
theorem durations_agree :
    (∀ (result : Timespec Int) (pairs : List (Timespec Int × Timespec Int)), result.Normalised →
      (∀ pair ∈ pairs, pair.1.Normalised ∧ pair.2.Normalised) →
        (∀ steps, (addDiffs result (pairs.take steps)).Normalised) ∧
          ((addDiffs result pairs).nanos : ℚ) =
            result.nanos + (pairs.map fun pair => getTimespecDiffNsec (some pair.1) (some pair.2)).sum) ∧
      ∀ tstart tend : Timespec Int, tstart.Normalised → tend.Normalised →
        (calcDiff tstart tend).Normalised ∧
          ((calcDiff tstart tend).nanos : ℚ) = getTimespecDiffNsec (some tstart) (some tend) := by
  constructor
  · intro result pairs before normalised
    refine ⟨fun steps => addDiffs_normalised before fun pair member => ?_, addDiffs_nanos result pairs⟩
    exact normalised pair (List.mem_of_mem_take member)
  · intro tstart tend early late
    refine ⟨calcDiff_normalised early late, ?_⟩
    rw [getTimespecDiffNsec_eq, calcDiff_nanos]

/-- A carry into the seconds, and an end whose nanoseconds are below those of the start. -/
theorem durations_agree_carries :
    ((∀ steps, (addDiffs ⟨0, 999999999⟩ ([(⟨1, 1⟩, ⟨1, 2⟩), (⟨1, 9⟩, ⟨2, 3⟩)].take steps)).Normalised) ∧
      ((addDiffs ⟨0, 999999999⟩ [(⟨1, 1⟩, ⟨1, 2⟩), (⟨1, 9⟩, ⟨2, 3⟩)]).nanos : ℚ) =
        nanos ⟨0, 999999999⟩ + ([(⟨1, 1⟩, ⟨1, 2⟩), (⟨1, 9⟩, ⟨2, 3⟩)].map fun pair : Timespec Int × Timespec Int =>
          getTimespecDiffNsec (some pair.1) (some pair.2)).sum) ∧
      (calcDiff ⟨1, 9⟩ ⟨2, 3⟩).Normalised ∧
        ((calcDiff ⟨1, 9⟩ ⟨2, 3⟩).nanos : ℚ) = getTimespecDiffNsec (some ⟨1, 9⟩) (some ⟨2, 3⟩) :=
  ⟨durations_agree.1 _ _ (by decide) (by decide), durations_agree.2 _ _ (by decide) (by decide)⟩

end Oreo.OsEval
