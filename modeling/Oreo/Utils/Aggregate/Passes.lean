import Oreo.Utils.Aggregate.Model
import Oreo.Sampling.Moments
import Oreo.Sampling.Extremes

namespace Oreo.Utils.Aggregate

open Oreo.Sampling

variable {K : Type*} [Field K] [LinearOrder K]

def Locals.retained (s : Locals K) (data : List K) : List K := data.filter s.accepts

def Locals.rejected (s : Locals K) (data : List K) : List K := data.filter fun x => !s.accepts x

@[simp] theorem Locals.reset_accepts (s : Locals K) (size : Nat) :
    (s.reset size).accepts = s.accepts := rfl

@[simp] theorem accumulate_accepts (s : Locals K) (x : K) : (accumulate s x).accepts = s.accepts := by
  unfold accumulate
  split <;> rfl

@[simp] theorem addDeviation_accepts (s : Locals K) (x : K) : (addDeviation s x).accepts = s.accepts := by
  unfold addDeviation
  split <;> rfl

theorem foldl_accumulate (data : List K) (s : Locals K) :
    data.foldl accumulate s =
      { s with
        avg := s.avg + (s.retained data).sum
        max := largest s.max (s.retained data)
        min := smallest s.min (s.retained data)
        changed := s.changed || !(s.rejected data).isEmpty
        removed := s.removed + (s.rejected data).length } := by
  induction data generalizing s with
  | nil => simp [Locals.retained, Locals.rejected, largest, smallest]
  | cons x data ih =>
      rw [List.foldl_cons, ih]
      unfold Locals.retained Locals.rejected
      rw [accumulate_accepts]
      cases accepted : s.accepts x with
      | true =>
          simp [accumulate, accepted, largest_cons, smallest_cons, add_assoc]
      | false =>
          simp [accumulate, accepted, Nat.add_assoc, Nat.add_comm 1]

theorem foldl_addDeviation (data : List K) (s : Locals K) :
    data.foldl addDeviation s =
      { s with
        dev := s.dev + ((s.retained data).map fun x => (x - s.avg) / s.validSize * (x - s.avg)).sum } := by
  induction data generalizing s with
  | nil => simp [Locals.retained]
  | cons x data ih =>
      rw [List.foldl_cons, ih]
      unfold Locals.retained
      rw [addDeviation_accepts]
      cases accepted : s.accepts x <;> simp [addDeviation, accepted, add_assoc]

variable (sqrt : K → K)

def Locals.report (s : Locals K) (data : List K) : Locals K where
  avg := mean (s.retained data)
  dev := variance (s.retained data)
  _avg := mean (s.retained data)
  _stddev := sqrt (variance (s.retained data))
  max := largest llongMin (s.retained data)
  min := smallest llongMax (s.retained data)
  changed := s.iter == 0 || !(s.rejected data).isEmpty
  iter := s.iter
  removed := (s.rejected data).length
  validSize := (s.retained data).length

theorem retained_length_add (s : Locals K) (data : List K) :
    (s.retained data).length + (s.rejected data).length = data.length :=
  (List.length_eq_length_filter_add (l := data) s.accepts).symm

/-- What a pass computes: the moments and the extremes of the samples it retains. -/
theorem pass_eq {data : List K} {s : Locals K} (nonempty : s.retained data ≠ []) :
    pass sqrt data s =
      if (s.report sqrt data).isPrecise then .precise (s.report sqrt data)
      else .next { s.report sqrt data with iter := s.iter + 1 } := by
  have size : data.length - (s.rejected data).length = (s.retained data).length := by
    have := retained_length_add s data
    omega
  have positive : (s.retained data).length ≠ 0 := by simpa using nonempty
  have retained (t : Locals K) (same : t.accepts = s.accepts) : t.retained data = s.retained data := by
    unfold Locals.retained
    rw [same]
  have rejected : (s.reset data.length).rejected data = s.rejected data := rfl
  simp only [pass, foldl_accumulate, foldl_addDeviation, retained (s.reset data.length) rfl, rejected]
  rw [retained _ rfl]
  simp only [Locals.reset, zero_add, size, positive, if_false, sum_scaled_squares]
  rfl

variable {sqrt : K → K} {data : List K} {s s' : Locals K}

theorem pass_next (nonempty : s.retained data ≠ []) (continued : pass sqrt data s = .next s') :
    s' = { s.report sqrt data with iter := s.iter + 1 } ∧ ¬ (s.report sqrt data).isPrecise := by
  rw [pass_eq sqrt nonempty] at continued
  split at continued
  · contradiction
  · exact ⟨(Step.next.inj continued).symm, ‹_›⟩

theorem pass_locals (sqrt : K → K) (nonempty : s.retained data ≠ []) :
    ∃ iter, (pass sqrt data s).locals = { s.report sqrt data with iter } := by
  rw [pass_eq sqrt nonempty]
  split
  · exact ⟨s.iter, rfl⟩
  · exact ⟨s.iter + 1, rfl⟩

theorem Locals.accepts_of_filtering (filtering : s.iter ≠ 0) (x : K) :
    s.accepts x = true ↔ |x - s._avg| < tolerance * s._stddev := by
  simp [Locals.accepts, filtering]

theorem Locals.accepts_first (first : s.iter = 0) (x : K) : s.accepts x = true := by
  simp [Locals.accepts, first]

theorem Locals.retained_first (first : s.iter = 0) : s.retained data = data := by
  simp [Locals.retained, Locals.accepts, first]

end Oreo.Utils.Aggregate
