import Oreo.Utils.Aggregate.Passes
import Oreo.Sampling.Clipping

namespace Oreo.Utils.Aggregate

open Oreo.Sampling

variable {K : Type*} [Field K] [LinearOrder K] [IsStrictOrderedRing K]

structure IsSquareRoot (sqrt : K → K) : Prop where
  nonneg : ∀ x, 0 ≤ sqrt x
  square : ∀ x, 0 ≤ x → sqrt x ^ 2 = x

/-- The state before a filtering pass: `_avg` and `_stddev` describe the samples
the previous pass retained, and the filter they set up cannot let a sample back
in that is not among those. -/
structure Clipped (sqrt : K → K) (data : List K) (s : Locals K) (previous : List K) : Prop where
  filtering : s.iter ≠ 0
  nonempty : previous ≠ []
  subset : previous ⊆ data
  center : s._avg = mean previous
  width : s._stddev = sqrt (variance previous)
  spread : 0 < s._stddev
  selects : previous.filter s.accepts = s.retained data

variable {sqrt : K → K} {data previous : List K} {s s' : Locals K}

omit [IsStrictOrderedRing K] in
theorem Clipped.far (clipped : Clipped sqrt data s previous) :
    DiscardsOnlyFar s.accepts tolerance s._stddev previous := by
  intro x _ rejected
  rw [← clipped.center]
  by_contra near
  have accepted := (Locals.accepts_of_filtering clipped.filtering x).mpr (lt_of_not_ge near)
  simp [accepted] at rejected

theorem Clipped.deviation (root : IsSquareRoot sqrt) (clipped : Clipped sqrt data s previous) :
    s._stddev ^ 2 = variance previous := by
  rw [clipped.width]
  exact root.square _ (variance_nonneg _)

theorem Clipped.rejected_le (root : IsSquareRoot sqrt) (clipped : Clipped sqrt data s previous) :
    (s.rejected previous).length ≤ previous.length / 9 := by
  have counted := clipped.far.count_le (by norm_num [tolerance]) clipped.spread (clipped.deviation root)
  have whole : 9 * (s.rejected previous).length ≤ previous.length := by
    have cast : (9 * (s.rejected previous).length : K) ≤ previous.length := by
      norm_num [tolerance] at counted
      exact counted
    exact_mod_cast cast
  omega

theorem Clipped.none_rejected (root : IsSquareRoot sqrt) (clipped : Clipped sqrt data s previous)
    (small : previous.length < 10) : s.rejected previous = [] := by
  apply clipped.far.none_of_small (by norm_num [tolerance]) clipped.spread (clipped.deviation root)
  have bounded : previous.length ≤ 9 := by omega
  calc (previous.length : K) ≤ (9 : Nat) := Nat.cast_le.mpr bounded
    _ = tolerance ^ 2 := by norm_num [tolerance]

theorem Clipped.length_le (root : IsSquareRoot sqrt) (clipped : Clipped sqrt data s previous) :
    8 * previous.length ≤ 9 * (s.retained data).length := by
  have few := clipped.rejected_le root
  have split := retained_length_add s previous
  have same : s.retained previous = s.retained data := clipped.selects
  rw [same] at split
  omega

theorem Clipped.retained_nonempty (root : IsSquareRoot sqrt) (clipped : Clipped sqrt data s previous) :
    s.retained data ≠ [] := by
  have count := clipped.length_le root
  have positive := List.length_pos_iff.mpr clipped.nonempty
  apply List.length_pos_iff.mp
  omega

/-- The invariant of the loop condition. -/
def Entry (sqrt : K → K) (data : List K) (s : Locals K) : Prop :=
  s.iter = 0 ∨ ∃ previous, Clipped sqrt data s previous

theorem Entry.retained_nonempty (root : IsSquareRoot sqrt) (nonempty : data ≠ [])
    (entry : Entry sqrt data s) : s.retained data ≠ [] := by
  rcases entry with first | ⟨previous, clipped⟩
  · rwa [Locals.retained_first first]
  · exact clipped.retained_nonempty root

theorem spread_of_not_precise (notPrecise : ¬ s.isPrecise) : 0 < s._stddev := by
  unfold Locals.isPrecise at notPrecise
  push Not at notPrecise
  obtain ⟨average, relative⟩ := notPrecise
  have positive : 0 < s._avg := lt_of_lt_of_le (by norm_num) average
  have scaled : 1 / 1000 * s._avg ≤ s._stddev := (le_div_iff₀ positive).mp relative
  exact lt_of_lt_of_le (by positivity) scaled

/-- The half-width `tolerance * _stddev` shrinks by at least the shift of the mean. -/
theorem Clipped.shift_add_le (root : IsSquareRoot sqrt) (clipped : Clipped sqrt data s previous) :
    |mean (s.retained data) - s._avg| + tolerance * sqrt (variance (s.retained data)) ≤
      tolerance * s._stddev := by
  rw [clipped.center, ← clipped.selects]
  apply clipped.far.contracts (by norm_num [tolerance]) (by norm_num [tolerance]) clipped.spread.le
    (clipped.deviation root)
  · rw [clipped.selects]
    exact clipped.retained_nonempty root
  · exact root.square _ (variance_nonneg _)

theorem accepts_of_next (root : IsSquareRoot sqrt) (entry : Entry sqrt data s)
    (continued : pass sqrt data s = .next s') {x : K} (accepted : s'.accepts x = true) :
    s.accepts x = true := by
  rcases entry with first | ⟨previous, clipped⟩
  · exact Locals.accepts_first first x
  · obtain ⟨rfl, -⟩ := pass_next (clipped.retained_nonempty root) continued
    have near := (Locals.accepts_of_filtering (Nat.succ_ne_zero _) x).mp accepted
    have contracted := clipped.shift_add_le root
    apply (Locals.accepts_of_filtering clipped.filtering x).mpr
    calc |x - s._avg| ≤ |x - mean (s.retained data)| + |mean (s.retained data) - s._avg| :=
          abs_sub_le _ _ _
      _ < tolerance * sqrt (variance (s.retained data)) + |mean (s.retained data) - s._avg| :=
          add_lt_add_left near _
      _ ≤ tolerance * s._stddev := by linarith only [contracted]

/-- One pass preserves the invariant; the samples it retained become `previous`. -/
theorem Entry.next (root : IsSquareRoot sqrt) (nonempty : data ≠ []) (entry : Entry sqrt data s)
    (continued : pass sqrt data s = .next s') : Clipped sqrt data s' (s.retained data) := by
  have kept := entry.retained_nonempty root nonempty
  have narrower := fun x => accepts_of_next (x := x) root entry continued
  obtain ⟨shape, notPrecise⟩ := pass_next kept continued
  refine ⟨by simp [shape], kept, List.filter_subset_self _, by simp [shape, Locals.report],
    by simp [shape, Locals.report], ?_, ?_⟩
  · rw [shape]
    exact spread_of_not_precise notPrecise
  · unfold Locals.retained
    rw [List.filter_filter]
    apply List.filter_congr
    intro x _
    cases accepted : s'.accepts x with
    | true => simp [narrower x accepted]
    | false => rfl

end Oreo.Utils.Aggregate
