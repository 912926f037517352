import Oreo.Utils.Aggregate.Invariant

namespace Oreo.Utils.Aggregate

open Oreo.Sampling

variable {K : Type*} [Field K] [LinearOrder K]

/-! # Clipping only the survivors

The abstract algorithm: a pass looks at the samples the pass before retained and
at nothing else, and the loop stops once a pass rejects none of them. The source
filters the whole array again in every pass.
-/

def survivorsLoop (sqrt : K → K) : Nat → List K → Locals K → Locals K
  | 0, _, s => s
  | remaining + 1, survivors, s =>
      if s.changed then
        match pass sqrt survivors s with
        | .tooMuchNoise s' | .precise s' => s'
        | .next s' => survivorsLoop sqrt remaining (s.retained survivors) s'
      else s

def aggregateSurvivors (sqrt : K → K) (data : List K) : Option (Stats K) :=
  (survivorsLoop sqrt maxIter data (start data.length)).outputs sqrt data.length

/-- The computed values are the statistics of `xs`. -/
structure Describes (sqrt : K → K) (s : Locals K) (xs : List K) : Prop where
  avg : s.avg = mean xs
  dev : s.dev = variance xs
  center : s._avg = mean xs
  width : s._stddev = sqrt (variance xs)
  max : s.max = largest llongMin xs
  min : s.min = smallest llongMax xs

variable {sqrt : K → K} {data xs : List K} {s s' t : Locals K}

theorem report_describes (sqrt : K → K) (s : Locals K) (data : List K) :
    Describes sqrt (s.report sqrt data) (s.retained data) := ⟨rfl, rfl, rfl, rfl, rfl, rfl⟩

theorem Describes.withIter (described : Describes sqrt s xs) (iter : Nat) :
    Describes sqrt { s with iter } xs :=
  ⟨described.avg, described.dev, described.center, described.width, described.max, described.min⟩

theorem Describes.outputs_eq (left : Describes sqrt s xs) (right : Describes sqrt t xs) (size : Nat) :
    s.outputs sqrt size = t.outputs sqrt size := by
  simp only [Locals.outputs, left.avg, left.dev, left.max, left.min,
    right.avg, right.dev, right.max, right.min]

theorem Describes.isPrecise_iff (left : Describes sqrt s xs) (right : Describes sqrt t xs) :
    s.isPrecise ↔ t.isPrecise := by
  simp only [Locals.isPrecise, left.center, left.width, right.center, right.width]

theorem Describes.accepts_eq (left : Describes sqrt s xs) (right : Describes sqrt t xs)
    (leftFilters : s.iter ≠ 0) (rightFilters : t.iter ≠ 0) : s.accepts = t.accepts := by
  funext x
  simp only [Locals.accepts, beq_false_of_ne leftFilters, beq_false_of_ne rightFilters,
    left.center, left.width, right.center, right.width]

variable [IsStrictOrderedRing K]

/-- Once the filter retains exactly what it was computed from, further passes
recompute the same values. -/
theorem loop_settled (root : IsSquareRoot sqrt) (nonempty : data ≠ []) (remaining : Nat)
    (clipped : Clipped sqrt data s xs) (described : Describes sqrt s xs) (fixed : s.retained data = xs) :
    Describes sqrt (loop sqrt data remaining s) xs := by
  induction remaining generalizing s with
  | zero => exact described
  | succ remaining ih =>
      have kept : s.retained data ≠ [] := clipped.retained_nonempty root
      have reported : Describes sqrt (s.report sqrt data) xs := fixed ▸ report_describes sqrt s data
      rw [loop]
      split
      · have body := pass_eq sqrt kept
        split at body
        · rw [body]
          exact reported
        · rw [body]
          have advanced := reported.withIter (s.iter + 1)
          have entry := Entry.next root nonempty (.inr ⟨xs, clipped⟩) body
          rw [fixed] at entry
          apply ih entry advanced
          unfold Locals.retained
          rw [advanced.accepts_eq described (Nat.succ_ne_zero _) clipped.filtering]
          exact fixed
      · exact described

/-- The simulation between a run over the whole array (`s`) and a run over the
survivors (`t`), at the loop condition after at least one pass. -/
structure Tracks (sqrt : K → K) (data : List K) (s t : Locals K) (survivors : List K) : Prop where
  clipped : Clipped sqrt data s survivors
  left : Describes sqrt s survivors
  right : Describes sqrt t survivors
  filtering : t.iter ≠ 0
  stops : s.changed = false → t.changed = false
  settled : t.changed = false → s.retained data = survivors

omit [IsStrictOrderedRing K] in
theorem Tracks.retained_eq (tracks : Tracks sqrt data s t xs) : t.retained xs = s.retained data := by
  unfold Locals.retained
  rw [← tracks.left.accepts_eq tracks.right tracks.clipped.filtering tracks.filtering]
  exact tracks.clipped.selects

theorem Tracks.next (root : IsSquareRoot sqrt) (nonempty : data ≠ []) (tracks : Tracks sqrt data s t xs)
    (body : pass sqrt data s = .next { s.report sqrt data with iter := s.iter + 1 }) :
    Tracks sqrt data { s.report sqrt data with iter := s.iter + 1 }
      { t.report sqrt xs with iter := t.iter + 1 } (s.retained data) := by
  have same := tracks.left.accepts_eq tracks.right tracks.clipped.filtering tracks.filtering
  have left := (report_describes sqrt s data).withIter (s.iter + 1)
  have right := (report_describes sqrt t xs).withIter (t.iter + 1)
  rw [tracks.retained_eq] at right
  refine ⟨Entry.next root nonempty (.inr ⟨xs, tracks.clipped⟩) body, left, right, Nat.succ_ne_zero _, ?_, ?_⟩
  · intro unchanged
    -- nothing of the array is rejected, so nothing of the survivors is
    simp only [Locals.report, Bool.or_eq_false_iff, Bool.not_eq_false', List.isEmpty_iff] at unchanged ⊢
    refine ⟨by simpa using tracks.filtering, ?_⟩
    apply List.filter_eq_nil_iff.mpr
    intro x member
    rw [← same]
    exact List.filter_eq_nil_iff.mp unchanged.2 x (tracks.clipped.subset member)
  · intro unchanged
    simp only [Locals.report, Bool.or_eq_false_iff, Bool.not_eq_false', List.isEmpty_iff] at unchanged
    have whole : t.retained xs = xs := by
      apply List.filter_eq_self.mpr
      intro x member
      simpa using List.filter_eq_nil_iff.mp unchanged.2 x member
    rw [tracks.retained_eq] at whole
    have before := tracks.left
    rw [← whole] at before
    unfold Locals.retained
    rw [left.accepts_eq before (Nat.succ_ne_zero _) tracks.clipped.filtering]

theorem Tracks.loop (root : IsSquareRoot sqrt) (nonempty : data ≠ []) (remaining : Nat)
    (tracks : Tracks sqrt data s t xs) :
    ∃ last, Describes sqrt (loop sqrt data remaining s) last ∧
      Describes sqrt (survivorsLoop sqrt remaining xs t) last := by
  induction remaining generalizing s t xs with
  | zero => exact ⟨xs, tracks.left, tracks.right⟩
  | succ remaining ih =>
      cases running : t.changed with
      | false =>
          refine ⟨xs, loop_settled root nonempty _ tracks.clipped tracks.left (tracks.settled running), ?_⟩
          simpa [survivorsLoop, running] using tracks.right
      | true =>
          have runningLeft : s.changed = true := by
            by_contra stopped
            simp [tracks.stops (Bool.eq_false_of_not_eq_true stopped)] at running
          have kept : s.retained data ≠ [] := tracks.clipped.retained_nonempty root
          have leftBody := pass_eq sqrt kept
          have rightBody := pass_eq sqrt (tracks.retained_eq.symm ▸ kept : t.retained xs ≠ [])
          have left := report_describes sqrt s data
          have right := report_describes sqrt t xs
          rw [tracks.retained_eq] at right
          simp only [Aggregate.loop, survivorsLoop, running, runningLeft, if_true]
          by_cases precise : (s.report sqrt data).isPrecise
          · rw [if_pos precise] at leftBody
            rw [if_pos ((left.isPrecise_iff right).mp precise)] at rightBody
            rw [leftBody, rightBody]
            exact ⟨_, left, right⟩
          · rw [if_neg precise] at leftBody
            rw [if_neg (mt (left.isPrecise_iff right).mpr precise)] at rightBody
            rw [leftBody, rightBody]
            dsimp only
            rw [tracks.retained_eq]
            exact ih (tracks.next root nonempty leftBody)

/-- Filtering the whole array in every pass gives the same statistics. -/
theorem aggregate_eq_survivors (root : IsSquareRoot sqrt) (nonempty : data ≠ []) :
    aggregate sqrt data = aggregateSurvivors sqrt data := by
  have first : (start data.length : Locals K).iter = 0 := rfl
  unfold aggregate aggregateSurvivors
  simp only [maxIter, loop, survivorsLoop, show (start data.length : Locals K).changed = true from rfl, if_true]
  cases body : pass sqrt data (start data.length) with
  | tooMuchNoise s' => rfl
  | precise s' => rfl
  | next s' =>
      have clipped : Clipped sqrt data s' data := by
        simpa only [Locals.retained_first first] using Entry.next root nonempty (.inl first) body
      obtain ⟨shape, -⟩ := pass_next (by rwa [Locals.retained_first first]) body
      have described : Describes sqrt s' data := by
        have reported := report_describes sqrt (start data.length) data
        rw [Locals.retained_first first] at reported
        rw [shape]
        exact reported.withIter _
      have changed : s'.changed = true := by simp [shape, Locals.report, first]
      have tracks : Tracks sqrt data s' s' data :=
        ⟨clipped, described, described, clipped.filtering, fun stopped => stopped,
          fun stopped => by simp [changed] at stopped⟩
      obtain ⟨last, left, right⟩ := tracks.loop root nonempty 4
      rw [Locals.retained_first first]
      exact left.outputs_eq right _

end Oreo.Utils.Aggregate
