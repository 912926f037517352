import Oreo.Sampling.SigmaClip
import Oreo.Utils.Aggregate.Survivors

namespace Oreo.Utils.Aggregate

open Oreo.Sampling

/-! # What sigma clipping keeps

The statistics that `aggregate` writes are those of the samples which are left after clipping
round by round, where a round knows nothing but its sample.
-/

variable {K : Type*} [Field K] [LinearOrder K] (sqrt : K → K)

def Precise (xs : List K) : Prop :=
  mean xs < 1 / (1000 : ℕ) ∨ sqrt (variance xs) / mean xs < 1 / (1000 : ℕ)

instance : DecidablePred (Precise sqrt) := fun _ => inferInstanceAs (Decidable (_ ∨ _))

/-- The samples that sigma clipping keeps: the first pass of `aggregate` takes them all,
and each of the others is a round. -/
def kept (data : List K) : List K := sigmaClip sqrt tolerance (Precise sqrt) (maxIter - 1) data

variable {sqrt} {data xs : List K} {s t : Locals K}

theorem Describes.isPrecise_iff_precise (described : Describes sqrt s xs) : s.isPrecise ↔ Precise sqrt xs := by
  rw [Locals.isPrecise, described.center, described.width, Precise, Nat.cast_ofNat]

theorem Describes.retained_eq_clip (described : Describes sqrt t xs) (filtering : t.iter ≠ 0) :
    t.retained xs = clip sqrt tolerance xs := by
  unfold Locals.retained clip
  apply List.filter_congr
  intro x _
  rw [Bool.eq_iff_iff, Locals.accepts_of_filtering filtering, described.center, described.width]
  exact decide_eq_true_iff.symm

variable [IsStrictOrderedRing K]

theorem Describes.clipped (described : Describes sqrt t xs) (filtering : t.iter ≠ 0) (nonempty : xs ≠ [])
    (coarse : ¬ Precise sqrt xs) : Clipped sqrt xs t xs :=
  ⟨filtering, nonempty, List.Subset.refl xs, described.center, described.width,
    spread_of_not_precise (mt described.isPrecise_iff_precise.mp coarse), rfl⟩

theorem survivorsLoop_describes (root : IsSquareRoot sqrt) (remaining : Nat) (described : Describes sqrt t xs)
    (filtering : t.iter ≠ 0) (nonempty : xs ≠ []) (coarse : ¬ Precise sqrt xs)
    (stops : t.changed = false → clip sqrt tolerance xs = xs) :
    Describes sqrt (survivorsLoop sqrt remaining xs t) (sigmaClip sqrt tolerance (Precise sqrt) remaining xs) ∧
      sigmaClip sqrt tolerance (Precise sqrt) remaining xs ≠ [] := by
  induction remaining generalizing xs t with
  | zero => exact ⟨described, nonempty⟩
  | succ remaining ih =>
      have retained := described.retained_eq_clip filtering
      have left := (described.clipped filtering nonempty coarse).retained_nonempty root
      have reported := report_describes sqrt t xs
      have body := pass_eq sqrt left
      rw [retained] at left reported
      rw [survivorsLoop, sigmaClip, if_neg coarse]
      cases running : t.changed with
      | false =>
          have fixed := stops running
          rw [fixed, sigmaClip_of_fixed remaining fixed]
          exact ⟨described, nonempty⟩
      | true =>
          simp only [if_true]
          split at body
          · have done := reported.isPrecise_iff_precise.mp ‹_›
            rw [body, sigmaClip_of_settled remaining done]
            exact ⟨reported, left⟩
          · have rest := mt reported.isPrecise_iff_precise.mpr ‹_›
            rw [body]
            dsimp only
            rw [retained]
            apply ih (reported.withIter _) (Nat.succ_ne_zero _) left rest
            intro unchanged
            -- the round rejected nothing, so the next one filters the same samples alike
            simp only [Locals.report, Bool.or_eq_false_iff, Bool.not_eq_false', List.isEmpty_iff] at unchanged
            have whole : t.retained xs = xs := by
              apply List.filter_eq_self.mpr
              intro x member
              simpa using List.filter_eq_nil_iff.mp unchanged.2 x member
            rw [retained] at whole
            rw [whole, whole]

theorem aggregate_describes (root : IsSquareRoot sqrt) (nonempty : data ≠ []) :
    ∃ s, aggregate sqrt data = s.outputs sqrt data.length ∧ Describes sqrt s (kept sqrt data) ∧ kept sqrt data ≠ [] := by
  have all : (start data.length : Locals K).retained data = data := Locals.retained_first rfl
  have body := pass_eq sqrt (s := start data.length) (by rwa [all])
  have reported := report_describes sqrt (start data.length) data
  rw [all] at reported
  refine ⟨_, aggregate_eq_survivors root nonempty, ?_⟩
  simp only [kept, maxIter, survivorsLoop, show (start data.length : Locals K).changed = true from rfl, if_true]
  split at body
  · have done := reported.isPrecise_iff_precise.mp ‹_›
    rw [body, sigmaClip_of_settled _ done]
    exact ⟨reported, nonempty⟩
  · have rest := mt reported.isPrecise_iff_precise.mpr ‹_›
    rw [body]
    dsimp only
    rw [all]
    apply survivorsLoop_describes root 4 (reported.withIter _) (Nat.succ_ne_zero _) nonempty rest
    intro unchanged
    simp [Locals.report, start] at unchanged

end Oreo.Utils.Aggregate
