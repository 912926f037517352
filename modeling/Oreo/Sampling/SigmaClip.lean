import Oreo.Sampling.Moments

namespace Oreo.Sampling

/-! # Repeated clipping around the mean

A round keeps what lies within `t` deviations of the mean, until the sample is settled.
-/

variable {K : Type*} [Field K] [LinearOrder K] (sqrt : K → K) (t : K) (settled : List K → Prop) [DecidablePred settled]

def clip (xs : List K) : List K := xs.filter fun x => decide (|x - mean xs| < t * sqrt (variance xs))

def sigmaClip : Nat → List K → List K
  | 0, xs => xs
  | rounds + 1, xs => if settled xs then xs else sigmaClip rounds (clip sqrt t xs)

theorem sigmaClip_sublist (rounds : Nat) (xs : List K) : (sigmaClip sqrt t settled rounds xs).Sublist xs := by
  induction rounds generalizing xs with
  | zero => exact .refl xs
  | succ rounds ih =>
      rw [sigmaClip]
      split
      · exact .refl xs
      · exact (ih _).trans List.filter_sublist

variable {sqrt t settled} {xs : List K}

theorem sigmaClip_of_settled (rounds : Nat) (done : settled xs) : sigmaClip sqrt t settled rounds xs = xs := by
  cases rounds with
  | zero => rfl
  | succ rounds => rw [sigmaClip, if_pos done]

theorem sigmaClip_of_fixed (rounds : Nat) (fixed : clip sqrt t xs = xs) : sigmaClip sqrt t settled rounds xs = xs := by
  induction rounds with
  | zero => rfl
  | succ rounds ih => rw [sigmaClip, fixed, ih, ite_self]

end Oreo.Sampling
