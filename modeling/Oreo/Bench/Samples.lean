import Oreo.Posix.World
import Oreo.Transition.History
import Oreo.Utils.Timer

namespace Oreo.Bench

open Oreo.Posix Oreo.Transition Oreo.Utils

/-! # The samples of a test that times its rounds

Its first process reads the timer where a round starts and where it ends.
-/

variable {L : Type*} {starts stops : Nat → World L → Prop} {trace : List (World L × Label)} {w : World L}
variable {idx sample : Nat} {tstart tend : UInt64}

/-- The timer has been read where round `idx` starts. -/
def Started (starts : Nat → World L → Prop) (trace : List (World L × Label)) (idx : Nat) (tstart : UInt64) : Prop :=
  ∃ before s after, trace = before ++ (s, ⟨0, .time tstart⟩) :: after ∧ starts idx s

/-- The sample is the time between the readings where round `idx` starts and where it ends. -/
def TimedRound (starts stops : Nat → World L → Prop) (trace : List (World L × Label)) (idx sample : Nat) : Prop :=
  ∃ before s tstart between e tend after,
    trace = before ++ (s, ⟨0, .time tstart⟩) :: (between ++ (e, ⟨0, .time tend⟩) :: after) ∧
      starts idx s ∧ stops idx e ∧ sample = getDuration tstart tend

theorem Started.now (atStart : starts idx w) : Started starts (trace ++ [(w, ⟨0, .time tstart⟩)]) idx tstart :=
  ⟨trace, w, [], rfl, atStart⟩

theorem Started.snoc (started : Started starts trace idx tstart) (taken : World L × Label) :
    Started starts (trace ++ [taken]) idx tstart := by
  obtain ⟨before, s, after, rfl, atStart⟩ := started
  exact ⟨before, s, after ++ [taken], by simp, atStart⟩

theorem Started.stop (started : Started starts trace idx tstart) (atStop : stops idx w) :
    TimedRound starts stops (trace ++ [(w, ⟨0, .time tend⟩)]) idx (getDuration tstart tend) := by
  obtain ⟨before, s, after, rfl, atStart⟩ := started
  exact ⟨before, s, tstart, after, w, tend, [], by simp, atStart, atStop, rfl⟩

theorem TimedRound.snoc (round : TimedRound starts stops trace idx sample) (taken : World L × Label) :
    TimedRound starts stops (trace ++ [taken]) idx sample := by
  obtain ⟨before, s, tstart, between, e, tend, after, rfl, timed⟩ := round
  exact ⟨before, s, tstart, between, e, tend, after ++ [taken], by simp, timed⟩

/-- The samples of the rounds before `idx` are in the array. -/
abbrev SamplesStored (starts stops : Nat → World L → Prop) (size : Nat) (trace : List (World L × Label)) (idx : Nat)
    (diffs : List Nat) : Prop :=
  Filled (TimedRound starts stops) size trace idx diffs

theorem samplesStored_snoc {size : Nat} {diffs : List Nat} (stored : SamplesStored starts stops size trace idx diffs)
    (taken : World L × Label) : SamplesStored starts stops size (trace ++ [taken]) idx diffs :=
  stored.snoc taken fun _ _ round => round.snoc taken

end Oreo.Bench
