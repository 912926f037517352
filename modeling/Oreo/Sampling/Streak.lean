import Mathlib.Order.Bounds.Basic
import Mathlib.Data.Nat.Find

namespace Oreo.Sampling

/-! # Streaks of a predicate on indices

`streak p n` counts the indices directly below `n` on which `p` holds without a
gap: the value of a counter that a scan over `0, …, n - 1` increments on success
and resets on failure.
-/

variable {p : Nat → Bool} {n k m : Nat}

def streak (p : Nat → Bool) : Nat → Nat
  | 0 => 0
  | n + 1 => if p n then streak p n + 1 else 0

@[simp] theorem streak_zero (p : Nat → Bool) : streak p 0 = 0 := rfl

theorem streak_succ (p : Nat → Bool) (n : Nat) :
    streak p (n + 1) = if p n then streak p n + 1 else 0 := rfl

theorem streak_succ_pos : 0 < streak p (n + 1) ↔ p n = true := by
  cases holds : p n <;> simp [streak_succ, holds]

/-- `p` holds on the `k` indices from `start` on. -/
def Window (p : Nat → Bool) (k start : Nat) : Prop :=
  ∀ index, start ≤ index → index < start + k → p index = true

/-- A streak of at least `k` is a window of `k` indices that ends at `n`. -/
theorem le_streak_iff : k ≤ streak p n ↔ k ≤ n ∧ Window p k (n - k) := by
  induction n generalizing k with
  | zero =>
      constructor
      · intro bound
        have : k = 0 := by simpa using bound
        exact ⟨by omega, fun index _ upper => by omega⟩
      · exact fun window => window.1
  | succ n ih =>
      cases k with
      | zero => exact ⟨fun _ => ⟨by omega, fun index lower upper => by omega⟩, fun _ => Nat.zero_le _⟩
      | succ k =>
          have shift : n + 1 - (k + 1) = n - k := by omega
          rw [streak_succ, shift]
          constructor
          · intro bound
            split at bound
            · have last : p n = true := ‹_›
              obtain ⟨fits, window⟩ := ih.mp (Nat.le_of_succ_le_succ bound)
              refine ⟨by omega, fun index lower upper => ?_⟩
              by_cases before : index < n
              · exact window index lower (by omega)
              · have : index = n := by omega
                rwa [this]
            · omega
          · intro dense
            obtain ⟨fits, window⟩ := dense
            have last : p n = true := window n (by omega) (by omega)
            rw [if_pos last]
            have shorter : Window p k (n - k) := fun index lower upper => window index lower (by omega)
            exact Nat.succ_le_succ (ih.mpr ⟨by omega, shorter⟩)

/-- The first index at which the streak reaches `k`. -/
structure FirstFull (p : Nat → Bool) (k m : Nat) : Prop where
  full : streak p m = k
  first : ∀ earlier, earlier < m → streak p earlier < k

/-- The counter moves in steps of one, so it meets `k` before it exceeds it. -/
theorem exists_firstFull (positive : 0 < k) (reached : ∃ m, m ≤ n ∧ k ≤ streak p m) :
    ∃ m, m ≤ n ∧ FirstFull p k m := by
  have found : ∃ m, k ≤ streak p m := reached.imp fun _ hit => hit.2
  obtain ⟨hit, bound, full⟩ := reached
  refine ⟨Nat.find found, le_trans (Nat.find_min' found full) bound, ?_, fun earlier below => ?_⟩
  · have large := Nat.find_spec found
    cases least : Nat.find found with
    | zero =>
        rw [least] at large
        simp at large
        omega
    | succ m =>
        have small := Nat.find_min found (m := m) (by omega)
        rw [least, streak_succ] at large
        rw [streak_succ]
        split at large
        · rw [if_pos ‹_›]
          omega
        · omega
  · exact Nat.lt_of_not_le (Nat.find_min found below)

theorem FirstFull.window (full : FirstFull p k m) : k ≤ m ∧ Window p k (m - k) :=
  le_streak_iff.mp (Nat.le_of_eq full.full.symm)

/-- The start of the first full streak is the least start of a window. -/
theorem FirstFull.least (full : FirstFull p k m) : IsLeast {start | Window p k start} (m - k) := by
  refine ⟨full.window.2, ?_⟩
  intro start window
  have reached : k ≤ streak p (start + k) := by
    apply le_streak_iff.mpr
    rw [Nat.add_sub_cancel]
    exact ⟨Nat.le_add_left k start, window⟩
  have ahead : ¬ start + k < m := fun before => by
    have short := full.first (start + k) before
    omega
  omega

/-- The counter at `n` is the length of the longest window that ends there. -/
theorem streak_eq_of_longest (fits : k ≤ n) (window : Window p k (n - k))
    (longest : k < n → ¬ Window p (k + 1) (n - (k + 1))) : streak p n = k := by
  apply Nat.le_antisymm
  · by_contra more
    obtain ⟨room, longer⟩ := le_streak_iff.mp (show k + 1 ≤ streak p n by omega)
    exact longest (by omega) longer
  · exact le_streak_iff.mpr ⟨fits, window⟩

end Oreo.Sampling
