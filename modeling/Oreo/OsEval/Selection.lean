import Oreo.OsEval.NullResult

namespace Oreo.OsEval

open Oreo.Posix Oreo.Sampling Oreo.Utils

/-! # Which sample `calc_k_closest` returns -/

/-- The first place of the buffer holds `p` when the loop comes to the sample `n`: `p` is the last
sample that began a row of samples in the buffer, and no gap has cleared it since. -/
structure OpenedAt (s : List (Timespec Int)) (n p : Nat) : Prop where
  before : p < n
  joined : joins s p = true
  opens : p = 0 ∨ joins s (p - 1) = false
  last : ∀ q, p < q → q < n → joins s q = true → joins s (q - 1) = true
  kept : ∀ q, p ≤ q → q + 1 < n → gapAt s q ≠ some .far

variable {s : List (Timespec Int)} {i j p : Nat} {kClosest : List Pointer}

theorem openedAt_start : OpenedAt s 1 p ↔ p = 0 := by
  constructor
  · intro opened
    have before := opened.before
    omega
  · rintro rfl
    exact ⟨Nat.one_pos, rfl, .inl rfl, fun q above below => by omega, fun q above below => by omega⟩

section Round

variable (started : 1 ≤ i)
include started

theorem openedAt_seconds (seconds : gapAt s (i - 1) = some .seconds) : OpenedAt s (i + 1) p ↔ OpenedAt s i p := by
  have parts : joins s i = false := by simp [joins_eq started, seconds]
  constructor
  · intro opened
    have other : p ≠ i := by
      rintro rfl
      rw [opened.joined] at parts
      contradiction
    have before := opened.before
    exact ⟨by omega, opened.joined, opened.opens, fun q above below => opened.last q above (by omega),
      fun q above below => opened.kept q above (by omega)⟩
  · intro opened
    refine ⟨Nat.lt_succ_of_lt opened.before, opened.joined, opened.opens, fun q above below joined => ?_, fun q above below => ?_⟩
    · rcases Nat.lt_or_eq_of_le (Nat.le_of_lt_succ below) with earlier | rfl
      · exact opened.last q above earlier joined
      · rw [parts] at joined
        contradiction
    · by_cases here : q = i - 1
      · simp [here, seconds]
      · exact opened.kept q above (by omega)

theorem not_openedAt_far (far : gapAt s (i - 1) = some .far) : ¬ OpenedAt s (i + 1) p := by
  intro opened
  have parts : joins s i = false := by simp [joins_eq started, far]
  have before := opened.before
  by_cases here : p = i
  · rw [← here, opened.joined] at parts
    contradiction
  · exact opened.kept (i - 1) (by omega) (by omega) far

/-- A sample that joins one that did not join itself takes the first place. -/
theorem openedAt_first (near : gapAt s (i - 1) = some .near) (counted : streak (joins s) i = 0) :
    OpenedAt s (i + 1) p ↔ p = i := by
  have joined : joins s i = true := by simp [joins_eq started, near]
  have apart : joins s (i - 1) = false := by
    obtain ⟨before, rfl⟩ := Nat.exists_eq_add_of_le' started
    rw [Nat.add_sub_cancel]
    by_contra joins
    exact absurd (streak_succ_pos.mpr (by simpa using joins)) (by omega)
  constructor
  · intro opened
    have before := opened.before
    by_contra other
    have again := opened.last i (by omega) (by omega) joined
    rw [apart] at again
    contradiction
  · rintro rfl
    exact ⟨Nat.lt_succ_self p, joined, .inr apart, fun q above below => by omega, fun q above below => by omega⟩

theorem openedAt_near (near : gapAt s (i - 1) = some .near) (counted : 0 < streak (joins s) i) :
    OpenedAt s (i + 1) p ↔ OpenedAt s i p := by
  have together : joins s (i - 1) = true := by
    obtain ⟨before, rfl⟩ := Nat.exists_eq_add_of_le' started
    exact streak_succ_pos.mp counted
  constructor
  · intro opened
    have before := opened.before
    have other : p ≠ i := by
      rintro rfl
      rcases opened.opens with zero | apart
      · omega
      · rw [together] at apart
        contradiction
    exact ⟨by omega, opened.joined, opened.opens, fun q above below => opened.last q above (by omega),
      fun q above below => opened.kept q above (by omega)⟩
  · intro opened
    refine ⟨Nat.lt_succ_of_lt opened.before, opened.joined, opened.opens, fun q above below joined => ?_, fun q above below => ?_⟩
    · rcases Nat.lt_or_eq_of_le (Nat.le_of_lt_succ below) with earlier | rfl
      · exact opened.last q above earlier joined
      · exact together
    · by_cases here : q = i - 1
      · simp [here, near]
      · exact opened.kept q above (by omega)

end Round

/-- The first place of the buffer after a sample was put into it. -/
theorem openedAt_set (filled : Filled s i j kClosest) (opened : ∀ p, kClosest[0]? = some (some p) ↔ OpenedAt s i p)
    (started : 1 ≤ i) (near : gapAt s (i - 1) = some .near) (p : Nat) :
    (kClosest.set j (some i))[0]? = some (some p) ↔ OpenedAt s (i + 1) p := by
  cases position : j with
  | zero =>
      rw [openedAt_first started near (filled.count.symm.trans position), eq_comm]
      simp [filled.size, K]
  | succ j' =>
      rw [openedAt_near started near (by rw [← filled.count]; omega), List.getElem?_set_ne (by omega), opened]

theorem rounds_openedAt (s : List (Timespec Int)) :
    Rounds s fun i first => ∀ p, first = some (some p) ↔ OpenedAt s i p where
  seconds i first started seconds opened p := (opened p).trans (openedAt_seconds started seconds).symm
  far i started far p := by simp [not_openedAt_far started far]
  near i j kClosest started filled near opened p := openedAt_set filled opened started near p

/-- What is returned is the second sample of its row, except at the start of the array: the sample
behind a gap never gets into the buffer. -/
theorem OpenedAt.second_of_row {stop : Nat} (opened : OpenedAt s stop p) :
    p = 0 ∨ 2 ≤ p ∧ gapAt s (p - 1) = some .near ∧ gapAt s (p - 2) ≠ some .near := by
  have joined := opened.joined
  have opens := opened.opens
  match p with
  | 0 => exact .inl rfl
  | 1 => simp [joins] at opens
  | p + 2 =>
      simp only [joins, decide_eq_true_eq] at joined opens
      exact .inr ⟨by omega, joined, by simpa using opens⟩

/-- Which sample `calc_k_closest` returns. -/
theorem calcKClosest_returns_second_of_row (timeArray : List (Timespec Int)) (nonempty : timeArray ≠ []) :
    ∃ stop pointer, Stops (qsort comp timeArray) stop ∧ calcKClosest timeArray = .ok (qsort comp timeArray, pointer) ∧
      (∀ p, pointer = some p ↔ OpenedAt (qsort comp timeArray) stop p) ∧
        ∀ p, pointer = some p → p = 0 ∨ 2 ≤ p ∧ gapAt (qsort comp timeArray) (p - 1) = some .near ∧
          gapAt (qsort comp timeArray) (p - 2) ≠ some .near := by
  have start : ∀ p, some (some 0) = some (some p) ↔ OpenedAt (qsort comp timeArray) 1 p := fun p => by
    rw [openedAt_start, eq_comm, Option.some_inj, Option.some_inj]
  obtain ⟨pointer, result, chosen⟩ := calcKClosest_eq (rounds_openedAt _) start nonempty
  obtain ⟨stop, stops, opened⟩ := chosen.first
  simp only [Option.some_inj] at opened
  exact ⟨stop, pointer, stops, result, opened, fun p returned => ((opened p).mp returned).second_of_row⟩

/-- The smallest of three samples is twice as fast as the others, which are alike. -/
theorem calcKClosest_returns_second_of_row_triple :
    ∃ stop pointer, Stops (qsort comp [⟨0, 100⟩, ⟨0, 200⟩, ⟨0, 201⟩]) stop ∧
      calcKClosest [⟨0, 100⟩, ⟨0, 200⟩, ⟨0, 201⟩] = .ok (qsort comp [⟨0, 100⟩, ⟨0, 200⟩, ⟨0, 201⟩], pointer) ∧
      (∀ p, pointer = some p ↔ OpenedAt (qsort comp [⟨0, 100⟩, ⟨0, 200⟩, ⟨0, 201⟩]) stop p) ∧
        ∀ p, pointer = some p → p = 0 ∨ 2 ≤ p ∧ gapAt (qsort comp [⟨0, 100⟩, ⟨0, 200⟩, ⟨0, 201⟩]) (p - 1) = some .near ∧
          gapAt (qsort comp [⟨0, 100⟩, ⟨0, 200⟩, ⟨0, 201⟩]) (p - 2) ≠ some .near :=
  calcKClosest_returns_second_of_row [⟨0, 100⟩, ⟨0, 200⟩, ⟨0, 201⟩] (by simp)

end Oreo.OsEval
