import Oreo.OsEval.KClosest
import Oreo.Sampling.Streak
import Oreo.Utils.ClosestK.Bounds

namespace Oreo.OsEval

open Oreo.Posix Oreo.Sampling Oreo.Utils

/-! # When `calc_k_closest` returns a sample -/

/-- The gap between the samples `index` and `index + 1`. -/
def gapAt (s : List (Timespec Int)) (index : Nat) : Option Gap :=
  match s[index]?, s[index + 1]? with
  | some prev, some curr => some (gap prev curr)
  | _, _ => none

/-- Whether the sample `index` is put into the buffer behind the one before it. The first one
always is. -/
def joins (s : List (Timespec Int)) : Nat → Bool
  | 0 => true
  | index + 1 => gapAt s index = some .near

/-- Below index `n`, the last pair of neighbours under a second is far apart. -/
def LastFar (s : List (Timespec Int)) (n : Nat) : Prop :=
  ∃ index, index + 1 < n ∧ gapAt s index = some .far ∧
    ∀ later, index < later → later + 1 < n → gapAt s later = some .seconds

variable {s : List (Timespec Int)} {i j remaining : Nat} {kClosest : List Pointer}

/-- What the buffer holds when the loop comes to the sample `i`. -/
structure Filled (s : List (Timespec Int)) (i j : Nat) (kClosest : List Pointer) : Prop where
  size : kClosest.length = K
  count : j = streak (joins s) i
  short : ∀ m, m ≤ i → streak (joins s) m < K
  inside : ∀ index, kClosest[0]? = some (some index) → index < s.length
  null : kClosest[0]? = some none ↔ LastFar s i

theorem gapAt_eq (started : 1 ≤ i) (bound : i < s.length) :
    gapAt s (i - 1) = some (gap s[i - 1] s[i]) := by
  obtain ⟨before, rfl⟩ := Nat.exists_eq_add_of_le' started
  simp [gapAt, bound, Nat.lt_of_succ_lt bound]

theorem joins_eq (started : 1 ≤ i) : joins s i = decide (gapAt s (i - 1) = some .near) := by
  obtain ⟨before, rfl⟩ := Nat.exists_eq_add_of_le' started
  rfl

theorem lastFar_succ (started : 1 ≤ i) : LastFar s (i + 1) ↔
    gapAt s (i - 1) = some .far ∨ LastFar s i ∧ gapAt s (i - 1) = some .seconds := by
  constructor
  · intro lastFar
    obtain ⟨index, before, far, later⟩ := lastFar
    by_cases here : index = i - 1
    · subst here
      exact .inl far
    · refine .inr ⟨⟨index, by omega, far, fun other above below => later other above (by omega)⟩, ?_⟩
      exact later (i - 1) (by omega) (by omega)
  · intro either
    rcases either with far | ⟨⟨index, before, far, later⟩, seconds⟩
    · exact ⟨i - 1, by omega, far, fun other above below => by omega⟩
    · refine ⟨index, by omega, far, fun other above below => ?_⟩
      by_cases here : other = i - 1
      · rwa [here]
      · exact later other above (by omega)

theorem not_lastFar_of_streak (started : 1 ≤ i) (counted : 0 < streak (joins s) i) : ¬ LastFar s i := by
  obtain ⟨before, rfl⟩ := Nat.exists_eq_add_of_le' started
  have joined := streak_succ_pos.mp counted
  cases before with
  | zero =>
      intro lastFar
      obtain ⟨index, inside, -⟩ := lastFar
      omega
  | succ before =>
      rw [joins_eq (by omega), decide_eq_true_eq, Nat.add_sub_cancel] at joined
      rw [lastFar_succ (by omega), Nat.add_sub_cancel, joined]
      simp

theorem filled_start (present : 0 < s.length) : Filled s 1 1 ((List.replicate K none).set 0 (some 0)) := by
  refine ⟨rfl, rfl, ?_, ?_, ?_⟩
  · intro m bound
    have small : m = 0 ∨ m = 1 := by omega
    rcases small with rfl | rfl
    · exact Nat.zero_lt_succ 4
    · exact Nat.succ_lt_succ (Nat.zero_lt_succ 3)
  · intro index same
    obtain rfl : 0 = index := by simpa [K] using same
    exact present
  · constructor
    · intro null
      simp [K] at null
    · intro lastFar
      obtain ⟨index, inside, -⟩ := lastFar
      omega

section Round

variable (filled : Filled s i j kClosest) (started : 1 ≤ i)
include filled started

theorem Filled.seconds (seconds : gapAt s (i - 1) = some .seconds) : Filled s (i + 1) 0 kClosest := by
  have parts : joins s i = false := by simp [joins_eq started, seconds]
  have reset : streak (joins s) (i + 1) = 0 := by simp [streak_succ, parts]
  refine ⟨filled.size, reset.symm, fun m bound => ?_, filled.inside, ?_⟩
  · rcases Nat.lt_or_eq_of_le bound with earlier | rfl
    · exact filled.short m (by omega)
    · rw [reset]
      decide
  · rw [filled.null, lastFar_succ started, seconds]
    simp

theorem Filled.far (far : gapAt s (i - 1) = some .far) : Filled s (i + 1) 0 (List.replicate K none) := by
  have parts : joins s i = false := by simp [joins_eq started, far]
  have reset : streak (joins s) (i + 1) = 0 := by simp [streak_succ, parts]
  refine ⟨rfl, reset.symm, fun m bound => ?_, by simp [K], ?_⟩
  · rcases Nat.lt_or_eq_of_le bound with earlier | rfl
    · exact filled.short m (by omega)
    · rw [reset]
      decide
  · rw [lastFar_succ started, far]
    simp [K]

/-- The sample goes to a place inside of the buffer, and the first place is taken from then on. -/
theorem Filled.near (near : gapAt s (i - 1) = some .near) (bound : i < s.length) :
    writeAt kClosest j (some i) = .ok (kClosest.set j (some i)) ∧ streak (joins s) (i + 1) = j + 1 ∧
      ∃ index, (kClosest.set j (some i))[0]? = some (some index) ∧ index < s.length := by
  have joined : joins s i = true := by simp [joins_eq started, near]
  have small := filled.short i (Nat.le_refl i)
  have place : j < kClosest.length := by rw [filled.size, filled.count]; exact small
  refine ⟨if_pos place, by rw [streak_succ, if_pos joined, filled.count], ?_⟩
  cases position : j with
  | zero => exact ⟨i, by simp [filled.size, K], bound⟩
  | succ j' =>
      have counted : 0 < streak (joins s) i := by rw [← filled.count]; omega
      have taken := mt filled.null.mp (not_lastFar_of_streak started counted)
      have first : kClosest[0]? = some kClosest[0] := List.getElem?_eq_getElem (by omega)
      cases pointer : kClosest[0] with
      | none => exact absurd (first.trans (congrArg some pointer)) taken
      | some index =>
          rw [pointer] at first
          exact ⟨index, by rw [List.getElem?_set_ne (by omega), first], filled.inside index first⟩

theorem Filled.next (near : gapAt s (i - 1) = some .near) (bound : i < s.length) (room : j + 1 ≠ K) :
    Filled s (i + 1) (j + 1) (kClosest.set j (some i)) := by
  obtain ⟨-, counted, index, first, inside⟩ := filled.near started near bound
  have small := filled.short i (Nat.le_refl i)
  rw [← filled.count] at small
  refine ⟨by rw [List.length_set, filled.size], counted.symm, fun m bound => ?_, fun other same => ?_, ?_⟩
  · rcases Nat.lt_or_eq_of_le bound with earlier | rfl
    · exact filled.short m (by omega)
    · omega
  · rw [first] at same
    cases same
    exact inside
  · rw [first, lastFar_succ started, near]
    simp

end Round

/-- Some `K` samples in a row are put into the buffer. -/
def Fills (s : List (Timespec Int)) : Prop := ∃ start, Window (joins s) K start

theorem fills_iff : Fills s ↔ ∃ m, m ≤ s.length ∧ K ≤ streak (joins s) m := by
  constructor
  · intro fills
    obtain ⟨start, window⟩ := fills
    have last := window (start + 4) (by omega) (by simp only [K]; omega)
    have inside : start + K ≤ s.length := by
      by_contra outside
      have missing : s[start + 4]? = none := List.getElem?_eq_none (by simp only [K] at outside; omega)
      simp [joins, gapAt, missing] at last
    refine ⟨start + K, inside, le_streak_iff.mpr ⟨Nat.le_add_left K start, ?_⟩⟩
    rwa [Nat.add_sub_cancel]
  · intro reached
    obtain ⟨m, -, full⟩ := reached
    exact ⟨m - K, (le_streak_iff.mp full).2⟩

/-- Where the loop ends: behind the sample that fills the buffer, or at the end of the array. -/
def Stops (s : List (Timespec Int)) (stop : Nat) : Prop :=
  stop ≤ s.length ∧ (∀ m, m < stop → streak (joins s) m < K) ∧ (streak (joins s) stop < K → stop = s.length)

/-- What is known of the first place of the buffer when the loop comes to a sample is kept by a round. -/
structure Rounds (s : List (Timespec Int)) (P : Nat → Option Pointer → Prop) : Prop where
  seconds : ∀ i first, 1 ≤ i → gapAt s (i - 1) = some .seconds → P i first → P (i + 1) first
  far : ∀ i, 1 ≤ i → gapAt s (i - 1) = some .far → P (i + 1) (some none)
  near : ∀ i j kClosest, 1 ≤ i → Filled s i j kClosest → gapAt s (i - 1) = some .near → P i kClosest[0]? →
    P (i + 1) (kClosest.set j (some i))[0]?

/-- The buffer behind the loop. -/
structure Scanned (s : List (Timespec Int)) (P : Nat → Option Pointer → Prop) (buffer : List Pointer) : Prop where
  size : buffer.length = K
  inside : ∀ index, buffer[0]? = some (some index) → index < s.length
  null : buffer[0]? = some none ↔ LastFar s s.length ∧ ¬ Fills s
  first : ∃ stop, Stops s stop ∧ P stop buffer[0]?

theorem closestScan_eq {P : Nat → Option Pointer → Prop} (rounds : Rounds s P) (filled : Filled s i j kClosest)
    (first : P i kClosest[0]?) (started : 1 ≤ i) (count : i + remaining = s.length) :
    ∃ buffer, closestScan s remaining i j kClosest = .ok buffer ∧ Scanned s P buffer := by
  induction remaining generalizing i j kClosest with
  | zero =>
      obtain rfl : i = s.length := by omega
      have short : ¬ Fills s := by
        rw [fills_iff]
        intro reached
        obtain ⟨m, inside, full⟩ := reached
        have small := filled.short m inside
        omega
      refine ⟨kClosest, rfl, filled.size, filled.inside, by rw [filled.null, and_iff_left short], s.length, ?_, first⟩
      exact ⟨Nat.le_refl _, fun m below => filled.short m below.le, fun _ => rfl⟩
  | succ remaining ih =>
      have bound : i < s.length := by omega
      have found := gapAt_eq started bound
      have reads : readAt s i = .ok s[i] ∧ readAt s (i - 1) = .ok s[i - 1] :=
        ⟨readAt_of_lt bound, readAt_of_lt (by omega)⟩
      rw [closestScan, reads.1, reads.2]
      simp only [Except.bind, bind]
      cases kind : gap s[i - 1] s[i] with
      | seconds =>
          rw [kind] at found
          exact ih (filled.seconds started found) (rounds.seconds i _ started found first) (by omega) (by omega)
      | far =>
          rw [kind] at found
          exact ih (filled.far started found) (rounds.far i started found) (by omega) (by omega)
      | near =>
          rw [kind] at found
          obtain ⟨written, counted, index, taken, inside⟩ := filled.near started found bound
          have next := rounds.near i j kClosest started filled found first
          simp only [written]
          split
          · next full =>
              have fills : Fills s := fills_iff.mpr ⟨i + 1, by omega, by omega⟩
              refine ⟨_, rfl, by rw [List.length_set, filled.size], fun other same => ?_, by simp [taken, fills], i + 1, ?_, next⟩
              · rw [taken] at same
                cases same
                exact inside
              · exact ⟨bound, fun m below => filled.short m (by omega), fun short => by omega⟩
          · next room => exact ih (filled.next started found bound room) next (by omega) (by omega)

/-- What `calc_k_closest` returns. -/
structure Chosen (s : List (Timespec Int)) (P : Nat → Option Pointer → Prop) (pointer : Pointer) : Prop where
  inside : ∀ index, pointer = some index → index < s.length
  null : pointer = none ↔ LastFar s s.length ∧ ¬ Fills s
  first : ∃ stop, Stops s stop ∧ P stop (some pointer)

/-- `calc_k_closest` writes inside of its buffer. -/
theorem calcKClosest_eq {timeArray : List (Timespec Int)} {P : Nat → Option Pointer → Prop}
    (rounds : Rounds (qsort comp timeArray) P) (start : P 1 (some (some 0))) (nonempty : timeArray ≠ []) :
    ∃ pointer, calcKClosest timeArray = .ok (qsort comp timeArray, pointer) ∧ Chosen (qsort comp timeArray) P pointer := by
  have size : (qsort comp timeArray).length = timeArray.length := (List.mergeSort_perm _ _).length_eq
  have present : 0 < (qsort comp timeArray).length := by rw [size]; exact List.length_pos_iff.mpr nonempty
  obtain ⟨buffer, ran, scanned⟩ := closestScan_eq rounds (filled_start present) start (Nat.le_refl 1)
    (Nat.add_sub_cancel' present)
  have taken : 0 < buffer.length := by rw [scanned.size]; decide
  have slot : buffer[0]? = some buffer[0] := List.getElem?_eq_getElem taken
  refine ⟨buffer[0], ?_, ?_, ?_, ?_⟩
  · have stored : writeAt (List.replicate K none) 0 (some 0) = .ok ((List.replicate K none).set 0 (some 0)) := rfl
    simp only [calcKClosest, stored, Except.bind, bind, ran, readAt_of_lt taken, pure, Except.pure]
  · exact fun index same => scanned.inside index (slot.trans (congrArg some same))
  · rw [← scanned.null, slot, Option.some_inj]
  · rw [← slot]
    exact scanned.first

/-- With nothing to be known of the first place. -/
theorem rounds_any (s : List (Timespec Int)) : Rounds s fun _ _ => True := ⟨by simp, by simp, by simp⟩

/-- The pointer that is returned points at a sample of the sorted array. -/
def ReturnsSample (timeArray : List (Timespec Int)) : Prop :=
  ∃ s index, calcKClosest timeArray = .ok (s, some index) ∧ index < s.length

/-- `calc_k_closest` writes inside of its buffer, and returns a sample unless the last two samples
under a second are far apart and the buffer was not full before: the loop that clears the buffer
does not put the sample behind the gap into it. -/
theorem calcKClosest_returns_sample_iff (timeArray : List (Timespec Int)) (nonempty : timeArray ≠ []) :
    ReturnsSample timeArray ↔
      ¬ LastFar (qsort comp timeArray) timeArray.length ∨ Fills (qsort comp timeArray) := by
  have size : (qsort comp timeArray).length = timeArray.length := (List.mergeSort_perm _ _).length_eq
  obtain ⟨pointer, result, chosen⟩ := calcKClosest_eq (rounds_any _) trivial nonempty
  have null := chosen.null
  rw [size] at null
  rw [← imp_iff_not_or, ← not_and_not_right, ← null]
  constructor
  · rintro ⟨s, index, same, -⟩ rfl
    rw [result] at same
    cases same
  · intro taken
    obtain ⟨index, rfl⟩ := Option.ne_none_iff_exists'.mp taken
    exact ⟨_, index, result, chosen.inside index rfl⟩

theorem calcKClosest_returns_sample_iff_triple :
    ReturnsSample [⟨0, 103⟩, ⟨0, 100⟩, ⟨2, 0⟩] ↔
      ¬ LastFar (qsort comp [⟨0, 103⟩, ⟨0, 100⟩, ⟨2, 0⟩]) 3 ∨ Fills (qsort comp [⟨0, 103⟩, ⟨0, 100⟩, ⟨2, 0⟩]) :=
  calcKClosest_returns_sample_iff _ (by simp)

/-- The second of two samples is twice the first: the buffer is cleared, and the loop is over. -/
theorem calcKClosest_returns_null : calcKClosest [⟨0, 100⟩, ⟨0, 200⟩] = .ok ([⟨0, 100⟩, ⟨0, 200⟩], none) ∧
    ¬ ReturnsSample [⟨0, 100⟩, ⟨0, 200⟩] := by
  have sorted : qsort comp [⟨0, 100⟩, ⟨0, 200⟩] = [⟨0, 100⟩, ⟨0, 200⟩] := by
    simp [qsort, comp, List.mergeSort, List.MergeSort.Internal.splitInTwo]
  have far : gap ⟨0, 100⟩ ⟨0, 200⟩ = .far := by
    have ratio : isFar ⟨0, 100⟩ ⟨0, 200⟩ = true := by
      simp [isFar, inprecision]
      norm_num
    simp [gap, ratio]
  have result : calcKClosest [⟨0, 100⟩, ⟨0, 200⟩] = .ok ([⟨0, 100⟩, ⟨0, 200⟩], none) := by
    simp [calcKClosest, sorted, closestScan, readAt, far, writeAt, K, bind, Except.bind, pure, Except.pure]
  refine ⟨result, ?_⟩
  rintro ⟨s, index, same, -⟩
  rw [result] at same
  cases same

end Oreo.OsEval
