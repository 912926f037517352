import Oreo.Utils.ClosestK.Model
import Oreo.Sampling.Streak
import Mathlib.Analysis.Real.Sqrt

namespace Oreo.Utils

open Oreo.Sampling

section Scan

variable {K : Type*}

@[simp] theorem readAt_of_lt {data : List K} {index : Nat} (bound : index < data.length) :
    readAt data index = .ok data[index] := by
  simp [readAt, bound]

@[simp] theorem readAt_of_le {data : List K} {index : Nat} (bound : data.length ≤ index) :
    readAt data index = .error index := by
  simp [readAt, bound]

variable [LinearOrder K]

theorem doubleCmp_nonpos (a b : K) : doubleCmp a b ≤ 0 ↔ a ≤ b := by
  unfold doubleCmp
  split
  · exact ⟨fun _ => le_of_lt ‹a < b›, fun _ => by decide⟩
  · split
    · exact ⟨fun impossible => absurd impossible (by decide), fun le => absurd ‹a > b› (not_lt_of_ge le)⟩
    · exact ⟨fun _ => le_of_not_gt ‹¬a > b›, fun _ => le_refl 0⟩

theorem qsort_perm (data : List K) : (qsort doubleCmp data).Perm data := List.mergeSort_perm _ _

@[simp] theorem qsort_length (data : List K) : (qsort doubleCmp data).length = data.length :=
  (qsort_perm data).length_eq

theorem qsort_sorted (data : List K) : (qsort doubleCmp data).Pairwise (· ≤ ·) := by
  have sorted : (qsort doubleCmp data).Pairwise fun a b => decide (doubleCmp a b ≤ 0) = true := List.pairwise_mergeSort
    (by simpa [doubleCmp_nonpos] using fun a b c => le_trans (a := a) (b := b) (c := c))
    (by simpa [doubleCmp_nonpos] using le_total) data
  exact sorted.imp fun ordered => (doubleCmp_nonpos _ _).mp (of_decide_eq_true ordered)

theorem qsort_of_sorted {data : List K} (sorted : data.Pairwise (· ≤ ·)) :
    qsort doubleCmp data = data :=
  List.mergeSort_of_pairwise (sorted.imp fun le => decide_eq_true ((doubleCmp_nonpos _ _).mpr le))

variable [Field K]

/-- Whether the neighbours at `index` and `index + 1` are close. -/
def closeAt (data : List K) (index : Nat) : Bool :=
  match data[index]?, data[index + 1]? with
  | some previous, some current => isClose previous current
  | _, _ => false

theorem closeAt_eq {data : List K} {index : Nat} (inside : index < data.length) (bound : index + 1 < data.length) :
    closeAt data index = isClose data[index] data[index + 1] := by
  simp [closeAt, inside, bound]

theorem closeAt_bound {data : List K} {index : Nat} (close : closeAt data index = true) :
    index + 1 < data.length := by
  by_contra outside
  simp [closeAt, List.getElem?_eq_none (Nat.le_of_not_lt outside)] at close

variable {data : List K} {k remaining idx : Nat}

/-- One iteration of the scan, with the counter at the streak of close pairs so far. -/
theorem closestScan_succ (started : 1 ≤ idx) (bound : idx < data.length) :
    closestScan data k (remaining + 1) idx (streak (closeAt data) (idx - 1)) =
      if streak (closeAt data) idx = k ∧ closeAt data (idx - 1) = true then
        (readAt data (idx - k)).map fun x => ⟨some x, none⟩
      else closestScan data k remaining (idx + 1) (streak (closeAt data) idx) := by
  obtain ⟨before, rfl⟩ := Nat.exists_eq_add_of_le' started
  have close := closeAt_eq (Nat.lt_of_succ_lt bound) bound
  rw [closestScan, readAt_of_lt bound, readAt_of_lt (show before + 1 - 1 < data.length by omega)]
  simp only [Nat.add_sub_cancel, streak_succ]
  change (if isClose data[before] data[before + 1] = true then _ else _) = _
  rw [← close]
  cases closeAt data before with
  | true =>
      simp only [if_true, and_true]
      split
      · next full =>
          rw [full]
          cases readAt data (before + 1 - k) <;> rfl
      · rfl
  | false => simp

theorem closestScan_of_firstFull {m : Nat} (positive : 0 < k) (full : FirstFull (closeAt data) k m)
    (started : 1 ≤ idx) (ahead : idx ≤ m) (inside : m < data.length)
    (count : idx + remaining = data.length) :
    closestScan data k remaining idx (streak (closeAt data) (idx - 1)) =
      (readAt data (m - k)).map fun x => ⟨some x, none⟩ := by
  induction remaining generalizing idx with
  | zero => omega
  | succ remaining ih =>
      rw [closestScan_succ started (by omega)]
      by_cases here : idx = m
      · subst here
        have close : closeAt data (idx - 1) = true := by
          obtain ⟨before, rfl⟩ := Nat.exists_eq_add_of_le' started
          rw [Nat.add_sub_cancel]
          exact streak_succ_pos.mp (by rw [full.full]; exact positive)
        rw [if_pos ⟨full.full, close⟩]
      · have small := full.first idx (by omega)
        rw [if_neg (fun hit => by omega)]
        exact ih (Nat.le_add_left 1 idx) (by omega) (by omega)

theorem closestScan_of_none (none : ∀ m, m < data.length → streak (closeAt data) m < k)
    (started : 1 ≤ idx) (count : idx + remaining = data.length) :
    closestScan data k remaining idx (streak (closeAt data) (idx - 1)) =
      (readAt data (data.length - streak (closeAt data) (data.length - 1))).map
        fun x => ⟨some x, some (streak (closeAt data) (data.length - 1))⟩ := by
  induction remaining generalizing idx with
  | zero =>
      have ended : idx = data.length := by omega
      subst ended
      have short := none (data.length - 1) (by omega)
      rw [closestScan, if_pos (Nat.ne_of_lt short)]
      cases readAt data (data.length - streak (closeAt data) (data.length - 1)) <;> rfl
  | succ remaining ih =>
      rw [closestScan_succ started (by omega)]
      have small := none idx (by omega)
      rw [if_neg (fun hit => by omega)]
      exact ih (Nat.le_add_left 1 idx) (by omega)

/-- What `closest_k` returns for two samples and more, by whether the sorted
samples have `k` consecutive close pairs. -/
theorem closestK_eq {data : List K} (positive : 0 < k) (several : 2 ≤ data.length) :
    (∃ m, m < data.length ∧ FirstFull (closeAt (qsort doubleCmp data)) k m ∧
      closestK data k = (readAt (qsort doubleCmp data) (m - k)).map fun x => ⟨some x, none⟩) ∨
    ((∀ m, m < data.length → streak (closeAt (qsort doubleCmp data)) m < k) ∧
      closestK data k =
        (readAt (qsort doubleCmp data)
          (data.length - streak (closeAt (qsort doubleCmp data)) (data.length - 1))).map
          fun x => ⟨some x, some (streak (closeAt (qsort doubleCmp data)) (data.length - 1))⟩) := by
  have entry : closestK data k = closestScan (qsort doubleCmp data) k (data.length - 1) 1
      (streak (closeAt (qsort doubleCmp data)) (1 - 1)) := by
    rw [closestK, if_neg (by omega), if_neg (by omega)]
    rfl
  have size := qsort_length data
  by_cases reached : ∃ m, m ≤ data.length - 1 ∧ k ≤ streak (closeAt (qsort doubleCmp data)) m
  · obtain ⟨m, bound, full⟩ := exists_firstFull positive reached
    have later := full.window.1
    refine .inl ⟨m, by omega, full, ?_⟩
    rw [entry]
    exact closestScan_of_firstFull positive full (by omega) (by omega) (by omega) (by omega)
  · push Not at reached
    refine .inr ⟨fun m inside => reached m (by omega), ?_⟩
    rw [entry, closestScan_of_none (fun m inside => reached m (by omega)) (by omega) (by omega), size]

end Scan

/-! ## Where the final read lies -/

/-- Every read of `closest_k` is inside the array, and it returns one of the samples. -/
def ReadsInside (data : List ℝ) (k : Nat) : Prop :=
  ∃ closest, closestK data k = .ok closest ∧ ∃ x ∈ data, closest.value = some x

/-- `collect_results` runs to its end and stores a sample exactly if its call of `closest_k` returns one. -/
theorem collectResults_stores_sample_iff (sqrt : ℝ → ℝ) (data : List ℝ) (config : BenchConfig) :
    (∃ res, collectResults sqrt data config = .ok res ∧ ∃ x ∈ data, res.kClosest = some x) ↔ ReadsInside data closestCount := by
  unfold collectResults ReadsInside
  cases closestK data closestCount with
  | error index => simp [bind, Except.bind]
  | ok closest => simp [bind, Except.bind, pure, Except.pure]

/-- There is a single sample, or `k` consecutive neighbours of the sorted samples are
close, or the two largest samples are. -/
def EndsOnStreak (data : List ℝ) (k : Nat) : Prop :=
  data.length = 1 ∨ (∃ start, Window (closeAt (qsort doubleCmp data)) k start) ∨
    closeAt (qsort doubleCmp data) (data.length - 2) = true

theorem readsInside_of_readAt {data : List ℝ} {k index : Nat} {warning : Option Nat}
    (inside : index < data.length)
    (result : closestK data k = (readAt (qsort doubleCmp data) index).map fun x => ⟨some x, warning⟩) :
    ReadsInside data k := by
  have bound : index < (qsort doubleCmp data).length := by rwa [qsort_length]
  rw [readAt_of_lt bound] at result
  exact ⟨_, result, _, (qsort_perm data).subset (List.getElem_mem bound), rfl⟩

theorem exists_window_of_full {data : List ℝ} {k m : Nat}
    (full : FirstFull (closeAt (qsort doubleCmp data)) k m) :
    ∃ start, Window (closeAt (qsort doubleCmp data)) k start :=
  ⟨m - k, full.window.2⟩

theorem no_window_of_short {data : List ℝ} {k : Nat} (positive : 0 < k)
    (short : ∀ m, m < data.length → streak (closeAt (qsort doubleCmp data)) m < k) :
    ¬ ∃ start, Window (closeAt (qsort doubleCmp data)) k start := by
  intro found
  obtain ⟨start, window⟩ := found
  have last := closeAt_bound (window (start + k - 1) (by omega) (by omega))
  rw [qsort_length] at last
  have full : k ≤ streak (closeAt (qsort doubleCmp data)) (start + k) := by
    apply le_streak_iff.mpr
    rw [Nat.add_sub_cancel]
    exact ⟨Nat.le_add_left k start, window⟩
  have below := short (start + k) (by omega)
  omega

/-- `closest_k` stays inside its array exactly if the scan does not end on an
empty streak: there the read after the loop is `data[size]`. -/
theorem closestK_reads_inside_iff (data : List ℝ) (k : Nat) (nonempty : data ≠ []) (positive : 1 ≤ k) :
    ReadsInside data k ↔ EndsOnStreak data k := by
  have size := List.length_pos_iff.mpr nonempty
  by_cases single : data.length = 1
  · obtain ⟨x, rfl⟩ := List.length_eq_one_iff.mp single
    exact ⟨fun _ => .inl rfl, fun _ => ⟨⟨some x, none⟩, rfl, x, List.mem_singleton_self x, rfl⟩⟩
  · rcases closestK_eq (k := k) positive (show 2 ≤ data.length by omega) with
      ⟨m, inside, full, result⟩ | ⟨short, result⟩
    · exact ⟨fun _ => .inr (.inl (exists_window_of_full full)),
        fun _ => readsInside_of_readAt (by omega) result⟩
    · have last : data.length - 1 = data.length - 2 + 1 := by omega
      have final := streak_succ_pos (p := closeAt (qsort doubleCmp data)) (n := data.length - 2)
      rw [← last] at final
      constructor
      · intro inBounds
        obtain ⟨closest, returned, -⟩ := inBounds
        refine .inr (.inr (final.mp (Nat.pos_of_ne_zero fun zero => ?_)))
        rw [result, zero, readAt_of_le (by rw [qsort_length]; exact Nat.le_refl _)] at returned
        contradiction
      · intro which
        rcases which with alone | window | close
        · exact absurd alone single
        · exact absurd window (no_window_of_short positive short)
        · have counted := final.mpr close
          exact readsInside_of_readAt (by omega) result

/-- Two close neighbours in front of a gap, and two behind one: `collect_results` stores a sample. -/
theorem closestK_reads_inside_iff_gap :
    ReadsInside [100, 100, 100, 300] 2 ∧ ∃ res, collectResults Real.sqrt [1, 200, 201] ⟨3, .small⟩ = .ok res ∧
      ∃ x ∈ [(1 : ℝ), 200, 201], res.kClosest = some x := by
  have sorted : qsort doubleCmp [(100 : ℝ), 100, 100, 300] = [100, 100, 100, 300] := qsort_of_sorted (by norm_num)
  have sorted' : qsort doubleCmp [(1 : ℝ), 200, 201] = [1, 200, 201] := qsort_of_sorted (by norm_num)
  constructor
  · refine (closestK_reads_inside_iff [100, 100, 100, 300] 2 (by simp) (by decide)).mpr (.inr (.inl ⟨0, fun j _ below => ?_⟩))
    rw [sorted]
    obtain rfl | rfl : j = 0 ∨ j = 1 := by omega
    all_goals norm_num [closeAt, isClose]
  · refine (collectResults_stores_sample_iff _ _ _).mpr ?_
    refine (closestK_reads_inside_iff [1, 200, 201] closestCount (by simp) (by decide)).mpr (.inr (.inr ?_))
    rw [sorted']
    norm_num [closeAt, isClose]

/-- Two samples a factor of two apart: the final read is at index 2 of 2. -/
theorem closestK_reads_outside :
    (∀ x ∈ [(1 : ℝ), 2], 0 ≤ x) ∧ closestK [(1 : ℝ), 2] 5 = .error 2 ∧ ¬ ReadsInside [1, 2] 5 := by
  have outside : closestK [(1 : ℝ), 2] 5 = .error 2 := by
    have sorted : qsort doubleCmp [(1 : ℝ), 2] = [1, 2] := qsort_of_sorted (by norm_num)
    have apart : isClose (1 : ℝ) 2 = false := by norm_num [isClose]
    simp only [closestK, sorted]
    simp [closestScan, readAt, apart, bind, Except.bind]
  refine ⟨by norm_num, outside, ?_⟩
  intro inBounds
  obtain ⟨closest, returned, -⟩ := inBounds
  rw [outside] at returned
  contradiction

end Oreo.Utils
