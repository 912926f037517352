import Oreo.Utils.ClosestK.Anchor

namespace Oreo.Utils

open Oreo.Sampling

/-! # Samples that occur several times -/

section Sorted

variable {K : Type*} [LinearOrder K] {s : List K} (sorted : s.Pairwise (· ≤ ·))
include sorted

theorem filter_append_of_sorted {p : K → Bool} (lower : ∀ x y, x ≤ y → p y = true → p x = true) :
    s.filter p ++ s.filter (fun x => !p x) = s := by
  apply (List.filter_append_perm p s).eq_of_pairwise' _ sorted
  apply List.pairwise_append.mpr
  refine ⟨sorted.filter _, sorted.filter _, ?_⟩
  intro x front y back
  by_contra above
  have passed := lower y x (le_of_not_ge above) (List.mem_filter.mp front).2
  have stopped := (List.mem_filter.mp back).2
  simp [passed] at stopped

theorem sorted_eq_append_replicate (v : K) :
    ∃ front back, s = front ++ (List.replicate (s.count v) v ++ back) := by
  have upper : (s.filter fun x => !decide (x < v)).Pairwise (· ≤ ·) := sorted.filter _
  have outer := filter_append_of_sorted sorted (p := fun x => decide (x < v))
    (fun x y le below => by simpa using lt_of_le_of_lt le (by simpa using below))
  have inner := filter_append_of_sorted upper (p := fun x => decide (x ≤ v))
    (fun x y le below => by simpa using le_trans le (by simpa using below))
  have same : (s.filter fun x => !decide (x < v)).filter (fun x => decide (x ≤ v)) =
      List.replicate (s.count v) v := by
    rw [← List.filter_beq, List.filter_filter]
    apply List.filter_congr
    intro x _
    rw [Bool.eq_iff_iff]
    simp only [Bool.and_eq_true, decide_eq_true_eq, Bool.not_eq_true', decide_eq_false_iff_not, beq_iff_eq]
    exact eq_iff_le_not_lt.symm
  rw [same] at inner
  exact ⟨_, _, by rw [inner, outer]⟩

end Sorted

noncomputable def positives (data : List ℝ) : List ℝ := (qsort doubleCmp data).filter fun x => decide (0 < x)

/-- There are samples to scan, and the scan returns before it runs out of them. -/
def ReturnsInLoop (data : List ℝ) (k : Nat) : Prop :=
  2 ≤ data.length ∧ ∃ x, closestK data k = .ok ⟨some x, none⟩

theorem returnsInLoop_iff {data : List ℝ} {k : Nat} (several : 2 ≤ data.length) (counted : 1 ≤ k) :
    ReturnsInLoop data k ↔ ∃ start, Window (closeAt (qsort doubleCmp data)) k start := by
  rcases closestK_eq counted several with ⟨m, inside, full, result⟩ | ⟨short, result⟩
  · rw [readAt_of_lt (by rw [qsort_length]; omega)] at result
    exact ⟨fun _ => exists_window_of_full full, fun _ => ⟨several, _, result⟩⟩
  · constructor
    · intro returned
      obtain ⟨-, x, inLoop⟩ := returned
      rw [result] at inLoop
      cases final : readAt (qsort doubleCmp data)
        (data.length - streak (closeAt (qsort doubleCmp data)) (data.length - 1)) with
      | error index => simp [final, Except.map] at inLoop
      | ok y => simp [final, Except.map] at inLoop
    · exact fun window => absurd window (no_window_of_short counted short)

/-- Next to a zero nothing is close: a quotient of zeros is not a number, and a positive
sample is as far from zero as it is large. -/
theorem closeAt_zeros (zeros : Nat) {s : List ℝ} (positive : ∀ x ∈ s, 0 < x) {index : Nat} (inside : index < zeros) :
    closeAt (List.replicate zeros 0 ++ s) index = false := by
  have here : (List.replicate zeros 0 ++ s)[index]? = some (0 : ℝ) := by
    rw [List.getElem?_append_left (by simpa using inside)]
    simp [inside]
  cases next : (List.replicate zeros 0 ++ s)[index + 1]? with
  | none => simp [closeAt, next]
  | some x =>
      simp only [closeAt, here, next, isClose]
      rcases List.mem_append.mp (List.mem_of_getElem? next) with zero | sample
      · simp [(List.mem_replicate.mp zero).2]
      · have above := positive x sample
        simp only [above.ne', if_false, sub_zero, abs_of_pos above, div_self above.ne', decide_eq_false_iff_not]
        norm_num

theorem closeAt_append (front s : List ℝ) (index : Nat) :
    closeAt (front ++ s) (front.length + index) = closeAt s index := by
  simp [closeAt, List.getElem?_append_right, Nat.add_assoc]

theorem window_append_zeros (zeros : Nat) {s : List ℝ} (positive : ∀ x ∈ s, 0 < x) {k : Nat} (counted : 1 ≤ k) :
    (∃ start, Window (closeAt (List.replicate zeros 0 ++ s)) k start) ↔ ∃ start, Window (closeAt s) k start := by
  have shifted (index : Nat) : closeAt (List.replicate zeros 0 ++ s) (zeros + index) = closeAt s index := by
    simpa using closeAt_append (List.replicate zeros 0) s index
  constructor
  · intro found
    obtain ⟨start, window⟩ := found
    have past : zeros ≤ start := by
      by_contra inside
      have close := window start (Nat.le_refl _) (by omega)
      simp [closeAt_zeros zeros positive (Nat.lt_of_not_le inside)] at close
    obtain ⟨start, rfl⟩ := Nat.exists_eq_add_of_le past
    refine ⟨start, fun index lower upper => ?_⟩
    rw [← shifted]
    exact window _ (by omega) (by omega)
  · intro found
    obtain ⟨start, window⟩ := found
    refine ⟨zeros + start, fun index lower upper => ?_⟩
    obtain ⟨index, rfl⟩ := Nat.exists_eq_add_of_le (Nat.le_trans (Nat.le_add_right zeros start) lower)
    rw [shifted]
    exact window _ (by omega) (by omega)

theorem window_of_repeated {s : List ℝ} (sorted : s.Pairwise (· ≤ ·)) {k : Nat} {v : ℝ} (positive : 0 < v)
    (repeated : k + 1 ≤ s.count v) : ∃ start, Window (closeAt s) k start := by
  obtain ⟨front, back, split⟩ := sorted_eq_append_replicate sorted v
  generalize s.count v = count at repeated split
  have found (index : Nat) (inside : index < count) : s[front.length + index]? = some v := by
    rw [split, List.getElem?_append_right (by omega), List.getElem?_append_left (by simp; omega)]
    simp [inside]
  refine ⟨front.length, fun index lower upper => ?_⟩
  obtain ⟨index, rfl⟩ := Nat.exists_eq_add_of_le lower
  have here := found index (by omega)
  have next := found (index + 1) (by omega)
  rw [← Nat.add_assoc] at next
  simp [closeAt, here, next, isClose, positive.ne']

theorem positives_pos {data : List ℝ} : ∀ x ∈ positives data, 0 < x :=
  fun _ member => by simpa using (List.mem_filter.mp member).2

theorem qsort_eq_zeros_append {data : List ℝ} (nonneg : ∀ x ∈ data, 0 ≤ x) :
    ∃ zeros, qsort doubleCmp data = List.replicate zeros 0 ++ positives data := by
  have split := filter_append_of_sorted (qsort_sorted data) (p := fun x => !decide (0 < x)) (fun x y le zero => by
    simpa using le_trans le (by simpa using zero))
  simp only [Bool.not_not] at split
  have zeros : (qsort doubleCmp data).filter (fun x => !decide (0 < x)) =
      List.replicate ((qsort doubleCmp data).filter fun x => !decide (0 < x)).length 0 := by
    apply List.eq_replicate_length.mpr
    intro x member
    obtain ⟨inList, low⟩ := List.mem_filter.mp member
    exact le_antisymm (by simpa using low) (nonneg x ((qsort_perm data).subset inList))
  exact ⟨_, split.symm.trans (congrArg (· ++ positives data) zeros)⟩

/-- A value occurs more than `k` times: `closest_k` returns from inside its loop if the
value is not 0, and otherwise only if `k` pairs of positive neighbours are close. -/
theorem closestK_counts_equal_iff (data : List ℝ) (k : Nat) (v : ℝ) (nonneg : ∀ x ∈ data, 0 ≤ x) (counted : 1 ≤ k)
    (repeated : k + 1 ≤ data.count v) :
    ReturnsInLoop data k ↔ v ≠ 0 ∨ ∃ start, Dense (positives data) k start := by
  have several : 2 ≤ data.length := by
    have bound : data.count v ≤ data.length := List.count_le_length
    omega
  have sorted : (positives data).Pairwise (· ≤ ·) := (qsort_sorted data).filter _
  obtain ⟨zeros, split⟩ := qsort_eq_zeros_append nonneg
  have windows := window_append_zeros zeros (positives_pos : ∀ x ∈ positives data, 0 < x) counted
  rw [← split] at windows
  rw [returnsInLoop_iff several counted]
  simp only [dense_iff_window sorted positives_pos]
  constructor
  · exact fun window => .inr (windows.mp window)
  · intro either
    rcases either with nonzero | window
    · have member : v ∈ data := List.count_pos_iff.mp (by omega)
      have above : 0 < v := lt_of_le_of_ne (nonneg v member) (Ne.symm nonzero)
      apply window_of_repeated (qsort_sorted data) above
      rw [(qsort_perm data).count_eq]
      exact repeated
    · exact windows.mpr window

theorem closestK_counts_equal_iff_zeros :
    ReturnsInLoop [0, 0] 1 ↔ (0 : ℝ) ≠ 0 ∨ ∃ start, Dense (positives [0, 0]) 1 start :=
  closestK_counts_equal_iff [0, 0] 1 0 (by simp) (by decide) (by simp)

/-- Two samples of a clock too coarse to tell them from 0: the quotient is `NaN`, and the
code after the loop reads outside of the array. -/
theorem closestK_misses_equal_zeros :
    (∀ x ∈ [(0 : ℝ), 0], 0 ≤ x) ∧ 1 + 1 ≤ [(0 : ℝ), 0].count 0 ∧ closestK [(0 : ℝ), 0] 1 = .error 2 ∧
      ¬ ReturnsInLoop [0, 0] 1 := by
  have sorted : qsort doubleCmp [(0 : ℝ), 0] = [0, 0] := qsort_of_sorted (by simp)
  have outside : closestK [(0 : ℝ), 0] 1 = .error 2 := by
    simp only [closestK, sorted]
    simp [closestScan, readAt, isClose, bind, Except.bind]
  refine ⟨by simp, by simp, outside, ?_⟩
  intro returned
  obtain ⟨-, x, inLoop⟩ := returned
  rw [outside] at inLoop
  contradiction

end Oreo.Utils
