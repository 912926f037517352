import Oreo.Utils.ClosestK.Bounds

namespace Oreo.Utils

open Oreo.Sampling

/-! # Which sample of a dense run is returned -/

section Sorted

variable {s : List ℝ} {k start : Nat} (sorted : s.Pairwise (· ≤ ·)) (positive : ∀ x ∈ s, 0 < x)
include sorted positive

theorem closeAt_iff (j : Nat) :
    closeAt s j = true ↔ ∃ bound : j + 1 < s.length, (s[j + 1] - s[j]) / s[j + 1] < 1 / 100 := by
  by_cases bound : j + 1 < s.length
  · have ordered : s[j] ≤ s[j + 1] := List.pairwise_iff_getElem.mp sorted j (j + 1) _ bound (Nat.lt_succ_self j)
    have nonzero := (positive s[j + 1] (List.getElem_mem bound)).ne'
    simp [closeAt_eq (Nat.lt_of_succ_lt bound) bound, isClose, bound, nonzero, abs_of_nonneg (sub_nonneg.mpr ordered)]
  · exact ⟨fun close => absurd (closeAt_bound close) bound, fun close => absurd close.1 bound⟩

theorem dense_iff_window : Dense s k start ↔ Window (closeAt s) k start := by
  unfold Dense Window
  simp only [closeAt_iff sorted positive]

omit sorted in
theorem Dense.step (dense : Dense s k start) {m : Nat} (inside : m < k) (bound : start + m + 1 < s.length) :
    s[start + m + 1] * (99 / 100) < s[start + m] := by
  obtain ⟨_, close⟩ := dense (start + m) (by omega) (by omega)
  have small := (div_lt_iff₀ (positive _ (List.getElem_mem bound))).mp close
  linarith only [small]

omit sorted in
/-- Over a dense run the samples grow by less than a factor of `1 / 0.99` a step. -/
theorem Dense.growth (dense : Dense s k start) {m : Nat} (inside : m ≤ k) (bound : start + m < s.length) :
    s[start + m] * (99 / 100) ^ m ≤ s[start] := by
  induction m with
  | zero => simp
  | succ m ih =>
      have small := dense.step positive (show m < k by omega) bound
      calc s[start + m + 1] * (99 / 100) ^ (m + 1) = s[start + m + 1] * (99 / 100) * (99 / 100) ^ m := by ring
        _ ≤ s[start + m] * (99 / 100) ^ m := by gcongr
        _ ≤ s[start] := ih (by omega) (by omega)

omit sorted in
theorem Dense.spread (dense : Dense s k start) (counted : 1 ≤ k) {m : Nat} (inside : m ≤ k)
    (bound : start + m < s.length) : s[start + m] < s[start] / (99 / 100) ^ k := by
  rw [lt_div_iff₀ (by positivity)]
  rcases Nat.lt_or_eq_of_le inside with before | rfl
  · have shrinks : ((99 : ℝ) / 100) ^ k < (99 / 100) ^ m :=
      pow_lt_pow_right_of_lt_one₀ (by norm_num) (by norm_num) before
    calc s[start + m] * (99 / 100) ^ k < s[start + m] * (99 / 100) ^ m :=
          mul_lt_mul_of_pos_left shrinks (positive _ (List.getElem_mem bound))
      _ ≤ s[start] := dense.growth positive inside bound
  · obtain ⟨before, rfl⟩ := Nat.exists_eq_add_of_le' counted
    have small := dense.step positive (Nat.lt_succ_self before) bound
    calc s[start + before + 1] * (99 / 100) ^ (before + 1)
        = s[start + before + 1] * (99 / 100) * (99 / 100) ^ before := by ring
      _ < s[start + before] * (99 / 100) ^ before := by gcongr
      _ ≤ s[start] := dense.growth positive (Nat.le_succ before) (by omega)

omit sorted positive in
theorem Dense.inside (dense : Dense s k start) (counted : 1 ≤ k) : start + k < s.length := by
  obtain ⟨bound, -⟩ := dense (start + k - 1) (by omega) (by omega)
  omega

/-- The `k + 1` samples of a dense run lie between its first sample and `1 / 0.99 ^ k` times that. -/
theorem Dense.count (dense : Dense s k start) (counted : 1 ≤ k) (bound : start < s.length) :
    k + 1 ≤ s.countP fun x => decide (s[start] ≤ x ∧ x < s[start] / (99 / 100) ^ k) := by
  have room := dense.inside counted
  have run : ∀ x ∈ (s.drop start).take (k + 1), s[start] ≤ x ∧ x < s[start] / (99 / 100) ^ k := by
    intro x member
    obtain ⟨m, short, rfl⟩ := List.mem_iff_getElem.mp member
    rw [List.length_take, List.length_drop] at short
    rw [List.getElem_take, List.getElem_drop]
    refine ⟨?_, dense.spread positive counted (by omega) (by omega)⟩
    rcases Nat.eq_zero_or_pos m with rfl | later
    · exact le_refl _
    · exact List.pairwise_iff_getElem.mp sorted start (start + m) bound (by omega) (by omega)
  calc k + 1 = ((s.drop start).take (k + 1)).length := by rw [List.length_take, List.length_drop]; omega
    _ = ((s.drop start).take (k + 1)).countP fun x => decide (s[start] ≤ x ∧ x < s[start] / (99 / 100) ^ k) := by
        symm
        rw [List.countP_eq_length]
        exact fun x member => decide_eq_true (run x member)
    _ ≤ _ := ((List.take_sublist _ _).trans (List.drop_sublist _ _)).countP_le

end Sorted

/-- A dense run of `k` pairs somewhere: `closest_k` returns the first sample of the
first one, without a warning, and `k + 1` samples at least lie close above it. -/
theorem closestK_finds_first_dense_run (data : List ℝ) (k : Nat) (positive : ∀ x ∈ data, 0 < x)
    (several : 2 ≤ data.length) (counted : 1 ≤ k) (found : ∃ start, Dense (qsort doubleCmp data) k start) :
    ∃ start x, IsLeast {start | Dense (qsort doubleCmp data) k start} start ∧
      (qsort doubleCmp data)[start]? = some x ∧ closestK data k = .ok ⟨some x, none⟩ ∧
      k + 1 ≤ data.countP fun y => decide (x ≤ y ∧ y < x / (99 / 100) ^ k) := by
  have sorted := qsort_sorted data
  have positive' : ∀ x ∈ qsort doubleCmp data, 0 < x := fun x member => positive x ((qsort_perm data).subset member)
  simp only [dense_iff_window sorted positive'] at found ⊢
  rcases closestK_eq counted several with ⟨m, inside, full, result⟩ | ⟨short, -⟩
  · have bound : m - k < (qsort doubleCmp data).length := by rw [qsort_length]; omega
    have dense : Dense (qsort doubleCmp data) k (m - k) :=
      (dense_iff_window sorted positive').mpr full.least.1
    have many := dense.count sorted positive' counted bound
    rw [(qsort_perm data).countP_eq] at many
    rw [readAt_of_lt bound] at result
    exact ⟨m - k, _, full.least, List.getElem?_eq_getElem bound, result, many⟩
  · exact absurd found (no_window_of_short counted short)

theorem qsort_close_pair : qsort doubleCmp [(200 : ℝ), 201] = [200, 201] := qsort_of_sorted (by norm_num)

theorem dense_close_pair : Dense [(200 : ℝ), 201] 1 0 := by
  intro j _ upper
  obtain rfl : j = 0 := by omega
  exact ⟨by simp, by norm_num⟩

theorem closestK_finds_first_dense_run_pair :
    ∃ start x, IsLeast {start | Dense (qsort doubleCmp [(200 : ℝ), 201]) 1 start} start ∧
      (qsort doubleCmp [(200 : ℝ), 201])[start]? = some x ∧ closestK [(200 : ℝ), 201] 1 = .ok ⟨some x, none⟩ ∧
      1 + 1 ≤ [(200 : ℝ), 201].countP fun y => decide (x ≤ y ∧ y < x / (99 / 100) ^ 1) :=
  closestK_finds_first_dense_run [200, 201] 1 (by norm_num) (by simp) (by decide)
    ⟨0, by rw [qsort_close_pair]; exact dense_close_pair⟩

/-! ## The anchor after the loop -/

/-- The longest run of close neighbours that ends at the last sample has `c` pairs. -/
structure TrailingRun (s : List ℝ) (c : Nat) : Prop where
  fits : c < s.length
  dense : Dense s c (s.length - 1 - c)
  longest : c + 1 < s.length → ¬ Dense s (c + 1) (s.length - 2 - c)

/-- `closest_k` reads inside the array only, and returns `x`. -/
def Returns (data : List ℝ) (k : Nat) (x : ℝ) : Prop :=
  ∃ closest, closestK data k = .ok closest ∧ closest.value = some x

theorem TrailingRun.streak_eq {s : List ℝ} {c : Nat} (sorted : s.Pairwise (· ≤ ·)) (positive : ∀ x ∈ s, 0 < x)
    (trailing : TrailingRun s c) : streak (closeAt s) (s.length - 1) = c := by
  have fits := trailing.fits
  apply streak_eq_of_longest (by omega)
  · exact (dense_iff_window sorted positive).mp trailing.dense
  · intro room window
    apply trailing.longest (by omega)
    have shift : s.length - 2 - c = s.length - 1 - (c + 1) := by omega
    rw [shift]
    exact (dense_iff_window sorted positive).mpr window

/-- Without a dense run of `k` pairs the returned sample is the second of the trailing
run, at `size - c`; it is the first one, at `size - 1 - c`, only if the two are equal. -/
theorem closestK_anchors_alike_iff (data : List ℝ) (k c : Nat) (positive : ∀ x ∈ data, 0 < x)
    (sparse : ¬ ∃ start, Dense (qsort doubleCmp data) k start) (trailing : TrailingRun (qsort doubleCmp data) c)
    (pairs : 1 ≤ c) (short : c < k) :
    ∃ first second, (qsort doubleCmp data)[data.length - 1 - c]? = some first ∧
      (qsort doubleCmp data)[data.length - c]? = some second ∧
      (Returns data k first ↔ first = second) := by
  have sorted := qsort_sorted data
  have positive' : ∀ x ∈ qsort doubleCmp data, 0 < x := fun x member => positive x ((qsort_perm data).subset member)
  have count := trailing.streak_eq sorted positive'
  have fits := trailing.fits
  rw [qsort_length] at count fits
  have bound : data.length - c < (qsort doubleCmp data).length := by rw [qsort_length]; omega
  refine ⟨_, _, List.getElem?_eq_getElem (by rw [qsort_length]; omega), List.getElem?_eq_getElem bound, ?_⟩
  rcases closestK_eq (show 0 < k by omega) (show 2 ≤ data.length by omega) with ⟨m, inside, full, -⟩ | ⟨-, result⟩
  · exact absurd ⟨m - k, (dense_iff_window sorted positive').mpr full.least.1⟩ sparse
  · rw [count, readAt_of_lt bound] at result
    constructor
    · intro anchored
      obtain ⟨closest, returned, value⟩ := anchored
      rw [result] at returned
      obtain rfl := Except.ok.inj returned
      exact (Option.some.inj value).symm
    · intro same
      exact ⟨_, result, congrArg some same.symm⟩

theorem sparse_close_pair : ¬ ∃ start, Dense (qsort doubleCmp [(200 : ℝ), 201]) 5 start := by
  intro found
  obtain ⟨start, dense⟩ := found
  have inside := dense.inside (by decide)
  rw [qsort_length] at inside
  simp at inside

theorem trailingRun_close_pair : TrailingRun (qsort doubleCmp [(200 : ℝ), 201]) 1 := by
  rw [qsort_close_pair]
  exact ⟨by simp, dense_close_pair, by simp⟩

theorem closestK_anchors_alike_iff_pair :
    ∃ first second, (qsort doubleCmp [(200 : ℝ), 201])[[(200 : ℝ), 201].length - 1 - 1]? = some first ∧
      (qsort doubleCmp [(200 : ℝ), 201])[[(200 : ℝ), 201].length - 1]? = some second ∧
      (Returns [200, 201] 5 first ↔ first = second) :=
  closestK_anchors_alike_iff [200, 201] 5 1 (by norm_num) sparse_close_pair trailingRun_close_pair
    (by decide) (by decide)

/-- Two close samples: the run starts at 200, and 201 is returned. -/
theorem closestK_skips_first_of_trailing_run :
    (∀ x ∈ [(200 : ℝ), 201], 0 < x) ∧ (¬ ∃ start, Dense (qsort doubleCmp [(200 : ℝ), 201]) 5 start) ∧
      TrailingRun (qsort doubleCmp [(200 : ℝ), 201]) 1 ∧
      (qsort doubleCmp [(200 : ℝ), 201])[2 - 1 - 1]? = some 200 ∧
      Returns [200, 201] 5 201 ∧ ¬ Returns [200, 201] 5 200 := by
  have result : closestK [(200 : ℝ), 201] 5 = .ok ⟨some 201, some 1⟩ := by
    have close : isClose (200 : ℝ) 201 = true := by norm_num [isClose]
    simp only [closestK, qsort_close_pair]
    simp [closestScan, readAt, close, bind, Except.bind, pure, Except.pure]
  refine ⟨by norm_num, sparse_close_pair, trailingRun_close_pair, by rw [qsort_close_pair]; rfl,
    ⟨_, result, rfl⟩, ?_⟩
  intro anchored
  obtain ⟨closest, returned, value⟩ := anchored
  rw [result] at returned
  obtain rfl := Except.ok.inj returned
  norm_num at value

end Oreo.Utils
