import Oreo.Utils.Aggregate.Reorder
import Oreo.Utils.Aggregate.Seeds

namespace Oreo.Utils.Aggregate

open Oreo.Sampling

/-! # Which minorities of the samples `aggregate` discards -/

/-- Measurements with two outcomes. -/
structure TwoValued where
  majority : Nat
  minority : Nat
  usual : ℝ
  odd : ℝ
  present : 0 < minority
  fewer : minority ≤ majority
  different : usual ≠ odd
  usualInRange : 1 / 1000 ≤ usual ∧ usual ≤ 2 ^ 63
  oddInRange : 1 / 1000 ≤ odd ∧ odd ≤ 2 ^ 63

namespace TwoValued

variable (t : TwoValued)

def samples : List ℝ := List.replicate t.majority t.usual ++ List.replicate t.minority t.odd

noncomputable def average : ℝ := (t.majority * t.usual + t.minority * t.odd) / (t.majority + t.minority)

noncomputable def deviation : ℝ := √(t.majority * t.minority) * |t.odd - t.usual| / (t.majority + t.minority)

theorem counts : (0 : ℝ) < t.minority ∧ (t.minority : ℝ) ≤ t.majority :=
  ⟨Nat.cast_pos.mpr t.present, Nat.cast_le.mpr t.fewer⟩

theorem size_pos : (0 : ℝ) < t.majority + t.minority := by
  have counts := t.counts
  linarith

theorem distance_pos : 0 < |t.odd - t.usual| := abs_pos.mpr (sub_ne_zero.mpr t.different.symm)

theorem samples_ne_nil : t.samples ≠ [] := by
  have present := t.present
  simp only [samples, ne_eq, List.append_eq_nil_iff, List.replicate_eq_nil_iff]
  omega

theorem mean_samples : mean t.samples = t.average := by
  simp [mean, samples, average]

theorem usual_sub_average : t.usual - t.average = t.minority * (t.usual - t.odd) / (t.majority + t.minority) := by
  have size := t.size_pos.ne'
  rw [average]
  field_simp
  ring

theorem odd_sub_average : t.odd - t.average = t.majority * (t.odd - t.usual) / (t.majority + t.minority) := by
  have size := t.size_pos.ne'
  rw [average]
  field_simp
  ring

theorem variance_samples :
    variance t.samples = t.majority * t.minority * (t.odd - t.usual) ^ 2 / (t.majority + t.minority) ^ 2 := by
  have size := t.size_pos.ne'
  have squares : squaresAbout t.average t.samples =
      t.majority * (t.usual - t.average) ^ 2 + t.minority * (t.odd - t.average) ^ 2 := by
    simp [squaresAbout, samples]
  have length : (t.samples.length : ℝ) = t.majority + t.minority := by simp [samples]
  rw [variance, mean_samples, squares, length, usual_sub_average, odd_sub_average]
  field_simp
  ring

theorem sqrt_variance : √(variance t.samples) = t.deviation := by
  have product : (0 : ℝ) ≤ t.majority * t.minority := by positivity
  rw [variance_samples, Real.sqrt_div (by positivity), Real.sqrt_mul product, Real.sqrt_sq_eq_abs,
    Real.sqrt_sq t.size_pos.le, deviation]

/-! ## The filter -/

/-- A distance from the average is compared by what it is a multiple of. -/
theorem scaled_lt_iff (factor : ℝ) {distance : ℝ} (same : distance = factor * |t.odd - t.usual| / (t.majority + t.minority)) :
    distance < tolerance * t.deviation ↔ factor < 3 * √(t.majority * t.minority) := by
  have width : tolerance * t.deviation = 3 * √(t.majority * t.minority) * |t.odd - t.usual| / (t.majority + t.minority) := by
    rw [tolerance, deviation]
    ring
  rw [same, width, div_lt_div_iff_of_pos_right t.size_pos, mul_lt_mul_iff_left₀ t.distance_pos]

theorem usual_near : |t.usual - t.average| < tolerance * t.deviation := by
  obtain ⟨positive, fewer⟩ := t.counts
  refine (t.scaled_lt_iff t.minority ?_).mpr ?_
  · rw [usual_sub_average, abs_div, abs_mul, abs_of_pos positive, abs_of_pos t.size_pos, abs_sub_comm]
  · have root : (t.minority : ℝ) ≤ √(t.majority * t.minority) := by
      apply Real.le_sqrt_of_sq_le
      nlinarith
    linarith

theorem odd_near_iff : |t.odd - t.average| < tolerance * t.deviation ↔ t.majority < 9 * t.minority := by
  obtain ⟨positive, fewer⟩ := t.counts
  have majority : (0 : ℝ) < t.majority := by linarith
  rw [t.scaled_lt_iff t.majority]
  · have tripled : 3 * √(t.majority * t.minority) = √(9 * (t.majority * t.minority)) := by
      have nine : √(9 : ℝ) = 3 := by
        rw [show (9 : ℝ) = 3 ^ 2 by norm_num, Real.sqrt_sq (by norm_num)]
      rw [Real.sqrt_mul (show (0 : ℝ) ≤ 9 by norm_num), nine]
    rw [tripled, Real.lt_sqrt majority.le, ← @Nat.cast_lt ℝ]
    push_cast
    constructor
    · intro below
      nlinarith
    · intro below
      nlinarith
  · rw [odd_sub_average, abs_div, abs_mul, abs_of_pos majority, abs_of_pos t.size_pos]

theorem clip_samples :
    clip Real.sqrt tolerance t.samples =
      if t.majority < 9 * t.minority then t.samples else List.replicate t.majority t.usual := by
  have near : decide (|t.usual - t.average| < tolerance * t.deviation) = true := decide_eq_true t.usual_near
  unfold clip
  simp only [mean_samples, sqrt_variance]
  rw [samples, List.filter_append, List.filter_replicate, List.filter_replicate, if_pos near]
  simp only [decide_eq_true_eq, odd_near_iff]
  split <;> simp

/-! ## The samples that are left -/

theorem average_pos : 0 < t.average := by
  obtain ⟨positive, fewer⟩ := t.counts
  have usual : 0 < t.usual := lt_of_lt_of_le (by norm_num) t.usualInRange.1
  have odd : 0 < t.odd := lt_of_lt_of_le (by norm_num) t.oddInRange.1
  have majority : (0 : ℝ) < t.majority := by linarith
  rw [average]
  positivity

/-- The samples are not as close to each other as `aggregate` is content with. -/
def Coarse : Prop := t.average ≤ (1000 : ℕ) * t.deviation

noncomputable instance : Decidable t.Coarse := inferInstanceAs (Decidable (_ ≤ _))

theorem le_average : 1 / 1000 ≤ t.average := by
  rw [← mean_samples]
  refine le_mean t.samples_ne_nil fun x member => ?_
  rcases List.mem_append.mp member with member | member
  · rw [List.eq_of_mem_replicate member]
    exact t.usualInRange.1
  · rw [List.eq_of_mem_replicate member]
    exact t.oddInRange.1

theorem precise_samples_iff : Precise Real.sqrt t.samples ↔ ¬ t.Coarse := by
  have positive := t.average_pos
  rw [Precise, mean_samples, sqrt_variance, Coarse, not_le, Nat.cast_ofNat, or_iff_right t.le_average.not_gt,
    div_lt_div_iff₀ positive (by norm_num), one_mul, mul_comm]

theorem moments_replicate {n : Nat} (positive : n ≠ 0) (v : ℝ) :
    mean (List.replicate n v) = v ∧ variance (List.replicate n v) = 0 := by
  have nonzero : (n : ℝ) ≠ 0 := Nat.cast_ne_zero.mpr positive
  have average : mean (List.replicate n v) = v := by simp [mean, nonzero]
  exact ⟨average, by simp [variance, squaresAbout, average]⟩

theorem precise_replicate {n : Nat} (positive : n ≠ 0) (v : ℝ) : Precise Real.sqrt (List.replicate n v) := by
  right
  rw [(moments_replicate positive v).2, Real.sqrt_zero, zero_div]
  norm_num

theorem kept_samples :
    kept Real.sqrt t.samples = if 9 * t.minority ≤ t.majority ∧ t.Coarse then List.replicate t.majority t.usual else t.samples := by
  have present := t.present
  have fewer := t.fewer
  unfold kept
  by_cases coarse : t.Coarse
  · by_cases few : 9 * t.minority ≤ t.majority
    · rw [if_pos ⟨few, coarse⟩, maxIter, sigmaClip, if_neg (by simpa [precise_samples_iff] using coarse), clip_samples,
        if_neg (Nat.not_lt.mpr few)]
      exact sigmaClip_of_settled _ (precise_replicate (by omega) _)
    · rw [if_neg fun both => few both.1]
      exact sigmaClip_of_fixed _ (by rw [clip_samples, if_pos (Nat.lt_of_not_le few)])
  · rw [if_neg fun both => coarse both.2]
    exact sigmaClip_of_settled _ (t.precise_samples_iff.mpr coarse)

/-! ## The extremes -/

theorem extremes_samples :
    largest llongMin t.samples = max t.usual t.odd ∧ smallest llongMax t.samples = min t.usual t.odd := by
  have present := t.present
  have fewer := t.fewer
  have usual : t.usual ∈ t.samples := List.mem_append_left _ (List.mem_replicate.mpr ⟨by omega, rfl⟩)
  have odd : t.odd ∈ t.samples := List.mem_append_right _ (List.mem_replicate.mpr ⟨by omega, rfl⟩)
  have either (x : ℝ) (member : x ∈ t.samples) : x = t.usual ∨ x = t.odd :=
    (List.mem_append.mp member).imp List.eq_of_mem_replicate List.eq_of_mem_replicate
  have range (x : ℝ) (member : x ∈ t.samples) : llongMin ≤ x ∧ x ≤ llongMax := by
    have low : (llongMin : ℝ) ≤ 1 / 1000 := by norm_num [llongMin]
    rcases either x member with rfl | rfl
    · exact ⟨low.trans t.usualInRange.1, t.usualInRange.2⟩
    · exact ⟨low.trans t.oddInRange.1, t.oddInRange.2⟩
  constructor
  · have above := (le_largest llongMin t.samples).2
    refine le_antisymm ?_ (max_le (above _ usual) (above _ odd))
    rcases either _ (largest_mem t.samples_ne_nil fun x member => (range x member).1) with same | same
    · exact same.trans_le (le_max_left _ _)
    · exact same.trans_le (le_max_right _ _)
  · have below := (smallest_le llongMax t.samples).2
    refine le_antisymm (le_min (below _ usual) (below _ odd)) ?_
    rcases either _ (smallest_mem t.samples_ne_nil fun x member => (range x member).2) with same | same
    · exact (min_le_left _ _).trans_eq same.symm
    · exact (min_le_right _ _).trans_eq same.symm

theorem extremes_replicate {n : Nat} (positive : n ≠ 0) {v : ℝ} (range : 1 / 1000 ≤ v ∧ v ≤ 2 ^ 63) :
    largest llongMin (List.replicate n v) = v ∧ smallest llongMax (List.replicate n v) = v := by
  have nonempty : List.replicate n v ≠ [] := by simpa using positive
  have low : (llongMin : ℝ) ≤ 1 / 1000 := by norm_num [llongMin]
  constructor
  · refine List.eq_of_mem_replicate (largest_mem nonempty fun x member => ?_)
    rw [List.eq_of_mem_replicate member]
    exact low.trans range.1
  · refine List.eq_of_mem_replicate (smallest_mem nonempty fun x member => ?_)
    rw [List.eq_of_mem_replicate member]
    exact range.2

end TwoValued

/-- A minority is discarded as a whole if it is at most a ninth of the majority, and otherwise it counts in full. -/
theorem aggregate_discards_minority (t : TwoValued) {data : List ℝ} (reordered : data.Perm t.samples) :
    aggregate Real.sqrt data =
      some (if 9 * t.minority ≤ t.majority ∧ t.Coarse then ⟨t.usual, 0, t.usual, t.usual⟩
        else ⟨t.average, t.deviation, max t.usual t.odd, min t.usual t.odd⟩) := by
  have present := t.present
  have fewer := t.fewer
  have many : t.samples.length ≠ 0 ∧ t.samples.length ≠ 1 := by
    simp only [TwoValued.samples, List.length_append, List.length_replicate]
    omega
  obtain ⟨s, outputs, described, -⟩ := aggregate_describes real_sqrt t.samples_ne_nil
  rw [aggregate_perm reordered, outputs, Locals.outputs, if_pos many.1, if_neg many.2, described.avg, described.dev,
    described.max, described.min, t.kept_samples]
  congr 1
  split
  · have positive : t.majority ≠ 0 := by omega
    obtain ⟨largest, smallest⟩ := TwoValued.extremes_replicate positive t.usualInRange
    obtain ⟨average, spread⟩ := TwoValued.moments_replicate positive t.usual
    rw [average, spread, largest, smallest, Real.sqrt_zero]
  · rw [t.mean_samples, t.sqrt_variance, t.extremes_samples.1, t.extremes_samples.2]

/-- One of ten samples took twice as long as the others. -/
theorem aggregate_discards_minority_tenth : aggregate Real.sqrt (200 :: List.replicate 9 100) = some ⟨100, 0, 100, 100⟩ := by
  let t : TwoValued := ⟨9, 1, 100, 200, by decide, by decide, by norm_num, by norm_num, by norm_num⟩
  have reordered : (200 :: List.replicate 9 100).Perm t.samples := (List.perm_append_singleton 200 (List.replicate 9 (100 : ℝ))).symm
  have coarse : t.Coarse := by
    have root : √(((9 : Nat) : ℝ) * ((1 : Nat) : ℝ)) = 3 := by
      rw [Nat.cast_one, mul_one, show ((9 : Nat) : ℝ) = 3 ^ 2 by norm_num, Real.sqrt_sq (by norm_num)]
    change (((9 : Nat) : ℝ) * 100 + ((1 : Nat) : ℝ) * 200) / (((9 : Nat) : ℝ) + ((1 : Nat) : ℝ)) ≤
      ((1000 : ℕ) : ℝ) * (√(((9 : Nat) : ℝ) * ((1 : Nat) : ℝ)) * |200 - 100| / (((9 : Nat) : ℝ) + ((1 : Nat) : ℝ)))
    rw [root]
    norm_num
  rw [aggregate_discards_minority t reordered, if_pos ⟨by decide, coarse⟩]

end Oreo.Utils.Aggregate
