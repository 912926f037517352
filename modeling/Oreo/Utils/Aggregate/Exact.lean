import Oreo.Utils.Aggregate.Kept
import Oreo.Utils.Aggregate.Trace
import Mathlib.Analysis.Real.Sqrt

namespace Oreo.Utils.Aggregate

open Oreo.Sampling

section General

variable {K : Type*} [Field K] [LinearOrder K] [IsStrictOrderedRing K]
variable {sqrt : K → K} {data : List K}

omit [IsStrictOrderedRing K] in
theorem passes_last_cases (remaining : Nat) {s : Locals K} {p : Pass K}
    (last : (passes sqrt data (remaining + 1) s).getLast? = some p) :
    p.entry = s ∨ ∃ s', pass sqrt data s = .next s' ∧ (passes sqrt data remaining s').getLast? = some p := by
  by_cases running : s.changed = true
  · rw [passes, if_pos running, List.getLast?_cons, Option.some.injEq] at last
    cases body : pass sqrt data s with
    | tooMuchNoise s' => exact .inl (by simp [body] at last; rw [← last])
    | precise s' => exact .inl (by simp [body] at last; rw [← last])
    | next s' =>
        simp only [body] at last
        cases tail : (passes sqrt data remaining s').getLast? with
        | none => exact .inl (by simp [tail] at last; rw [← last])
        | some q => exact .inr ⟨s', rfl, by simpa [tail] using last⟩
  · simp [passes, running] at last

/-- Each pass keeps at least eight ninths of what the pass before it kept. -/
theorem passes_share (root : IsSquareRoot sqrt) (nonempty : data ≠ []) (remaining : Nat)
    {s : Locals K} {previous : List K} {p : Pass K} (clipped : Clipped sqrt data s previous)
    (last : (passes sqrt data remaining s).getLast? = some p) :
    8 ^ remaining * previous.length ≤ 9 ^ remaining * (p.entry.retained data).length := by
  induction remaining generalizing s previous with
  | zero => simp [passes] at last
  | succ remaining ih =>
      have share := clipped.length_le root
      rcases passes_last_cases remaining last with rfl | ⟨s', body, later⟩
      · calc 8 ^ (remaining + 1) * previous.length = 8 ^ remaining * (8 * previous.length) := by ring
          _ ≤ 9 ^ remaining * (9 * (p.entry.retained data).length) :=
            Nat.mul_le_mul (Nat.pow_le_pow_left (by decide) _) share
          _ = 9 ^ (remaining + 1) * (p.entry.retained data).length := by ring
      · have rest := ih (Entry.next root nonempty (.inr ⟨previous, clipped⟩) body) later
        calc 8 ^ (remaining + 1) * previous.length = 8 ^ remaining * (8 * previous.length) := by ring
          _ ≤ 8 ^ remaining * (9 * (s.retained data).length) := Nat.mul_le_mul_left _ share
          _ = 9 * (8 ^ remaining * (s.retained data).length) := by ring
          _ ≤ 9 * (9 ^ remaining * (p.entry.retained data).length) := Nat.mul_le_mul_left _ rest
          _ = 9 ^ (remaining + 1) * (p.entry.retained data).length := by ring

theorem Pass.Ran.locals (root : IsSquareRoot sqrt) (nonempty : data ≠ []) {p : Pass K}
    (ran : p.Ran sqrt data) : ∃ iter, p.exit.locals = { p.entry.report sqrt data with iter } := by
  rw [ran.body]
  exact pass_locals sqrt (ran.entry.retained_nonempty root nonempty)

theorem Pass.Ran.not_noise (root : IsSquareRoot sqrt) (nonempty : data ≠ []) {p : Pass K}
    (ran : p.Ran sqrt data) (s : Locals K) : p.exit ≠ .tooMuchNoise s := by
  rw [ran.body, pass_eq sqrt (ran.entry.retained_nonempty root nonempty)]
  split <;> simp

theorem loop_describes (root : IsSquareRoot sqrt) (nonempty : data ≠ []) :
    ∃ p, (passes sqrt data maxIter (start data.length)).getLast? = some p ∧ p.Ran sqrt data ∧
      Describes sqrt (loop sqrt data maxIter (start data.length)) (p.entry.retained data) := by
  cases last : (passes sqrt data maxIter (start data.length)).getLast? with
  | none => exact absurd (List.getLast?_eq_none_iff.mp last) (passes_start_ne_nil sqrt data)
  | some p =>
      have ran := passes_ran root nonempty maxIter (.inl rfl) p (List.mem_of_getLast? last)
      obtain ⟨iter, locals⟩ := ran.locals root nonempty
      refine ⟨p, rfl, ran, ?_⟩
      rw [loop_eq_last, last]
      simp only [Option.map_some, Option.getD_some, locals]
      exact (report_describes sqrt p.entry data).withIter iter

theorem Pass.Ran.changed_of_rejected (root : IsSquareRoot sqrt) (nonempty : data ≠ []) {p : Pass K}
    (ran : p.Ran sqrt data) (rejected : p.entry.rejected data ≠ []) : p.exit.locals.changed = true := by
  obtain ⟨iter, locals⟩ := ran.locals root nonempty
  simp [locals, Locals.report, rejected]

omit [IsStrictOrderedRing K] in
theorem Locals.rejected_ne_nil {s : Locals K} : s.rejected data ≠ [] ↔ ∃ x ∈ data, s.accepts x = false := by
  simp [Locals.rejected]

theorem passes_rejected_pairwise (root : IsSquareRoot sqrt) (nonempty : data ≠ []) :
    (passes sqrt data maxIter (start data.length)).Pairwise fun p q =>
      p.entry.rejected data ≠ [] → q.entry.rejected data ≠ [] := by
  apply (passes_rejection_persists root nonempty maxIter (.inl rfl)).imp
  intro p q persists rejected
  obtain ⟨x, member, refused⟩ := Locals.rejected_ne_nil.mp rejected
  exact Locals.rejected_ne_nil.mpr ⟨x, member, persists x refused⟩

theorem passes_none_rejected (root : IsSquareRoot sqrt) (nonempty : data ≠ [])
    (unchanged : (loop sqrt data maxIter (start data.length)).changed = false) :
    ∀ p ∈ passes sqrt data maxIter (start data.length), p.entry.rejected data = [] := by
  intro p member
  by_contra rejected
  obtain ⟨front, last, split⟩ := (List.eq_nil_or_concat' _).resolve_left
    (passes_start_ne_nil sqrt data)
  have ran := passes_ran root nonempty maxIter (.inl rfl) last (by rw [split]; simp)
  have pairs := passes_rejected_pairwise root nonempty
  rw [split] at member pairs
  have lastRejects : last.entry.rejected data ≠ [] := by
    rcases List.mem_append.mp member with earlier | isLast
    · exact (List.pairwise_append.mp pairs).2.2 p earlier last (by simp) rejected
    · rwa [← List.mem_singleton.mp isLast]
  have changed := ran.changed_of_rejected root nonempty lastRejects
  rw [loop_eq_last, split] at unchanged
  simp [changed] at unchanged

/-- A sample of one element has no spread, which is the value the source writes out. -/
theorem Describes.stddev_eq (root : IsSquareRoot sqrt) {s : Locals K} {kept : List K}
    (described : Describes sqrt s kept) (nonempty : kept ≠ []) (sublist : kept.Sublist data) :
    (if data.length = 1 then 0 else sqrt s.dev) = sqrt (variance kept) := by
  split
  · have single : kept.length = 1 := by
      have bound := sublist.length_le
      have positive := List.length_pos_iff.mpr nonempty
      omega
    obtain ⟨x, rfl⟩ := List.length_eq_one_iff.mp single
    have zero : variance [x] = 0 := by simp [variance, squaresAbout, mean]
    have square := root.square 0 (le_refl 0)
    rw [zero]
    exact (pow_eq_zero_iff two_ne_zero).mp square |>.symm
  · rw [described.dev]

end General

/-! ## Over the reals -/

theorem real_sqrt : IsSquareRoot Real.sqrt :=
  ⟨Real.sqrt_nonneg, fun _ => Real.sq_sqrt⟩

/-- The passes of `aggregate` on real samples. -/
noncomputable def runs (data : List ℝ) : List (Pass ℝ) :=
  passes Real.sqrt data maxIter (start data.length)

structure ClipsMonotonically (data : List ℝ) : Prop where
  /-- The acceptance interval a pass computes lies in the one before it. -/
  nested : (runs data).IsChain fun p q => q.exit.locals.interval ⊆ p.exit.locals.interval
  /-- No later pass accepts what an earlier one rejected. -/
  persists : (runs data).Pairwise fun p q =>
    ∀ x ∈ data, p.entry.accepts x = false → q.entry.accepts x = false
  /-- Filtering only the survivors of the pass before gives the same statistics. -/
  survivors : aggregate Real.sqrt data = aggregateSurvivors Real.sqrt data
  /-- They are those of the samples that are left after clipping round by round. -/
  statistics : ∃ stats, aggregate Real.sqrt data = some stats ∧ kept Real.sqrt data ≠ [] ∧
    stats.mean = mean (kept Real.sqrt data) ∧ stats.stddev = √(variance (kept Real.sqrt data)) ∧
      stats.max = largest llongMin (kept Real.sqrt data) ∧ stats.min = smallest llongMax (kept Real.sqrt data)
  /-- After a rejection `changed` is true in every later pass. -/
  changed : (runs data).Pairwise fun p q => p.entry.rejected data ≠ [] → q.exit.locals.changed = true
  /-- The loop ends with `changed == false` only if no pass rejected anything. -/
  unchanged : (loop Real.sqrt data maxIter (start data.length)).changed = false →
    ∀ p ∈ runs data, p.entry.rejected data = []

theorem aggregate_clips_monotonically (data : List ℝ) (nonempty : data ≠ []) :
    ClipsMonotonically data where
  nested := (passes_consecutive real_sqrt nonempty maxIter (.inl rfl)).imp
    fun _ _ pair => pair.interval_subset real_sqrt nonempty
  persists := (passes_rejection_persists real_sqrt nonempty maxIter (.inl rfl)).imp
    fun persists x _ => persists x
  survivors := aggregate_eq_survivors real_sqrt nonempty
  statistics := by
    obtain ⟨s, outputs, described, left⟩ := aggregate_describes real_sqrt nonempty
    have deviation := described.stddev_eq real_sqrt left (sigmaClip_sublist _ _ _ _ _)
    exact ⟨_, outputs.trans (if_pos (by simpa using nonempty)), left, described.avg, deviation, described.max, described.min⟩
  changed := by
    apply (passes_rejected_pairwise real_sqrt nonempty).imp_of_mem
    intro p q _ later rejects rejected
    exact (passes_ran real_sqrt nonempty maxIter (.inl rfl) q later).changed_of_rejected
      real_sqrt nonempty (rejects rejected)
  unchanged := passes_none_rejected real_sqrt nonempty

/-- Ten samples that are alike, and one of no ticks. -/
def outlier : List ℝ := 0 :: List.replicate 10 1

theorem kept_outlier : kept Real.sqrt outlier = List.replicate 10 1 := by
  have center : mean outlier = 10 / 11 := by norm_num [mean, outlier]
  have width : variance outlier = 10 / 121 := by
    rw [variance, center]
    norm_num [squaresAbout, outlier]
  obtain ⟨d, root, above, below⟩ : ∃ d, √(variance outlier) = d ∧ 1 / 4 < d ∧ d ≤ 10 / 33 :=
    ⟨_, rfl, Real.lt_sqrt_of_sq_lt (by norm_num [width]), Real.sqrt_le_iff.mpr (by norm_num [width])⟩
  have coarse : ¬ Precise Real.sqrt outlier := by
    rw [Precise, center, root, div_lt_iff₀ (by norm_num)]
    norm_num
    linarith only [above]
  have rejected : ¬ |(0 : ℝ) - 10 / 11| < tolerance * d := by
    norm_num [tolerance]
    linarith only [below]
  have accepted : |(1 : ℝ) - 10 / 11| < tolerance * d := by
    norm_num [tolerance, abs_of_neg]
    linarith only [above]
  have clipped : clip Real.sqrt tolerance outlier = List.replicate 10 1 := by
    rw [clip, center, root, outlier, List.filter_cons_of_neg (by simpa using rejected)]
    exact List.filter_eq_self.mpr fun x member => by rw [List.eq_of_mem_replicate member]; exact decide_eq_true accepted
  have settled : Precise Real.sqrt (List.replicate 10 1) := .inr (by norm_num [variance, squaresAbout, mean])
  rw [kept, maxIter, sigmaClip, if_neg coarse, clipped, sigmaClip_of_settled _ settled]

theorem aggregate_clips_monotonically_outlier :
    ClipsMonotonically outlier ∧ kept Real.sqrt outlier = List.replicate 10 1 :=
  ⟨aggregate_clips_monotonically outlier (by simp [outlier]), kept_outlier⟩

structure RetainsMost (data : List ℝ) : Prop where
  /-- A pass rejects at most one ninth of what the pass before it retained. -/
  rejectsFew : (runs data).IsChain fun p q =>
    (q.entry.rejected (p.entry.retained data)).length ≤ (p.entry.retained data).length / 9
  /-- Below ten samples it rejects none of them. -/
  keepsSmall : (runs data).IsChain fun p q =>
    (p.entry.retained data).length < 10 → q.entry.rejected (p.entry.retained data) = []
  validSize : ∀ p ∈ runs data,
    p.exit.locals.validSize = (p.entry.retained data).length ∧ 0 < p.exit.locals.validSize
  /-- The "Too much noise!" branch is never taken. -/
  noNoise : ∀ p ∈ runs data, ∀ s, p.exit ≠ .tooMuchNoise s
  /-- The reported mean and deviation are those of at least `(8/9)^4` of the samples. -/
  share : ∃ stats kept, aggregate Real.sqrt data = some stats ∧ kept.Sublist data ∧
    stats.mean = mean kept ∧ stats.stddev = √(variance kept) ∧
    (8 / 9 : ℝ) ^ 4 * data.length ≤ kept.length

/-- The last pass retains `(8/9)^4` of the samples: the first pass keeps them
all, and at most four more follow. -/
theorem last_pass_share {data : List ℝ} (nonempty : data ≠ []) {p : Pass ℝ}
    (last : (runs data).getLast? = some p) :
    (8 / 9 : ℝ) ^ 4 * data.length ≤ (p.entry.retained data).length := by
  have first : (start data.length : Locals ℝ).iter = 0 := rfl
  have counted : 8 ^ 4 * data.length ≤ 9 ^ 4 * (p.entry.retained data).length := by
    rcases passes_last_cases 4 last with entry | ⟨s', body, later⟩
    · rw [entry, Locals.retained_first first]
      omega
    · have next := Entry.next real_sqrt nonempty (.inl first) body
      rw [Locals.retained_first first] at next
      exact passes_share real_sqrt nonempty 4 next later
  have cast : (8 ^ 4 * data.length : ℝ) ≤ 9 ^ 4 * (p.entry.retained data).length := by
    exact_mod_cast counted
  rw [div_pow, div_mul_eq_mul_div, div_le_iff₀ (by positivity), mul_comm _ ((9 : ℝ) ^ 4)]
  exact cast

theorem aggregate_retains_most (data : List ℝ) (nonempty : data ≠ []) : RetainsMost data where
  rejectsFew := (passes_consecutive real_sqrt nonempty maxIter (.inl rfl)).imp
    fun _ _ pair => (pair.clipped real_sqrt nonempty).rejected_le real_sqrt
  keepsSmall := (passes_consecutive real_sqrt nonempty maxIter (.inl rfl)).imp
    fun _ _ pair small => (pair.clipped real_sqrt nonempty).none_rejected real_sqrt small
  validSize := by
    intro p member
    have ran := passes_ran real_sqrt nonempty maxIter (.inl rfl) p member
    obtain ⟨iter, locals⟩ := ran.locals real_sqrt nonempty
    have kept := List.length_pos_iff.mpr (ran.entry.retained_nonempty real_sqrt nonempty)
    rw [locals]
    exact ⟨rfl, kept⟩
  noNoise := fun p member =>
    (passes_ran real_sqrt nonempty maxIter (.inl rfl) p member).not_noise real_sqrt nonempty
  share := by
    obtain ⟨p, last, ran, described⟩ := loop_describes real_sqrt nonempty
    have sublist : (p.entry.retained data).Sublist data := List.filter_sublist
    refine ⟨_, p.entry.retained data, if_pos (by simpa using nonempty), sublist, described.avg, ?_,
      last_pass_share nonempty last⟩
    exact described.stddev_eq real_sqrt (ran.entry.retained_nonempty real_sqrt nonempty) sublist

theorem aggregate_retains_most_outlier :
    RetainsMost outlier ∧ kept Real.sqrt outlier = List.replicate 10 1 :=
  ⟨aggregate_retains_most outlier (by simp [outlier]), kept_outlier⟩

/-- All four outputs are statistics of the one sample `kept`. -/
structure Stats.Consistent (stats : Stats ℝ) (kept : List ℝ) : Prop where
  mean : stats.mean = Sampling.mean kept
  stddev : stats.stddev = √(variance kept)
  max : stats.max ∈ kept ∧ ∀ x ∈ kept, x ≤ stats.max
  min : stats.min ∈ kept ∧ ∀ x ∈ kept, stats.min ≤ x
  ordered : stats.min ≤ stats.mean ∧ stats.mean ≤ stats.max
  spread : stats.stddev ^ 2 ≤ (stats.max - stats.mean) * (stats.mean - stats.min)

/-- However the loop ends, the outputs describe what the filter of its last pass selected. -/
theorem aggregate_consistent (data : List ℝ) (nonempty : data ≠ [])
    (range : ∀ x ∈ data, -2 ^ 63 ≤ x ∧ x ≤ 2 ^ 63) :
    ∃ stats last, aggregate Real.sqrt data = some stats ∧ (runs data).getLast? = some last ∧
      stats.Consistent (data.filter last.entry.accepts) := by
  obtain ⟨p, last, ran, described⟩ := loop_describes real_sqrt nonempty
  have kept := ran.entry.retained_nonempty real_sqrt nonempty
  have sublist : (p.entry.retained data).Sublist data := List.filter_sublist
  have deviation := described.stddev_eq real_sqrt kept sublist
  have inRange := fun x member => range x (sublist.subset member)
  have largestMem := largest_mem kept fun x member => (inRange x member).1
  have smallestMem := smallest_mem kept fun x member => (inRange x member).2
  have below := (le_largest (llongMin : ℝ) (p.entry.retained data)).2
  have above := (smallest_le (llongMax : ℝ) (p.entry.retained data)).2
  refine ⟨_, p, if_pos (by simpa using nonempty), last, ?_⟩
  constructor
  · exact described.avg
  · exact deviation
  · rw [described.max]
    exact ⟨largestMem, below⟩
  · rw [described.min]
    exact ⟨smallestMem, above⟩
  · simp only [described.avg, described.min, described.max]
    exact ⟨le_mean kept above, mean_le kept below⟩
  · simp only [described.avg, described.min, described.max, deviation]
    rw [Real.sq_sqrt (variance_nonneg _)]
    exact variance_le_mul kept above below

theorem aggregate_consistent_pair :
    ∃ stats last, aggregate Real.sqrt [1, 2] = some stats ∧ (runs [1, 2]).getLast? = some last ∧
      stats.Consistent ([1, 2].filter last.entry.accepts) :=
  aggregate_consistent [1, 2] (by simp) (by
    intro x member
    simp only [List.mem_cons, List.not_mem_nil, or_false] at member
    rcases member with rfl | rfl <;> norm_num)

end Oreo.Utils.Aggregate
