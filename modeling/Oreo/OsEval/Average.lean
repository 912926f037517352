import Oreo.OsEval.Durations
import Mathlib.Algebra.Order.BigOperators.Group.List
import Mathlib.Tactic.LinearCombination

namespace Oreo.OsEval

open Oreo.Posix Oreo.Posix.Timespec

/-! # Sums and averages of durations -/

/-! ## Signed 64 bit arithmetic that does not overflow -/

section Range

variable {a b : Int64}

def Fits (n : Int) : Prop := -2 ^ 63 ≤ n ∧ n < 2 ^ 63

theorem bmod_of_fits {n : Int} (fits : Fits n) : n.bmod (2 ^ 64) = n := by
  obtain ⟨lower, upper⟩ := fits
  exact Int.bmod_eq_of_le (by omega) (by omega)

theorem toInt_add_of_fits (fits : Fits (a.toInt + b.toInt)) : (a + b).toInt = a.toInt + b.toInt := by
  rw [Int64.toInt_add, bmod_of_fits fits]

theorem toInt_sub_of_fits (fits : Fits (a.toInt - b.toInt)) : (a - b).toInt = a.toInt - b.toInt := by
  rw [Int64.toInt_sub, bmod_of_fits fits]

theorem toInt_mul_of_fits (fits : Fits (a.toInt * b.toInt)) : (a * b).toInt = a.toInt * b.toInt := by
  rw [Int64.toInt_mul, bmod_of_fits fits]

theorem fits_add {m n : Int} (nonneg : 0 ≤ m) (below : m < 1000000000) (otherNonneg : 0 ≤ n)
    (otherBelow : n < 2 ^ 31 * 1000000000) : Fits (m + n) := ⟨by omega, by omega⟩

/-- The division of C agrees with that of the integers where nothing is negative. -/
theorem toInt_div_of_nonneg (dividend : 0 ≤ a.toInt) (divisor : 0 < b.toInt) : (a / b).toInt = a.toInt / b.toInt := by
  have nonneg := Int.ediv_nonneg dividend divisor.le
  have small := Int.ediv_le_self b.toInt dividend
  have bound := a.toInt_lt
  rw [Int64.toInt_div, Int.tdiv_eq_ediv_of_nonneg dividend, bmod_of_fits ⟨by omega, by omega⟩]

theorem toInt_mod_of_nonneg (dividend : 0 ≤ a.toInt) : (a % b).toInt = a.toInt % b.toInt := by
  rw [Int64.toInt_mod, Int.tmod_eq_emod_of_nonneg dividend]

end Range

/-! ## Sums -/

section Exact

variable {sum t : Timespec Int}

theorem accumulate_normalised (before : sum.Normalised) (sample : t.Normalised) : (accumulate sum t).Normalised := by
  obtain ⟨nonneg, below⟩ := before
  obtain ⟨sampleNonneg, sampleBelow⟩ := sample
  unfold accumulate
  split
  · constructor <;> dsimp only <;> omega
  · constructor <;> dsimp only <;> omega

theorem accumulate_nanos (sum t : Timespec Int) : (accumulate sum t).nanos = sum.nanos + t.nanos := by
  unfold accumulate nanos
  split
  · dsimp only
    omega
  · dsimp only
    omega

theorem sec_nonneg_iff (normalised : t.Normalised) : 0 ≤ t.sec ↔ 0 ≤ t.nanos := by
  obtain ⟨nonneg, below⟩ := normalised
  unfold nanos
  omega

end Exact

/-- A duration that the clock and the program can produce: normalised and not negative. -/
structure Sample (t : Timespec Int64) : Prop where
  normalised : t.exact.Normalised
  nonneg : 0 ≤ t.exact.sec

namespace Sample

variable {sum t : Timespec Int64}

theorem nanos_nonneg (sample : Sample t) : 0 ≤ t.exact.nanos := (sec_nonneg_iff sample.normalised).mp sample.nonneg

theorem zero : Sample ⟨0, 0⟩ := ⟨by decide, by decide⟩

/-- A step of the sum is exact if the seconds of its result fit. -/
theorem exact_accumulate (before : Sample sum) (sample : Sample t)
    (fits : sum.exact.nanos + t.exact.nanos < 2 ^ 63 * 1000000000) :
    (accumulate sum t).exact = accumulate sum.exact t.exact := by
  obtain ⟨⟨nonneg, below⟩, secNonneg⟩ := before
  obtain ⟨⟨sampleNonneg, sampleBelow⟩, sampleSecNonneg⟩ := sample
  simp only [exact_sec, exact_nsec] at nonneg below secNonneg sampleNonneg sampleBelow sampleSecNonneg
  simp only [nanos, exact_sec, exact_nsec] at fits
  have thousandMillion : (1000000000 : Int64).toInt = 1000000000 := by decide
  have one : (1 : Int64).toInt = 1 := by decide
  have room : (1000000000 - sum.nsec : Int64).toInt = 1000000000 - sum.nsec.toInt := by
    rw [toInt_sub_of_fits ⟨by omega, by omega⟩, thousandMillion]
  unfold accumulate
  simp only [exact_sec, exact_nsec, ge_iff_le, Int64.le_iff_toInt_le, room]
  split
  · have carried : (sum.sec + 1).toInt = sum.sec.toInt + 1 := by
      rw [toInt_add_of_fits ⟨by omega, by omega⟩, one]
    simp only [exact, Timespec.mk.injEq]
    constructor
    · rw [toInt_add_of_fits ⟨by omega, by omega⟩, carried]
    · rw [toInt_sub_of_fits ⟨by omega, by omega⟩, room]
  · simp only [exact, Timespec.mk.injEq]
    constructor
    · rw [toInt_add_of_fits ⟨by omega, by omega⟩]
    · rw [toInt_add_of_fits ⟨by omega, by omega⟩]

theorem accumulate (before : Sample sum) (sample : Sample t)
    (fits : sum.exact.nanos + t.exact.nanos < 2 ^ 63 * 1000000000) : Sample (accumulate sum t) := by
  have next := before.exact_accumulate sample fits
  have normalised := accumulate_normalised before.normalised sample.normalised
  rw [← next] at normalised
  refine ⟨normalised, (sec_nonneg_iff normalised).mpr ?_⟩
  rw [next, accumulate_nanos]
  exact Int.add_nonneg before.nanos_nonneg sample.nanos_nonneg

end Sample

theorem sum_nanos_nonneg {samples : List (Timespec Int64)} (all : ∀ t ∈ samples, Sample t) :
    0 ≤ (samples.map fun t => t.exact.nanos).sum := by
  refine List.sum_nonneg fun n member => ?_
  obtain ⟨t, found, rfl⟩ := List.mem_map.mp member
  exact (all t found).nanos_nonneg

theorem foldl_accumulate {samples : List (Timespec Int64)} {sum : Timespec Int64} (before : Sample sum)
    (all : ∀ t ∈ samples, Sample t)
    (fits : sum.exact.nanos + (samples.map fun t => t.exact.nanos).sum < 2 ^ 63 * 1000000000) :
    Sample (samples.foldl accumulate sum) ∧
      (samples.foldl accumulate sum).exact.nanos = sum.exact.nanos + (samples.map fun t => t.exact.nanos).sum := by
  induction samples generalizing sum with
  | nil => exact ⟨before, by simp⟩
  | cons t samples ih =>
      rw [List.map_cons, List.sum_cons, ← Int.add_assoc] at fits
      have sample := all t List.mem_cons_self
      have later : ∀ t ∈ samples, Sample t := fun other member => all other (List.mem_cons_of_mem t member)
      have rest := sum_nanos_nonneg later
      have room : sum.exact.nanos + t.exact.nanos < 2 ^ 63 * 1000000000 := by omega
      have next : (accumulate sum t).exact.nanos = sum.exact.nanos + t.exact.nanos := by
        rw [before.exact_accumulate sample room, accumulate_nanos]
      obtain ⟨ends, total⟩ := ih (before.accumulate sample room) later (by rwa [next])
      refine ⟨ends, total.trans ?_⟩
      rw [next, List.map_cons, List.sum_cons, Int.add_assoc]

theorem calcSum_eq {P : Type} (deref : P → Timespec Int64) (array : List P) (size : Int32) :
    calcSum deref array size = calcSum2 (array.map deref) size := by
  rw [calcSum, calcSum2, ← List.map_take, List.foldl_map]

/-! ## The average -/

section Average

variable {sum : Timespec Int64} {size : Int32}

/-- No step of the average overflows: what is multiplied is a remainder of the seconds. -/
theorem exact_calcAverage (sample : Sample sum) (positive : 1 ≤ size.toInt) :
    (calcAverage sum size).exact =
      ⟨sum.sec.toInt / size.toInt, sum.nsec.toInt / size.toInt + sum.sec.toInt % size.toInt * 1000000000 / size.toInt⟩ := by
  obtain ⟨⟨nonneg, below⟩, secNonneg⟩ := sample
  simp only [exact_sec, exact_nsec] at nonneg below secNonneg
  have width : size.toInt64.toInt = size.toInt := Int32.toInt_toInt64 size
  have divisor : 0 < size.toInt64.toInt := by omega
  have thousandMillion : (1000000000 : Int64).toInt = 1000000000 := by decide
  have short := size.toInt_lt
  have remainderNonneg := Int.emod_nonneg sum.sec.toInt divisor.ne'
  have remainderBelow := Int.emod_lt_of_pos sum.sec.toInt divisor
  have remainder : (sum.sec % size.toInt64).toInt = sum.sec.toInt % size.toInt64.toInt := toInt_mod_of_nonneg secNonneg
  have product : (sum.sec % size.toInt64 * 1000000000).toInt = sum.sec.toInt % size.toInt64.toInt * 1000000000 := by
    rw [toInt_mul_of_fits (by rw [remainder, thousandMillion]; exact ⟨by omega, by omega⟩), remainder, thousandMillion]
  have productNonneg : 0 ≤ (sum.sec % size.toInt64 * 1000000000).toInt := by omega
  have productBelow : (sum.sec % size.toInt64 * 1000000000).toInt < 2 ^ 31 * 1000000000 := by omega
  have left := toInt_div_of_nonneg nonneg divisor
  have right := toInt_div_of_nonneg productNonneg divisor
  have leftNonneg := Int.ediv_nonneg nonneg divisor.le
  have leftSmall := Int.ediv_le_self size.toInt64.toInt nonneg
  have rightNonneg := Int.ediv_nonneg productNonneg divisor.le
  have rightSmall := Int.ediv_le_self size.toInt64.toInt productNonneg
  have present : size ≠ 0 := by
    rintro rfl
    simp at positive
  rw [calcAverage, if_neg present]
  simp only [exact, Timespec.mk.injEq]
  constructor
  · rw [toInt_div_of_nonneg secNonneg divisor, width]
  · have fits : Fits ((sum.nsec / size.toInt64).toInt + (sum.sec % size.toInt64 * 1000000000 / size.toInt64).toInt) := by
      rw [left, right]
      exact fits_add leftNonneg (leftSmall.trans_lt below) rightNonneg (rightSmall.trans_lt productBelow)
    rw [toInt_add_of_fits fits, left, right, product, width]

/-- Both truncations together lose less than two nanoseconds a sample, and leave the nanoseconds
below a second. -/
theorem average_bounds (sec : Int) {nsec size : Int} (positive : 1 ≤ size) (nonneg : 0 ≤ nsec) (below : nsec < 1000000000) :
    (Timespec.mk (sec / size) (nsec / size + sec % size * 1000000000 / size)).Normalised ∧
      0 ≤ nanos ⟨sec, nsec⟩ - size * nanos ⟨sec / size, nsec / size + sec % size * 1000000000 / size⟩ ∧
        nanos ⟨sec, nsec⟩ - size * nanos ⟨sec / size, nsec / size + sec % size * 1000000000 / size⟩ < 2 * size := by
  have divisor : 0 < size := by omega
  have seconds := Int.mul_ediv_add_emod sec size
  have small := Int.mul_ediv_add_emod nsec size
  have large := Int.mul_ediv_add_emod (sec % size * 1000000000) size
  have remainderNonneg := Int.emod_nonneg sec divisor.ne'
  have remainderBelow := Int.emod_lt_of_pos sec divisor
  have smallNonneg := Int.emod_nonneg nsec divisor.ne'
  have smallBelow := Int.emod_lt_of_pos nsec divisor
  have largeNonneg := Int.emod_nonneg (sec % size * 1000000000) divisor.ne'
  have largeBelow := Int.emod_lt_of_pos (sec % size * 1000000000) divisor
  have lost : nanos ⟨sec, nsec⟩ - size * nanos ⟨sec / size, nsec / size + sec % size * 1000000000 / size⟩ =
      nsec % size + sec % size * 1000000000 % size := by
    simp only [nanos]
    linear_combination (-1000000000) * seconds - small - large
  refine ⟨⟨?_, ?_⟩, by omega, by omega⟩
  · exact Int.add_nonneg (Int.ediv_nonneg nonneg divisor.le) (Int.ediv_nonneg (by omega) divisor.le)
  · apply Int.lt_of_mul_lt_mul_left _ divisor.le
    calc size * (nsec / size + sec % size * 1000000000 / size)
        = nsec - nsec % size + (sec % size * 1000000000 - sec % size * 1000000000 % size) := by
          linear_combination small + large
      _ < size * 1000000000 := by omega

end Average

def totalNanos {P : Type} (deref : P → Timespec Int64) (array : List P) : Int :=
  (array.map fun p => (deref p).exact.nanos).sum

/-- The two sums are the exact total, and the average is the total divided by the number of
samples up to two nanoseconds. -/
structure Averaged {P : Type} (deref : P → Timespec Int64) (array : List P) (size : Int32) : Prop where
  same : calcSum deref array size = calcSum2 (array.map deref) size
  sumNormalised : (calcSum deref array size).exact.Normalised
  total : (calcSum deref array size).exact.nanos = totalNanos deref array
  averageNormalised : (calcAverage (calcSum deref array size) size).exact.Normalised
  lower : 0 ≤ totalNanos deref array - size.toInt * (calcAverage (calcSum deref array size) size).exact.nanos
  upper : totalNanos deref array - size.toInt * (calcAverage (calcSum deref array size) size).exact.nanos < 2 * size.toInt

/-- The average is right whenever the seconds of the total fit into 64 bits. -/
theorem calcAverage_within_two_nanoseconds {P : Type} (deref : P → Timespec Int64) (array : List P) (size : Int32)
    (positive : 1 ≤ size.toInt) (length : array.length = size.toInt) (samples : ∀ p ∈ array, Sample (deref p))
    (fits : totalNanos deref array < 2 ^ 63 * 1000000000) : Averaged deref array size := by
  have all : ∀ t ∈ array.map deref, Sample t := by
    intro t member
    obtain ⟨p, found, rfl⟩ := List.mem_map.mp member
    exact samples p found
  have same : ((array.map deref).map fun t => t.exact.nanos).sum = totalNanos deref array := by
    rw [List.map_map]
    rfl
  have whole : size.toNatClampNeg = (array.map deref).length := by
    rw [List.length_map]
    exact (congrArg Int.toNat length.symm).trans (Int.toNat_natCast _)
  have summed : calcSum deref array size = (array.map deref).foldl accumulate ⟨0, 0⟩ := by
    rw [calcSum_eq, calcSum2, whole, List.take_length]
  obtain ⟨sample, total⟩ := foldl_accumulate Sample.zero all (by rw [same]; simpa [nanos] using fits)
  rw [← summed] at sample total
  rw [same, show (exact ⟨0, 0⟩).nanos = 0 from rfl, Int.zero_add] at total
  obtain ⟨normalised, lower, upper⟩ := average_bounds (calcSum deref array size).exact.sec positive
    sample.normalised.nonneg sample.normalised.below
  have average := exact_calcAverage sample positive
  refine ⟨calcSum_eq deref array size, sample.normalised, total, ?_, ?_, ?_⟩
  · rw [average]
    exact normalised
  · rw [average, ← total]
    exact lower
  · rw [average, ← total]
    exact upper

/-- A carry, and a total of 5 s that three samples do not divide. -/
theorem calcAverage_within_two_nanoseconds_carry : Averaged id [⟨1, 999999999⟩, ⟨1, 1⟩, ⟨2, 0⟩] 3 := by
  refine calcAverage_within_two_nanoseconds id [⟨1, 999999999⟩, ⟨1, 1⟩, ⟨2, 0⟩] 3 (by decide) (by decide) ?_ (by decide)
  intro t member
  simp only [List.mem_cons, List.not_mem_nil, or_false] at member
  rcases member with rfl | rfl | rfl <;> exact ⟨by decide, by decide⟩

end Oreo.OsEval
