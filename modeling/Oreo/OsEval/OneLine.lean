import Oreo.OsEval.Agreement
import Oreo.OsEval.Average
import Oreo.OsEval.NullResult
import Oreo.OsEval.ResultsFile

namespace Oreo.OsEval

open Oreo.Posix Oreo.Posix.Timespec Oreo.Tables Oreo.Utils

/-! # From the readings of the clock to the rows of the file -/

/-- What the clock reads around the calls that the rounds of a test time. It does not go back. -/
structure Stopwatch where
  start : Nat → Timespec Int64
  stop : Nat → Timespec Int64
  started : ∀ i, Sample (start i)
  stopped : ∀ i, Sample (stop i)
  forward : ∀ i, (start i).exact.nanos ≤ (stop i).exact.nanos
  ordered : ∀ i, (stop i).exact.nanos ≤ (start (i + 1)).exact.nanos

namespace Stopwatch

variable (watch : Stopwatch)

/-- `add_diff_to_sum(diffTime, endTime, startTime)` at the end of a test function. -/
def test (i : Nat) (diffTime : Timespec Int64) : Timespec Int64 := addDiffToSum diffTime (watch.stop i) (watch.start i)

def elapsed (i : Nat) : Int := (watch.stop i).exact.nanos - (watch.start i).exact.nanos

def total (runs : Nat) : Int := ((List.range runs).map watch.elapsed).sum

end Stopwatch

/-! ## The arithmetic of the difference -/

section Difference

variable {a b : Timespec Int64}

theorem nanos_lt_of_sample {t : Timespec Int64} (sample : Sample t) : t.exact.nanos < 2 ^ 63 * 1000000000 := by
  have below := sample.normalised.below
  have bound := t.sec.toInt_lt
  simp only [nanos, exact_sec, exact_nsec] at below ⊢
  omega

/-- A difference of two readings is exact. -/
theorem exact_addDiffToSum_zero (late : Sample a) (early : Sample b) :
    (addDiffToSum ⟨0, 0⟩ a b).exact = addDiffToSum ⟨0, 0⟩ a.exact b.exact := by
  obtain ⟨⟨lateNonneg, lateBelow⟩, lateSec⟩ := late
  obtain ⟨⟨earlyNonneg, earlyBelow⟩, earlySec⟩ := early
  simp only [exact_sec, exact_nsec] at lateNonneg lateBelow lateSec earlyNonneg earlyBelow earlySec
  have lateBound := a.sec.toInt_lt
  have earlyBound := b.sec.toInt_lt
  have thousandMillion : (1000000000 : Int64).toInt = 1000000000 := by decide
  have one : (1 : Int64).toInt = 1 := by decide
  have nsec : (a.nsec - b.nsec).toInt = a.nsec.toInt - b.nsec.toInt := toInt_sub_of_fits ⟨by omega, by omega⟩
  have sec : (a.sec - b.sec).toInt = a.sec.toInt - b.sec.toInt := toInt_sub_of_fits ⟨by omega, by omega⟩
  have borrowed : (1000000000 + a.nsec : Int64).toInt = 1000000000 + a.nsec.toInt := by
    rw [toInt_add_of_fits ⟨by omega, by omega⟩, thousandMillion]
  have small : ¬ a.nsec.toInt - b.nsec.toInt ≥ 1000000000 := by omega
  unfold addDiffToSum
  simp only [exact_sec, exact_nsec, Int64.zero_add, Int.zero_add, Int64.add_zero, Int.add_zero, ge_iff_le,
    Int64.lt_iff_toInt_lt, Int64.le_iff_toInt_le, nsec, thousandMillion]
  rw [if_neg small, if_neg small]
  split
  · simp only [exact, Timespec.mk.injEq]
    constructor
    · rw [toInt_sub_of_fits ⟨by omega, by omega⟩, sec, one]
    · rw [toInt_sub_of_fits ⟨by omega, by omega⟩, borrowed]
  · simp only [exact, Timespec.mk.injEq]
    exact ⟨sec, nsec⟩

theorem addDiffToSum_zero (late : Sample a) (early : Sample b) (forward : b.exact.nanos ≤ a.exact.nanos) :
    Sample (addDiffToSum ⟨0, 0⟩ a b) ∧ (addDiffToSum ⟨0, 0⟩ a b).exact.nanos = a.exact.nanos - b.exact.nanos := by
  have exact := exact_addDiffToSum_zero late early
  have zero : (⟨0, 0⟩ : Timespec Int).Normalised := ⟨by decide, by decide⟩
  have normalised := addDiffToSum_normalised zero late.normalised early.normalised
  have difference : (addDiffToSum ⟨0, 0⟩ a b).exact.nanos = a.exact.nanos - b.exact.nanos := by
    rw [exact, addDiffToSum_nanos]
    exact Int.zero_add _
  rw [← exact] at normalised
  exact ⟨⟨normalised, (sec_nonneg_iff normalised).mpr (by omega)⟩, difference⟩

end Difference

/-! ## The array of a test -/

namespace Stopwatch

variable (watch : Stopwatch) (info : TestInfo)

theorem test_sample (i : Nat) : Sample (watch.test i ⟨0, 0⟩) ∧ (watch.test i ⟨0, 0⟩).exact.nanos = watch.elapsed i :=
  addDiffToSum_zero (watch.stopped i) (watch.started i) (watch.forward i)

/-- The rounds do not overlap. -/
theorem total_le (runs : Nat) : watch.total runs ≤ (watch.start runs).exact.nanos - (watch.start 0).exact.nanos := by
  induction runs with
  | zero => simp [total]
  | succ runs ih =>
      have ordered := watch.ordered runs
      rw [total, List.range_succ, List.map_append, List.sum_append]
      simp only [List.map_cons, List.map_nil, List.sum_singleton]
      rw [total] at ih
      simp only [elapsed] at ih ⊢
      omega

theorem total_fits (runs : Nat) : watch.total runs < 2 ^ 63 * 1000000000 := by
  have bound := watch.total_le runs
  have last := nanos_lt_of_sample (watch.started runs)
  have first := (watch.started 0).nanos_nonneg
  omega

theorem fill_samples : ∀ t ∈ fill info watch.test, Sample t := by
  intro t member
  obtain ⟨i, -, rfl⟩ := List.mem_map.mp member
  exact (watch.test_sample i).1

theorem fill_total : ((fill info watch.test).map fun t => t.exact.nanos).sum = watch.total info.iter.toNatClampNeg := by
  rw [fill, List.map_map, total]
  congr 1
  exact List.map_congr_left fun i _ => (watch.test_sample i).2

/-- The mean is the total over the number of runs up to two nanoseconds. -/
theorem exists_mean (positive : 1 ≤ info.iter.toInt) :
    ∃ mean : Duration, average (fill info watch.test) info.iter = mean.time ∧
      0 ≤ watch.total info.iter.toNatClampNeg - info.iter.toInt * mean.time.nanos ∧
        watch.total info.iter.toNatClampNeg - info.iter.toInt * mean.time.nanos < 2 * info.iter.toInt := by
  have whole : (fill info watch.test).length = info.iter.toNatClampNeg := by simp [fill]
  have summed : calcSum2 (fill info watch.test) info.iter = (fill info watch.test).foldl accumulate ⟨0, 0⟩ := by
    rw [calcSum2, ← whole, List.take_length]
  obtain ⟨sample, total⟩ := foldl_accumulate Sample.zero (watch.fill_samples info)
    (by rw [watch.fill_total]; simpa [nanos, exact] using watch.total_fits _)
  rw [← summed] at sample total
  rw [watch.fill_total, show (exact ⟨0, 0⟩).nanos = 0 from rfl, Int.zero_add] at total
  obtain ⟨normalised, lower, upper⟩ := average_bounds (calcSum2 (fill info watch.test) info.iter).exact.sec positive
    sample.normalised.nonneg sample.normalised.below
  have divided := exact_calcAverage sample positive
  refine ⟨⟨_, normalised, Int.ediv_nonneg sample.nonneg (by omega)⟩, divided, ?_, ?_⟩
  · rw [← total]
    exact lower
  · rw [← total]
    exact upper

end Stopwatch

/-! ## The best sample -/

/-- The samples for which `calc_k_closest` returns `NULL`. -/
def NoBest (samples : List (Timespec Int64)) : Prop :=
  LastFar (qsort comp (samples.map exact)) (qsort comp (samples.map exact)).length ∧ ¬ Fills (qsort comp (samples.map exact))

theorem kbest_cases {samples : List (Timespec Int64)} (nonempty : samples ≠ []) :
    NoBest samples ∧ kbest samples = .ok none ∨ ¬ NoBest samples ∧ ∃ t ∈ samples, kbest samples = .ok (some t.exact) := by
  have permuted : (qsort comp (samples.map exact)).Perm (samples.map exact) := List.mergeSort_perm _ _
  obtain ⟨pointer, result, chosen⟩ := calcKClosest_eq (rounds_any _) trivial (List.map_eq_nil_iff.not.mpr nonempty)
  cases pointer with
  | none => exact .inl ⟨chosen.null.mp rfl, by simp only [kbest, result]⟩
  | some index =>
      have bound := chosen.inside index rfl
      obtain ⟨t, found, same⟩ := List.mem_map.mp (permuted.mem_iff.mp (List.getElem_mem bound))
      refine .inr ⟨fun none => ?_, t, found, ?_⟩
      · have null := chosen.null.mpr none
        contradiction
      · simp only [kbest, result, List.getElem?_eq_getElem bound, same]

/-! ## The rows of a test -/

/-- A test function that times its rounds, with the array or the two arrays it fills. -/
inductive TimedTest where
  | oneLine (info : TestInfo) (watch : Stopwatch)
  | twoLine (info : TestInfo) (child parent : Stopwatch)

namespace TimedTest

def info : TimedTest → TestInfo
  | .oneLine info _ => info
  | .twoLine info _ _ => info

def test : TimedTest → Test
  | .oneLine info watch => .oneLine info watch.test
  | .twoLine info child parent => .twoLine info child.test parent.test

/-- In the order of the rows. -/
def watches : TimedTest → List Stopwatch
  | .oneLine _ watch => [watch]
  | .twoLine _ child parent => [parent, child]

end TimedTest

/-- What the two rows of an array show. -/
structure Summary (info : TestInfo) (watch : Stopwatch) (best mean : Duration) : Prop where
  member : ∃ i < info.iter.toNatClampNeg, best.time = (watch.test i ⟨0, 0⟩).exact
  lower : 0 ≤ watch.total info.iter.toNatClampNeg - info.iter.toInt * mean.time.nanos
  upper : watch.total info.iter.toNatClampNeg - info.iter.toInt * mean.time.nanos < 2 * info.iter.toInt

/-- The durations in the rows of an array after another. -/
inductive Summaries (info : TestInfo) : List Stopwatch → List Duration → Prop where
  | nil : Summaries info [] []
  | cons {watch watches best mean column} : Summary info watch best mean → Summaries info watches column →
      Summaries info (watch :: watches) (best :: mean :: column)

theorem summary_of_best (info : TestInfo) (watch : Stopwatch) (positive : 1 ≤ info.iter.toInt)
    (best : ¬ NoBest (fill info watch.test)) :
    ∃ best mean, Summary info watch best mean ∧ kbest (fill info watch.test) = .ok (some best.time) ∧
      average (fill info watch.test) info.iter = mean.time := by
  have runs : 0 < info.iter.toNatClampNeg := by
    change 0 < info.iter.toInt.toNat
    omega
  have nonempty : fill info watch.test ≠ [] := by simp [fill, runs.ne']
  obtain ⟨mean, averaged, lower, upper⟩ := watch.exists_mean info positive
  rcases kbest_cases nonempty with ⟨none, -⟩ | ⟨-, t, member, returned⟩
  · contradiction
  · have sample := watch.fill_samples info t member
    obtain ⟨i, inside, rfl⟩ := List.mem_map.mp member
    exact ⟨⟨_, sample.normalised, sample.nonneg⟩, mean, ⟨⟨i, List.mem_range.mp inside, rfl⟩, lower, upper⟩, returned, averaged⟩

/-- `calc_k_closest` returns `NULL` for an array of the test. -/
def TimedTest.Fails (test : TimedTest) : Prop := ∃ watch ∈ test.watches, NoBest (fill test.info watch.test)

/-- The results of `calc_k_closest` on both arrays are there before anything is printed. -/
theorem twoLineTest_null {info : TestInfo} {f g : Nat → Timespec Int64 → Timespec Int64} {parent child : Option (Timespec Int)}
    (parentIs : kbest (fill info g) = .ok parent) (childIs : kbest (fill info f) = .ok child)
    (null : parent = none ∨ child = none) (fuel : Nat) (s : Sheets) : twoLineTest true fuel info f g s = .error .nullPointer := by
  simp only [twoLineTest, parentIs, childIs, bind, Except.bind]
  cases parent with
  | none => rfl
  | some t =>
      obtain rfl : child = none := by simpa using null
      rfl

theorem kbest_ok {samples : List (Timespec Int64)} (nonempty : samples ≠ []) :
    ∃ best, kbest samples = .ok best ∧ (best = none ↔ NoBest samples) := by
  rcases kbest_cases nonempty with ⟨null, returned⟩ | ⟨best, t, -, returned⟩
  · exact ⟨none, returned, iff_of_true rfl null⟩
  · exact ⟨some t.exact, returned, iff_of_false (by simp) best⟩

theorem TimedTest.perform_fails {test : TimedTest} (positive : 1 ≤ test.info.iter.toInt) (fails : test.Fails) (fuel : Nat)
    (s : Sheets) : test.test.perform true fuel s = .error .nullPointer := by
  have runs : 0 < test.info.iter.toNatClampNeg := by
    change 0 < test.info.iter.toInt.toNat
    omega
  have nonempty (watch : Stopwatch) : fill test.info watch.test ≠ [] := by simp [fill, runs.ne']
  obtain ⟨watch, member, fails⟩ := fails
  cases test with
  | oneLine info only =>
      obtain rfl := List.mem_singleton.mp member
      obtain ⟨best, returned, null⟩ := kbest_ok (nonempty watch)
      obtain rfl := null.mpr fails
      have returned : kbest (fill info watch.test) = .ok none := returned
      simp only [test, Test.perform, oneLineTest, report, returned]
      rfl
  | twoLine info child parent =>
      obtain ⟨best, returned, null⟩ := kbest_ok (nonempty parent)
      obtain ⟨bestChild, returnedChild, nullChild⟩ := kbest_ok (nonempty child)
      refine twoLineTest_null returned returnedChild ?_ fuel s
      simp only [watches, List.mem_cons, List.not_mem_nil, or_false] at member
      rcases member with rfl | rfl
      · exact .inl (null.mpr fails)
      · exact .inr (nullChild.mpr fails)

theorem TimedTest.exists_yields {test : TimedTest} (positive : 1 ≤ test.info.iter.toInt) (works : ¬ test.Fails) :
    ∃ column, Summaries test.info test.watches column ∧ test.test.Yields column := by
  cases test with
  | oneLine info watch =>
      obtain ⟨best, mean, summary, returned, averaged⟩ := summary_of_best info watch positive
        fun fails => works ⟨watch, List.mem_singleton_self _, fails⟩
      exact ⟨[best, mean], .cons summary .nil, .oneLine returned averaged⟩
  | twoLine info child parent =>
      obtain ⟨best, mean, summary, returned, averaged⟩ := summary_of_best info parent positive
        fun fails => works ⟨parent, List.mem_cons_self, fails⟩
      obtain ⟨bestChild, meanChild, summaryChild, returnedChild, averagedChild⟩ := summary_of_best info child positive
        fun fails => works ⟨child, List.mem_cons_of_mem _ (List.mem_singleton_self _), fails⟩
      exact ⟨[best, mean, bestChild, meanChild], .cons summary (.cons summaryChild .nil),
        .twoLine returned averaged returnedChild averagedChild⟩

theorem performAll_cases (tests : List TimedTest) (positive : ∀ test ∈ tests, 1 ≤ test.info.iter.toInt) :
    (∃ test ∈ tests, test.Fails) ∧ (∀ fuel s, performAll true fuel (tests.map TimedTest.test) s = .error .nullPointer) ∨
      (∀ test ∈ tests, ¬ test.Fails) ∧ ∃ columns,
        List.Forall₂ (fun (test : TimedTest) column => Summaries test.info test.watches column) tests columns ∧
          Yields (tests.map TimedTest.test) columns.flatten := by
  induction tests with
  | nil => exact .inr ⟨by simp, [], .nil, .nil⟩
  | cons test tests ih =>
      obtain ⟨here, there⟩ := List.forall_mem_cons.mp positive
      by_cases fails : test.Fails
      · refine .inl ⟨⟨test, List.mem_cons_self, fails⟩, fun fuel s => ?_⟩
        rw [performAll, List.map_cons, List.foldlM_cons, TimedTest.perform_fails here fails]
        rfl
      · obtain ⟨column, summaries, yields⟩ := TimedTest.exists_yields here fails
        rcases ih there with ⟨⟨other, member, fails⟩, crash⟩ | ⟨allWork, columns, all, allYield⟩
        · refine .inl ⟨⟨other, List.mem_cons_of_mem _ member, fails⟩, fun fuel s => ?_⟩
          rw [performAll, List.map_cons, List.foldlM_cons, yields.first]
          exact crash fuel _
        · exact .inr ⟨List.forall_mem_cons.mpr ⟨fails, allWork⟩, column :: columns, .cons summaries all, .cons yields allYield⟩

/-- Where all samples of an array are the same, none is far from the one before it. -/
theorem not_noBest_of_constant {samples : List (Timespec Int64)} (t : Timespec Int64)
    (same : ∀ sample ∈ samples, sample = t) : ¬ NoBest samples := by
  have constant : qsort comp (samples.map exact) = List.replicate samples.length t.exact := by
    rw [← List.perm_replicate]
    refine (List.mergeSort_perm _ _).trans (List.Perm.of_eq ?_)
    rw [List.eq_replicate_iff.mpr ⟨rfl, same⟩, List.map_replicate, List.length_replicate]
  have near : gap t.exact t.exact ≠ .far := by
    have notFar : isFar t.exact t.exact = false := by simp [isFar, inprecision]
    simp only [gap, notFar]
    split <;> simp
  intro noBest
  obtain ⟨⟨index, inside, far, -⟩, -⟩ := noBest
  rw [constant, List.length_replicate] at inside
  rw [constant] at far
  have before : index < samples.length := by omega
  simp only [gapAt, List.getElem?_replicate, inside, before, if_true, Option.some.injEq] at far
  exact near far

/-- A test whose rounds all take equally long prints its rows. -/
theorem TimedTest.not_fails_of_constant {test : TimedTest}
    (same : ∀ watch ∈ test.watches, ∀ i < test.info.iter.toNatClampNeg, watch.test i ⟨0, 0⟩ = watch.test 0 ⟨0, 0⟩) :
    ¬ test.Fails := by
  intro fails
  obtain ⟨watch, member, fails⟩ := fails
  refine not_noBest_of_constant (watch.test 0 ⟨0, 0⟩) (fun sample filled => ?_) fails
  obtain ⟨i, inside, rfl⟩ := List.mem_map.mp filled
  exact same watch member i (List.mem_range.mp inside)

/-- What the clock reads after `n` rounds, of which the first `rounds` take `nsec` nanoseconds each. -/
def reading (nsec rounds n : Nat) : Timespec Int64 := ⟨7, Int64.ofNat (min n rounds * nsec)⟩

section Reading

variable {nsec rounds : Nat} (short : rounds * nsec < 1000000000)
include short

theorem reading_nsec (n : Nat) : (reading nsec rounds n).nsec.toInt = (min n rounds * nsec : Nat) := by
  have bound : min n rounds * nsec ≤ rounds * nsec := Nat.mul_le_mul_right nsec (Nat.min_le_right n rounds)
  exact Int64.toInt_ofNat_of_lt (by omega)

theorem reading_sample (n : Nat) : Sample (reading nsec rounds n) := by
  have bound : min n rounds * nsec ≤ rounds * nsec := Nat.mul_le_mul_right nsec (Nat.min_le_right n rounds)
  refine ⟨⟨?_, ?_⟩, show (0 : Int) ≤ 7 by decide⟩
  · rw [exact_nsec, reading_nsec short]
    omega
  · rw [exact_nsec, reading_nsec short]
    omega

theorem reading_succ (n : Nat) : (reading nsec rounds n).exact.nanos ≤ (reading nsec rounds (n + 1)).exact.nanos := by
  have later : min n rounds * nsec ≤ min (n + 1) rounds * nsec := Nat.mul_le_mul_right nsec (by omega)
  simp only [nanos, exact_sec, exact_nsec, reading_nsec short]
  simp only [reading]
  omega

/-- No time passes between the rounds. -/
def steady : Stopwatch where
  start := reading nsec rounds
  stop i := reading nsec rounds (i + 1)
  started := reading_sample short
  stopped i := reading_sample short (i + 1)
  forward := reading_succ short
  ordered _ := Int.le_refl _

end Reading

/-- "ref" with one round, and "fork" with two. -/
def refFork : List TimedTest :=
  [.oneLine ⟨1, "ref", by decide, by decide⟩ (@steady 250 1 (by decide)),
    .twoLine ⟨2, "fork", by decide, by decide⟩ (@steady 300 2 (by decide)) (@steady 250 2 (by decide))]

/-- The tests of an iteration, from what the clock reads to the rows of the file: the program
dereferences `NULL` exactly if some array has no best sample, and else each pair of rows shows a
sample of the array and its mean. -/
theorem timed_tests_print (tests : List TimedTest) (positive : ∀ test ∈ tests, 1 ≤ test.info.iter.toInt) (copy : List Char) :
    (∃ test ∈ tests, test.Fails) ∧ (∀ fuel s, performAll true fuel (tests.map TimedTest.test) s = .error .nullPointer) ∨
      (∀ test ∈ tests, ¬ test.Fails) ∧ ∃ columns rows,
        List.Forall₂ (fun (test : TimedTest) column => Summaries test.info test.watches column) tests columns ∧
          (∀ fuel, performAll true fuel (tests.map TimedTest.test) ⟨[], copy⟩ = .ok ⟨rows, copy⟩) ∧
            Sheet.read Duration.cell rows = some ((((tests.map TimedTest.test).flatMap Test.labels).map RowLabel.text).zip
              (columns.flatten.map fun d => [d])) := by
  rcases performAll_cases tests positive with crash | ⟨works, columns, summaries, yields⟩
  · exact .inl crash
  · refine .inr ⟨works, columns, _, summaries, fun fuel => yields.first fuel _, ?_⟩
    rw [List.nil_append, Sheet.read_column]

/-- The rows of "ref" and "fork". -/
theorem timed_tests_print_fork : ∃ columns rows,
    List.Forall₂ (fun (test : TimedTest) column => Summaries test.info test.watches column) refFork columns ∧
      (∀ fuel, performAll true fuel (refFork.map TimedTest.test) ⟨[], []⟩ = .ok ⟨rows, []⟩) ∧
        Sheet.read Duration.cell rows = some ((((refFork.map TimedTest.test).flatMap Test.labels).map RowLabel.text).zip
          (columns.flatten.map fun d => [d])) := by
  have constant : ∀ test ∈ refFork, ∀ watch ∈ test.watches, ∀ i < test.info.iter.toNatClampNeg,
      watch.test i ⟨0, 0⟩ = watch.test 0 ⟨0, 0⟩ := by
    simp only [refFork, List.forall_mem_cons, TimedTest.watches, TimedTest.info]
    decide
  rcases timed_tests_print refFork (by simp [refFork, TimedTest.info]) [] with ⟨⟨test, member, fails⟩, -⟩ | ⟨-, printed⟩
  · exact absurd fails (TimedTest.not_fails_of_constant (constant test member))
  · exact printed

end Oreo.OsEval
