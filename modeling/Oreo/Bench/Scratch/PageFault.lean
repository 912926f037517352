import Oreo.Bench.Scratch.Allocations
import Oreo.Bench.Scratch.ReadTest
import Oreo.Utils.CreateAndFill.Postcondition

namespace Oreo.Bench.Scratch

open Oreo.Posix Oreo.Posix.Action Oreo.Transition Oreo.Transition.Effect Oreo.Utils

/-! # The two allocations that `page_fault_test` does not check -/

namespace PageFault

/-- `fd` belongs to a file with these contents. -/
def Maps (fs : Files) (fd : Nat) (contents : List UInt8) : Prop :=
  ∃ d, fs.description fd = some d ∧ fs.bytes d.file = contents

/-- There are bytes in the file, so that a load from its mapping returns. -/
def Stocked (o : Outcomes) (fileSize : Nat) (fs : Files) : Prop :=
  0 < o.fill.transferred fileSize ∨ leftover o.fill leFilePath fs ≠ []

/-- What keeps the test from using a result it has not checked: there is no file, or
`init_diff_array` returns memory and so do the calls of `mmap`, as far as the test gets. In an
empty file it gets to the first load. -/
def Checked (o : Outcomes) (fileSize iterCnt : Nat) (fs : Files) : Prop :=
  o.fill.allocated = false ∨ o.fill.opened = false ∨
    o.diffs = true ∧ ∀ idx < iterCnt, idx = 0 ∨ Stocked o fileSize fs → o.mmap idx = true

variable {o : Outcomes} {fd idx : Nat} {h : Host} {contents : List UInt8} {l : Locals}

section Load

variable (maps : Maps h.files fd contents)
include maps

theorem mmap_granted (granted : o.mmap idx = true) :
    ∃ file, (mmap (o.mmap idx) fd).result h = (.ok (some file), h) ∧ h.files.bytes file = contents := by
  obtain ⟨d, found, bytes⟩ := maps
  refine ⟨d.file, ?_, bytes⟩
  simp [mmap, granted, found, result_bind]

theorem timedLoad_empty (granted : o.mmap idx = true) (empty : contents = []) :
    (timedLoad o fd idx l).result h = (.error .bus, h) := by
  obtain ⟨file, mapped, bytes⟩ := mmap_granted maps granted
  rw [empty] at bytes
  rw [timedLoad, result_bind_ok mapped]
  simp [firstByte, bytes, result_bind]

theorem timedLoad_null (granted : o.mmap idx = true) (stocked : contents ≠ []) (null : l.diffs = none) :
    (timedLoad o fd idx l).result h = (.error .nullPointer, h) := by
  obtain ⟨file, mapped, bytes⟩ := mmap_granted maps granted
  cases contents with
  | nil => contradiction
  | cons byte rest =>
      rw [timedLoad, result_bind_ok mapped]
      simp [firstByte, bytes, munmap, store, dereference, null, result_bind]

theorem timedLoad_stored (granted : o.mmap idx = true) (stocked : contents ≠ []) {diffs : List Nat}
    (memory : l.diffs = some diffs) :
    ∃ a, (timedLoad o fd idx l).result h = (.ok (true, ⟨some (diffs.set idx (o.duration idx)), a⟩), h) := by
  obtain ⟨file, mapped, bytes⟩ := mmap_granted maps granted
  cases contents with
  | nil => contradiction
  | cons byte rest =>
      refine ⟨l.a + byte, ?_⟩
      rw [timedLoad, result_bind_ok mapped]
      simp [firstByte, bytes, munmap, memory, result_bind, Except.map]

end Load

theorem timedLoad_unmapped (refused : o.mmap idx = false) :
    (timedLoad o fd idx l).result h = (.error .mapFailed, h.exhaust) := by
  simp [timedLoad, mmap, refused, firstByte, result_bind]

theorem timedLoad_loop (maps : Maps h.files fd contents) (stocked : contents ≠ []) (remaining idx : Nat) {diffs : List Nat}
    (memory : l.diffs = some diffs) (granted : ∀ i, idx ≤ i → i < idx + remaining → o.mmap i = true) :
    ∃ l' diffs', l'.diffs = some diffs' ∧ (loop (timedLoad o fd) remaining idx l).result h = (.ok (true, l'), h) := by
  induction remaining generalizing idx l diffs with
  | zero => exact ⟨l, diffs, memory, rfl⟩
  | succ remaining ih =>
      obtain ⟨a, first⟩ := timedLoad_stored maps (granted idx (Nat.le_refl _) (by omega)) stocked memory
      rw [result_loop_next remaining first]
      exact ih (idx + 1) rfl fun i lower upper => granted i (by omega) (by omega)

theorem timedLoad_loop_unmapped (maps : Maps h.files fd contents) (stocked : contents ≠ []) (remaining idx : Nat)
    {diffs : List Nat} (memory : l.diffs = some diffs) {i : Nat} (lower : idx ≤ i) (upper : i < idx + remaining)
    (refused : o.mmap i = false) : ((loop (timedLoad o fd) remaining idx l).result h).1 = .error .mapFailed := by
  induction remaining generalizing idx l diffs with
  | zero => omega
  | succ remaining ih =>
      cases granted : o.mmap idx with
      | false => rw [result_loop_error remaining (timedLoad_unmapped granted)]
      | true =>
          obtain ⟨a, first⟩ := timedLoad_stored maps granted stocked memory
          have later : idx ≠ i := by
            intro same
            rw [same, refused] at granted
            contradiction
          rw [result_loop_next remaining first]
          exact ih (idx + 1) rfl (by omega) (by omega)

theorem body_unchecked_diffs (iterCnt : Nat) (maps : Maps h.files fd contents) (failed : h.exhausted = true) :
    ¬ ChecksAllocations (body o iterCnt none fd) h := by
  intro checks
  obtain ⟨notNull, notFailed, reports⟩ := checks
  cases iterCnt with
  | zero => exact notNull rfl
  | succ iterCnt =>
      rw [body] at notNull notFailed reports
      cases granted : o.mmap 0 with
      | false =>
          rw [result_bind_error (result_loop_error iterCnt (timedLoad_unmapped granted))] at notFailed
          exact notFailed rfl
      | true =>
          by_cases empty : contents = []
          · rw [result_bind_error (result_loop_error iterCnt (timedLoad_empty maps granted empty))] at reports
            have returned := reports failed
            contradiction
          · rw [result_bind_error (result_loop_error iterCnt (timedLoad_null maps granted empty rfl))] at notNull
            exact notNull rfl

/-- With an array for the samples all depends on the mappings. -/
theorem body_checks_iff (iterCnt : Nat) (maps : Maps h.files fd contents) (fresh : Fresh h) (diffs : List Nat) :
    ChecksAllocations (body o iterCnt (some diffs) fd) h ↔
      ∀ idx < iterCnt, idx = 0 ∨ contents ≠ [] → o.mmap idx = true := by
  have completes (l : Locals) (diffs' : List Nat) (memory : l.diffs = some diffs')
      (looped : (loop (timedLoad o fd) iterCnt 0 ⟨some diffs, 0⟩).result h = (.ok (true, l), h)) :
      ChecksAllocations (body o iterCnt (some diffs) fd) h := by
    have ended : (body o iterCnt (some diffs) fd).result h = (.ok false, { h.append [.collect diffs'] with
        files := if o.devNull then printDevNull [l.a, '\n'.toUInt8] h.files else h.files }) := by
      rw [body, result_bind_ok looped]
      simp [memory, result_bind, changeFiles, Except.map]
    unfold ChecksAllocations
    rw [ended]
    refine ⟨by simp, by simp, ?_⟩
    intro failed
    have fresh' : h.exhausted = false := fresh
    simp [fresh'] at failed
  by_cases empty : contents = []
  · cases iterCnt with
    | zero => exact iff_of_true (completes _ diffs rfl rfl) (by simp)
    | succ iterCnt =>
        have first : (∀ idx < iterCnt + 1, idx = 0 ∨ contents ≠ [] → o.mmap idx = true) ↔ o.mmap 0 = true := by
          constructor
          · exact fun reached => reached 0 (Nat.succ_pos _) (.inl rfl)
          · intro granted idx _ either
            rcases either with rfl | stocked
            · exact granted
            · exact absurd empty stocked
        rw [first]
        unfold ChecksAllocations
        rw [body]
        cases granted : o.mmap 0 with
        | false =>
            rw [result_bind_error (result_loop_error iterCnt (timedLoad_unmapped granted))]
            simp
        | true =>
            rw [result_bind_error (result_loop_error iterCnt (timedLoad_empty maps granted empty))]
            have fresh' : h.exhausted = false := fresh
            simp [fresh']
  · simp only [ne_eq, empty, not_false_eq_true, or_true, true_implies]
    by_cases all : ∀ idx < iterCnt, o.mmap idx = true
    · obtain ⟨l, diffs', memory, looped⟩ := timedLoad_loop maps empty iterCnt 0 (l := ⟨some diffs, 0⟩) rfl
        fun i _ upper => all i (by omega)
      exact iff_of_true (completes l diffs' memory looped) all
    · obtain ⟨i, upper, refused⟩ : ∃ i, i < iterCnt ∧ o.mmap i = false := by simpa using all
      have failed := timedLoad_loop_unmapped maps empty iterCnt 0 (l := ⟨some diffs, 0⟩) rfl (Nat.zero_le i) (by omega) refused
      refine iff_of_false ?_ all
      intro checks
      apply checks.2.1
      rw [body, result_bind]
      generalize (loop (timedLoad o fd) iterCnt 0 ⟨some diffs, 0⟩).result h = r at failed ⊢
      obtain ⟨ended, h'⟩ := r
      obtain rfl : ended = .error .mapFailed := failed
      rfl

end PageFault

theorem filled_checks_iff {o : Outcomes} {path : String} {fileSize : Nat} {body : Nat → Action Bool} {h h' : Host} {fd : Nat}
    (made : (createFile o.fill fileSize).result h = (.ok (some fd), h')) :
    ChecksAllocations (filled o path fileSize body) h ↔ ChecksAllocations (body fd) h' := by
  unfold ChecksAllocations
  rw [filled, result_bind_ok made, result_bind]
  simp only [withFile]
  generalize (body fd).result h' = r
  obtain ⟨e | ret, h''⟩ := r <;> rfl

namespace PageFault

theorem run_checks_iff (o : Outcomes) (fileSize iterCnt : Nat) (h : Host) (fresh : Fresh h) :
    ChecksAllocations (run o fileSize iterCnt) h ↔ Checked o fileSize iterCnt h.files := by
  have start : ChecksAllocations (run o fileSize iterCnt) h ↔
      ChecksAllocations (filled o leFilePath fileSize
        (body o iterCnt (if o.diffs then some (initDiffArray iterCnt) else none))) (if o.diffs then h else h.exhaust) := by
    unfold ChecksAllocations
    rw [run, result_bind_ok (result_allocate h _ _)]
  have files : (if o.diffs then h else h.exhaust).files = h.files := by split <;> rfl
  rw [start]
  by_cases noFile : o.fill.allocated = false ∨ o.fill.opened = false
  · refine iff_of_true ?_ (or_assoc.mp (.inl noFile))
    have none : (createAndFill o.fill leFilePath fileSize 'a'.toUInt8 h.files).2 = none := (createAndFill_none _ _ _ _).mpr noFile
    have made := result_createFile fileSize o.fill (if o.diffs then h else h.exhaust)
    rw [files, none] at made
    apply checksAllocations_of_true
    rw [filled, result_bind_ok made]
    simp [withFile, close, remove, changeFiles, result_bind, Except.map]
  · obtain ⟨allocated, opened⟩ : o.fill.allocated = true ∧ o.fill.opened = true := by simpa using noFile
    obtain ⟨fd, d, returned, found, bytes⟩ := createAndFill_contents leFilePath fileSize 'a'.toUInt8 h.files allocated opened
    have made := result_createFile fileSize o.fill (if o.diffs then h else h.exhaust)
    rw [files, returned, allocated, Bool.not_true, Bool.or_false] at made
    rw [filled_checks_iff made]
    have stocked : Stocked o fileSize h.files ↔ List.replicate (o.fill.transferred fileSize) 'a'.toUInt8 ++
        (leftover o.fill leFilePath h.files).drop (o.fill.transferred fileSize) ≠ [] := by
      unfold Stocked
      cases o.fill.transferred fileSize <;> simp
    have maps : Maps (createAndFill o.fill leFilePath fileSize 'a'.toUInt8 h.files).1 fd _ := ⟨d, found, bytes⟩
    simp only [Checked, allocated, opened, Bool.true_eq_false, false_or, stocked]
    cases diffs : o.diffs with
    | false =>
        simp only [Bool.false_eq_true, if_false, false_and]
        refine iff_of_false ?_ not_false
        exact body_unchecked_diffs iterCnt maps rfl
    | true =>
        simp only [if_true, true_and]
        refine body_checks_iff iterCnt maps ?_ _
        exact fresh

end PageFault

end Oreo.Bench.Scratch
