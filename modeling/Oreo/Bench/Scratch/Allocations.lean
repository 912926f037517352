import Oreo.Bench.Scratch.Model

namespace Oreo.Bench.Scratch

open Oreo.Posix Oreo.Posix.Action Oreo.Transition Oreo.Transition.Effect Oreo.Utils

/-! # Allocations that fail in the tests on the scratch file -/

variable {o : Outcomes}

theorem createFile_ensures (earlier : Prop) (o : FillOutcomes) (fileSize : Nat) :
    Ensures (fun h => earlier → Fresh h) (createFile o fileSize) fun fd h => fd.isSome = true → earlier → Fresh h := by
  intro h fresh
  refine ⟨_, _, rfl, ?_⟩
  intro made first
  cases allocated : o.allocated with
  | true => exact (congrArg (· || false) (fresh first)).trans rfl
  | false => simp [createAndFill, allocated] at made

theorem reported_files (ret : Bool) (h : Host) (fs : Files) (reported : Reported ret h) :
    Reported ret { h with files := fs } := reported

theorem filled_ensures (earlier : Prop) {path : String} {fileSize : Nat} {body : Nat → Action Bool}
    (tested : ∀ fd, Ensures (fun h => earlier → Fresh h) (body fd) Reported) :
    Ensures (fun h => earlier → Fresh h) (filled o path fileSize body) Reported := by
  refine .bind (createFile_ensures earlier o.fill fileSize) fun fd => ?_
  refine .bind (Q := Reported) ?_ fun ret => ?_
  · cases fd with
    | none => exact .pure fun h _ => reported_true h
    | some fd => exact (tested fd).strengthen fun h fresh => fresh rfl
  · refine .bind (changeFiles_ensures _ (reported_files ret)) fun _ => ?_
    exact .bind (changeFiles_ensures _ (reported_files ret)) fun _ => .pure fun h reported => reported

section Write

open Write

theorem writeBuf_ensures (written : Option Nat) (fd : Nat) {buf : Pointer UInt8} (memory : buf.isSome = true) :
    Ensures Fresh (writeBuf written fd buf) fun _ => Fresh :=
  .bind (dereference_ensures memory) fun _ => changeFiles_ensures _ fun _ _ fresh => fresh

theorem writeBody_ensures (fileSize iterCnt fd : Nat) : Ensures Fresh (Write.body o fileSize iterCnt fd) Reported := by
  refine .bind (allocate_ensures _ _) fun buf => .bind (allocate_ensures_after _ _ _) fun diffs => ?_
  refine .ite (fun _ => .pure fun h _ => reported_true h) fun present => ?_
  obtain ⟨hasDiffs, hasBuf⟩ : diffs.isSome = true ∧ buf.isSome = true := by
    simpa [Option.isSome_iff_ne_none] using present
  refine .bind ((memset_ensures hasBuf _).strengthen fun h fresh => fresh hasBuf hasDiffs) fun buf => .assume fun memory => ?_
  refine .bind (.loop_steady (fun _ => Fresh) (fun i _ => ?_) _ _ _) fun _ => ?_
  · exact .bind (writeBuf_ensures _ fd memory) fun _ => .pure fun h fresh => ⟨rfl, fresh⟩
  refine .bind ((Ensures.loop_steady (fun diffs h => diffs.isSome = true ∧ Fresh h) (fun idx diffs => ?_) _ _ _).strengthen
    fun h fresh => ⟨hasDiffs, fresh⟩) fun r => .assume fun measured => ?_
  · refine .assume fun hasDiffs => .bind (writeBuf_ensures _ fd memory) fun _ => ?_
    exact .bind (store_ensures hasDiffs _ _) fun diffs => .pure fun h stored => ⟨rfl, stored⟩
  · exact .bind (collectResults_ensures measured) fun _ => .pure fun h fresh => fresh.reported false

end Write

theorem timedMap_ensures (fd idx : Nat) {diffs : Pointer Nat} (memory : diffs.isSome = true) :
    Ensures Fresh (timedMap o fd idx diffs) fun r h => r.2.isSome = true ∧ (r.1 = true → Fresh h) := by
  refine .bind (mmap_ensures _ fd) fun addr => .ite (fun _ => ?_) fun present => ?_
  · exact .pure fun h _ => ⟨memory, fun left => by contradiction⟩
  · have mapped : addr.isSome = true := by simpa [Option.isSome_iff_ne_none] using present
    refine .bind (Q := fun _ => Fresh) (.pure fun h fresh => fresh mapped) fun _ => ?_
    exact .bind (store_ensures memory _ _) fun diffs => .pure fun h stored => ⟨stored.1, fun _ => stored.2⟩

theorem mapBody_ensures (iterCnt fd : Nat) {diffs : Pointer Nat} (memory : diffs.isSome = true) :
    Ensures Fresh (mapBody o iterCnt diffs fd) Reported := by
  have looped := Ensures.loop_guarded (fun diffs => Option.isSome diffs = true)
    (fun idx diffs memory => timedMap_ensures (o := o) fd idx memory) iterCnt 0 memory
  refine .bind looped fun r => .assume fun memory => ?_
  obtain ⟨measured, diffs⟩ := r
  cases measured with
  | false => exact .pure fun h _ => reported_true h
  | true =>
      refine .bind ((collectResults_ensures memory).strengthen fun h fresh => fresh rfl) fun _ => ?_
      exact .pure fun h fresh => fresh.reported false

/-- The early exit: nothing is there to be closed. -/
theorem earlyExit_ensures {P : Host → Prop} (removed : Bool) (path : String) :
    Ensures P (do remove removed path; pure true) Reported :=
  .bind (Q := fun _ _ => True) (.modify fun _ _ => trivial) fun _ => .pure fun h _ => reported_true h

theorem mapRun_ensures (fileSize iterCnt : Nat) : Ensures Fresh (mapRun o fileSize iterCnt) Reported := by
  refine .bind (allocate_ensures _ _) fun diffs => .ite (fun _ => earlyExit_ensures _ _) fun present => ?_
  have memory : diffs.isSome = true := by simpa [Option.isSome_iff_ne_none] using present
  exact (filled_ensures True fun fd => (mapBody_ensures iterCnt fd memory).strengthen
    fun h fresh => fresh trivial).strengthen fun h fresh _ => fresh memory

section ReadTest

open ReadTest

theorem readBody_ensures (fileSize iterCnt : Nat) {diffs : Pointer Nat} (memory : diffs.isSome = true) (buf : Pointer UInt8)
    (fd : Nat) : Ensures (fun h => buf.isSome = true → Fresh h) (ReadTest.body o fileSize iterCnt diffs buf fd) Reported := by
  refine .ite (fun _ => .pure fun h _ => reported_true h) fun present => ?_
  have hasBuf : buf.isSome = true := by simpa [Option.isSome_iff_ne_none] using present
  have reads : Ensures Fresh (readBuf fd fileSize buf) fun _ => Fresh :=
    .bind (dereference_ensures hasBuf) fun _ => changeFiles_ensures _ fun _ _ fresh => fresh
  refine .bind ((Ensures.loop_steady (fun _ => Fresh) (fun i _ => ?_) _ _ _).strengthen fun h fresh => fresh hasBuf)
    fun _ => ?_
  · exact .bind reads fun _ => .pure fun h fresh => ⟨rfl, fresh⟩
  refine .bind ((Ensures.loop_steady (fun diffs h => diffs.isSome = true ∧ Fresh h) (fun idx diffs => ?_) _ _ _).strengthen
    fun h fresh => ⟨memory, fresh⟩) fun r => .assume fun measured => ?_
  · refine .assume fun hasDiffs => .bind reads fun _ => ?_
    exact .bind (store_ensures hasDiffs _ _) fun diffs => .pure fun h stored => ⟨rfl, stored⟩
  · exact .bind (collectResults_ensures measured) fun _ => .pure fun h fresh => fresh.reported false

theorem readRun_ensures (fileSize iterCnt : Nat) : Ensures Fresh (ReadTest.run o fileSize iterCnt) Reported := by
  refine .bind (allocate_ensures _ _) fun diffs => .ite (fun _ => earlyExit_ensures _ _) fun present => ?_
  have memory : diffs.isSome = true := by simpa [Option.isSome_iff_ne_none] using present
  refine .bind ((allocate_ensures _ _).strengthen fun h fresh => fresh memory) fun buf => ?_
  exact filled_ensures _ fun fd => readBody_ensures fileSize iterCnt memory buf fd

end ReadTest

theorem writeTest_ensures (config : BenchConfig) : Ensures Fresh (writeTest config o) Reported := by
  refine .strengthen (filled_ensures True fun fd => ?_) fun _ fresh _ => fresh
  exact (writeBody_ensures _ config.iter fd).strengthen fun _ fresh => fresh trivial

end Oreo.Bench.Scratch
