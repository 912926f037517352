import Oreo.Bench.Scratch.Model

namespace Oreo.Bench.Scratch

open Oreo.Posix Oreo.Posix.Action Oreo.Transition Oreo.Transition.Effect Oreo.Utils

/-! # The two models of `read_test` agree

The one with pointers returns what the one without them does, and never fails.
-/

def Outcomes.read (o : Outcomes) : Bench.Read.Outcomes where
  diffs := o.diffs
  buf := o.buf
  fill := o.fill
  removed := o.removed
  tstart := o.tstart
  tend := o.tend

/-- What a test leaves on its host. -/
def leaves (h : Host) (exhausted : Bool) (outcome : Bench.Read.Outcome) : Host where
  files := outcome.files
  exhausted
  log := h.log ++ outcome.collected.toList.map .collect

variable (o : Outcomes) (fd fileSize : Nat) (contents : List UInt8)

theorem warmupRead_loop (remaining idx : Nat) (h : Host) :
    (loop (ReadTest.warmupRead fd fileSize (some contents)) remaining idx ()).result h =
      (.ok (true, ()), { h with files := Bench.Read.warmup fd fileSize remaining h.files }) := by
  induction remaining generalizing idx h with
  | zero => rfl
  | succ remaining ih =>
      have first : (ReadTest.warmupRead fd fileSize (some contents) idx ()).result h =
          (.ok (true, ()), { h with files := h.files.read fd fileSize }) := rfl
      rw [result_loop_next remaining first, ih]
      rfl

theorem timedRead_loop (remaining idx : Nat) (diffs timed : List Nat) (h : Host) :
    (loop (ReadTest.timedRead o fd fileSize (some contents)) remaining idx (some diffs)).result h =
      (.ok (true, some (Bench.Read.timedLoop o.read fd fileSize remaining idx ⟨h.files, diffs, timed⟩).diffs),
        { h with files := (Bench.Read.timedLoop o.read fd fileSize remaining idx ⟨h.files, diffs, timed⟩).files }) := by
  induction remaining generalizing idx diffs timed h with
  | zero => rfl
  | succ remaining ih =>
      have first : (ReadTest.timedRead o fd fileSize (some contents) idx (some diffs)).result h =
          (.ok (true, some (diffs.set idx (o.duration idx))), { h with files := h.files.read fd fileSize }) := rfl
      rw [result_loop_next remaining first, ih _ _ (timed ++ [h.files.available fd fileSize])]
      rfl

theorem result_createFile (fill : FillOutcomes) (h : Host) :
    (createFile fill fileSize).result h =
      (.ok (createAndFill fill leFilePath fileSize 'a'.toUInt8 h.files).2,
        { h with
          files := (createAndFill fill leFilePath fileSize 'a'.toUInt8 h.files).1
          exhausted := h.exhausted || !fill.allocated }) := rfl

theorem readBody_result (iterCnt : Nat) (h : Host) :
    let l := Bench.Read.timedLoop o.read fd fileSize iterCnt 0
      ⟨Bench.Read.warmup fd fileSize Bench.Read.warmups h.files, initDiffArray iterCnt, []⟩
    (ReadTest.body o fileSize iterCnt (some (initDiffArray iterCnt)) (some contents) fd).result h =
      (.ok false, { h with files := l.files, log := h.log ++ [.collect l.diffs] }) := by
  intro l
  have measured := timedRead_loop o fd fileSize contents iterCnt 0 (initDiffArray iterCnt) []
    { h with files := Bench.Read.warmup fd fileSize Bench.Read.warmups h.files }
  simp only [ReadTest.body, Option.isNone_some, Bool.false_eq_true, if_false, result_bind, warmupRead_loop, measured,
    result_collectResults_some, result_pure]
  rfl

theorem cleanup_result (fd : Option Nat) (ret : Bool) (collected : Option (List Nat)) (timed : List Nat) (h : Host) :
    (do close fd; remove o.removed Bench.Read.filePath; pure ret : Action Bool).result h =
      (.ok ret, { h with files := (Bench.Read.cleanup o.read ret fd collected timed h.files).files }) := by
  cases fd <;> rfl

/-- `read_test` does what its model without pointers does. -/
theorem readRun_eq (iterCnt : Nat) (h : Host) : ∃ exhausted,
    (ReadTest.run o fileSize iterCnt).result h =
      (.ok (Bench.Read.run fileSize iterCnt o.read h.files).ret,
        leaves h exhausted (Bench.Read.run fileSize iterCnt o.read h.files)) := by
  cases diffs : o.diffs with
  | false =>
      refine ⟨true, ?_⟩
      simp [ReadTest.run, Bench.Read.run, Outcomes.read, diffs, result_bind, Action.remove, changeFiles, Bench.Read.cleanup,
        leaves, Host.exhaust, Except.map]
  | true =>
      refine ⟨(if o.buf then h else h.exhaust).exhausted || !o.fill.allocated, ?_⟩
      have fill : o.read.fill = o.fill := rfl
      have diffs' : o.read.diffs = true := diffs
      have buf' : o.read.buf = o.buf := rfl
      have files : (if o.buf then h else h.exhaust).files = h.files := by split <;> rfl
      have log : (if o.buf then h else h.exhaust).log = h.log := by split <;> rfl
      rw [ReadTest.run, Bench.Read.run, result_bind_ok (result_allocate h _ _)]
      simp only [diffs, diffs', if_true, Option.isNone_some, Bool.not_true, Bool.false_eq_true, if_false, fill, buf']
      rw [result_bind_ok (result_allocate h _ _), filled, result_bind_ok (result_createFile _ _ _), files]
      generalize createAndFill o.fill leFilePath fileSize 'a'.toUInt8 h.files = created
      obtain ⟨fs, fd⟩ := created
      cases fd with
      | none =>
          rw [result_bind_ok (show (withFile _ none).result _ = (.ok true, _) from rfl),
            cleanup_result o none true none []]
          simp [leaves, log, Bench.Read.cleanup]
      | some fd =>
          cases buf : o.buf with
          | false =>
              rw [result_bind_ok (show (withFile _ (some fd)).result _ = (.ok true, _) from rfl),
                cleanup_result o (some fd) true none []]
              simp [leaves, Bench.Read.cleanup, Host.exhaust]
          | true =>
              simp only [if_true, withFile, Bool.not_true, Bool.false_eq_true, if_false]
              rw [result_bind_ok (readBody_result o fd fileSize (List.replicate fileSize 0) iterCnt _),
                cleanup_result o (some fd) false none []]
              simp [leaves, Bench.Read.cleanup]

end Oreo.Bench.Scratch
