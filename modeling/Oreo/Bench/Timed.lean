import Oreo.LeBench
import Oreo.Posix.Host
import Oreo.Utils.Timer

namespace Oreo.Bench

open Oreo.Posix Oreo.Posix.Action Oreo.Transition Oreo.Transition.Effect Oreo.Utils

/-! # `getpid_test` and `thread_create_test` -/

namespace Getpid

structure Outcomes where
  diffs : Bool
  tstart : Nat → UInt64
  tend : Nat → UInt64

def timedCall (o : Outcomes) (idx : Nat) (diffs : Pointer Nat) : Action (Bool × Pointer Nat) := do
  let diffs ← store diffs idx (getDuration (o.tstart idx) (o.tend idx))
  pure (true, diffs)

def getpidTest (config : BenchConfig) (o : Outcomes) : Action Bool := do
  let diffs ← allocate o.diffs (initDiffArray config.iter)
  if diffs.isNone then pure true
  else
    let (_, diffs) ← loop (timedCall o) config.iter 0 diffs
    collectResults diffs
    pure false

theorem getpidTest_ensures (config : BenchConfig) (o : Outcomes) : Ensures Fresh (getpidTest config o) Reported := by
  refine .bind (allocate_ensures _ _) fun diffs => .ite (fun _ => .pure fun h _ => reported_true h) fun present => ?_
  have memory : diffs.isSome = true := by simpa [Option.isSome_iff_ne_none] using present
  refine .bind ((Ensures.loop_steady (fun diffs h => diffs.isSome = true ∧ Fresh h) (fun idx diffs => ?_) _ _ _).strengthen
    fun h fresh => ⟨memory, fresh memory⟩) fun r => .assume fun measured => ?_
  · refine .assume fun hasDiffs => .bind (store_ensures hasDiffs _ _) fun diffs => ?_
    exact .pure fun h stored => ⟨rfl, stored⟩
  · exact .bind (collectResults_ensures measured) fun _ => .pure fun h fresh => fresh.reported false

end Getpid

namespace ThreadCreate

structure Outcomes where
  parentDiffs : Bool
  childDiffs : Bool
  /-- Whether `malloc` returns memory for the result of the child. -/
  result : Bool
  /-- What is in `t_child_end` before the first thread writes to it. -/
  unset : UInt64
  tstart : Nat → UInt64
  tParentEnd : Nat → UInt64
  /-- What the new thread reads from its timer, `none` if there is no thread. -/
  tChildEnd : Nat → Option UInt64

structure Locals where
  parentDiffs : Pointer Nat
  childDiffs : Pointer Nat
  tChildEnd : UInt64

/-- The thread has ended when `pthread_join` returns. Without a thread the variable keeps what
the last one wrote. -/
def timedCreate (o : Outcomes) (idx : Nat) (l : Locals) : Action (Bool × Locals) := do
  let tChildEnd := (o.tChildEnd idx).getD l.tChildEnd
  let parentDiffs ← store l.parentDiffs idx (getDuration (o.tstart idx) (o.tParentEnd idx))
  let childDiffs ← store l.childDiffs idx (getDuration (o.tstart idx) tChildEnd)
  pure (true, ⟨parentDiffs, childDiffs, tChildEnd⟩)

def threadCreateTest (config : BenchConfig) (o : Outcomes) : Action Bool := do
  let parentDiffs ← allocate o.parentDiffs (initDiffArray config.iter)
  let childDiffs ← allocate o.childDiffs (initDiffArray config.iter)
  if parentDiffs.isNone || childDiffs.isNone then pure true
  else
    let (_, l) ← loop (timedCreate o) config.iter 0 ⟨parentDiffs, childDiffs, o.unset⟩
    collectResults l.parentDiffs
    let child ← allocate o.result [()]
    if child.isNone then pure true
    else
      let _ ← dereference child
      collectResults l.childDiffs
      pure false

structure Locals.Present (l : Locals) : Prop where
  parentDiffs : l.parentDiffs.isSome = true
  childDiffs : l.childDiffs.isSome = true

theorem timedCreate_ensures (o : Outcomes) (idx : Nat) {l : Locals} (present : l.Present) :
    Ensures Fresh (timedCreate o idx l) fun r h => r.1 = true ∧ r.2.Present ∧ Fresh h := by
  refine .bind (store_ensures present.parentDiffs _ _) fun parentDiffs => .assume fun parent => ?_
  refine .bind (store_ensures present.childDiffs _ _) fun childDiffs => .assume fun child => ?_
  exact .pure fun h fresh => ⟨rfl, ⟨parent, child⟩, fresh⟩

theorem threadCreateTest_ensures (config : BenchConfig) (o : Outcomes) :
    Ensures Fresh (threadCreateTest config o) Reported := by
  refine .bind (allocate_ensures _ _) fun parentDiffs => .bind (allocate_ensures_after _ _ _) fun childDiffs => ?_
  refine .ite (fun _ => .pure fun h _ => reported_true h) fun present => ?_
  obtain ⟨parent, child⟩ : parentDiffs.isSome = true ∧ childDiffs.isSome = true := by
    simpa [Option.isSome_iff_ne_none] using present
  refine .bind ((Ensures.loop_steady (fun l h => Locals.Present l ∧ Fresh h) (fun idx l => ?_) _ _ _).strengthen
    fun h fresh => ⟨⟨parent, child⟩, fresh parent child⟩) fun r => .assume fun measured => ?_
  · exact .assume fun present => timedCreate_ensures o idx present
  refine .bind (collectResults_ensures measured.parentDiffs) fun _ => .bind (allocate_ensures _ _) fun result => ?_
  refine .ite (fun _ => .pure fun h _ => reported_true h) fun present => ?_
  have memory : result.isSome = true := by simpa [Option.isSome_iff_ne_none] using present
  refine .bind ((dereference_ensures memory).strengthen fun h fresh => fresh memory) fun _ => ?_
  exact .bind (collectResults_ensures measured.childDiffs) fun _ => .pure fun h fresh => fresh.reported false

end ThreadCreate

end Oreo.Bench
