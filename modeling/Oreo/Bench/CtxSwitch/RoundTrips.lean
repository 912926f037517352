import Oreo.Bench.CtxSwitch.InStep
import Oreo.Bench.Samples
import Oreo.Posix.Own
import Oreo.Posix.Succession

namespace Oreo.Bench.CtxSwitch

open Oreo.Posix Oreo.Transition Oreo.Utils

/-! # Round trips when all calls succeed -/

variable {iterCnt : Nat} {w start : World Locals} {p c : Proc Locals} {call : Call} {r : Reply}
variable {machine : Machine} {errno : Errno} {n k : Nat} {l : Locals} {trace : List (Event (World Locals) Label)}

/-- The runs in which all calls succeed. -/
abbrev Smooth (iterCnt : Nat) (machine : Machine) (errno : Errno) (w : World Locals) : Prop :=
  Reachable (step (program iterCnt)) (Obeys (program iterCnt) (undisturbed (program iterCnt)))
    (World.boot machine (Locals.entry errno)) w

def stored (w : World Locals) : Nat :=
  match w.procs[0]? with
  | some p => p.locals.idx
  | none => 0

def LoopOver (w : World Locals) : Prop := ∃ p, w.procs[0]? = some p ∧ p.locals.pc.pastLoop = true

/-- What the two processes have moved, and what is left in the pipes. -/
structure Books (w : World Locals) (p c : Proc Locals) : Prop where
  fds1 : w.pipe 0 + c.tally.took 0 = p.tally.wrote 0
  fds2 : w.pipe 1 + p.tally.took 1 = c.tally.wrote 1
  parent : p.tally.wrote 0 ≤ p.tally.took 1
  child : c.tally.wrote 1 ≤ c.tally.took 0 + 1

theorem OnTrack.parent_moved (track : OnTrack iterCnt (parentCounts iterCnt) p.locals p.tally) :
    p.tally.took 0 = 0 ∧ p.tally.wrote 1 = 0 ∧ p.tally.wrote 0 ≤ p.tally.took 1 := by
  have counts := track.counts
  cases pc : p.locals.pc <;> simp only [parentCounts, pc, Option.some.injEq, counted, Counts.mk.injEq, reduceCtorEq] at counts <;> omega

theorem OnTrack.child_moved (track : OnTrack iterCnt (childCounts iterCnt) c.locals c.tally) :
    c.tally.wrote 0 = 0 ∧ c.tally.took 1 = 0 ∧ c.tally.wrote 1 ≤ c.tally.took 0 + 1 := by
  have counts := track.counts
  cases pc : c.locals.pc <;> simp only [childCounts, pc, Option.some.injEq, counted, Counts.mk.injEq, reduceCtorEq] at counts <;> omega

theorem OnTrack.child_ended (track : OnTrack iterCnt (childCounts iterCnt) c.locals c.tally)
    (past : c.locals.pc.pastLoop = true) : c.tally.took 0 = iterCnt ∧ c.tally.wrote 1 = iterCnt + 1 := by
  have counts := track.counts
  cases pc : c.locals.pc <;> simp only [pc, Pc.pastLoop, Bool.false_eq_true] at past <;>
    simp only [childCounts, pc, Option.some.injEq, counted, Counts.mk.injEq, reduceCtorEq] at counts <;> omega

theorem OnTrack.parent_ended (track : OnTrack iterCnt (parentCounts iterCnt) p.locals p.tally)
    (past : p.locals.pc.pastLoop = true) : p.tally.wrote 0 = iterCnt ∧ p.tally.took 1 = iterCnt + 1 := by
  have counts := track.counts
  cases pc : p.locals.pc <;> simp only [pc, Pc.pastLoop, Bool.false_eq_true] at past <;>
    simp only [parentCounts, pc, Option.some.injEq, counted, Counts.mk.injEq, reduceCtorEq] at counts <;> omega

theorem InStep.books (inStep : InStep iterCnt p c) (procs : w.procs = [p, c]) (balanced : Posix.Balanced w) :
    Books w p c := by
  obtain ⟨took, wrote, parent⟩ := inStep.parent.parent_moved
  obtain ⟨wrote', took', child⟩ := inStep.child.child_moved
  have fds1 := balanced.pipe 0
  have fds2 := balanced.pipe 1
  simp only [total_pair procs] at fds1 fds2
  exact ⟨by omega, by omega, parent, child⟩

abbrev SmoothRun (iterCnt : Nat) (machine : Machine) (errno : Errno) :
    List (Event (World Locals) Label) → World Locals → Prop :=
  Run (step (program iterCnt)) (Obeys (program iterCnt) (undisturbed (program iterCnt)))
    (World.boot machine (Locals.entry errno))

/-! ## No stuck state -/

abbrev CanGoOn (iterCnt : Nat) (w : World Locals) : Prop :=
  CanStep (program iterCnt) (Obeys (program iterCnt) (undisturbed (program iterCnt))) w

theorem canGoOn (call : Call) (r : Reply) {index : Nat} {q : Proc Locals} (found : w.procs[index]? = some q) (running : q.status = .running)
    (asked : request q.locals = some call) (natural : w.natural (program iterCnt) q call r = true) :
    CanGoOn iterCnt w :=
  canStep_of_natural found running asked natural natural

theorem Preparing.canGoOn (preparing : Preparing p) (procs : w.procs = [p]) : CanGoOn iterCnt w := by
  have found : w.procs[0]? = some p := by rw [procs]; rfl
  have before := preparing.beforeFork
  cases pc : p.locals.pc <;> simp only [pc, Pc.beforeFork, Bool.false_eq_true] at before
  case getPriority =>
      exact CtxSwitch.canGoOn .getPriority (.priority p.priority) found preparing.running
        (by simp only [request, pc]) (by simp [World.natural])
  case getAffinity =>
      exact CtxSwitch.canGoOn .getAffinity (.cores p.cores) found preparing.running
        (by simp only [request, pc]) (by simp [World.natural])
  case allocDiffs =>
      exact CtxSwitch.canGoOn .allocate .ok found preparing.running (by simp only [request, pc]) rfl
  case pipe1 =>
      exact CtxSwitch.canGoOn (.pipe 0) .ok found preparing.running (by simp only [request, pc]) rfl
  case pipe2 =>
      exact CtxSwitch.canGoOn (.pipe 1) .ok found preparing.running (by simp only [request, pc]) rfl
  case fork =>
      obtain ⟨n, natural⟩ := natural_fork (program iterCnt) w p
      exact CtxSwitch.canGoOn _ _ found preparing.running (by simp only [request, pc]) natural

/-- Before its loop ends, the child waits only for a request that is not there yet. -/
theorem InStep.child_canGoOn (inStep : InStep iterCnt p c) (procs : w.procs = [p, c])
    (inside : c.locals.pc.pastLoop = false) (room : w.pipe 1 < pipeCapacity)
    (requested : c.locals.pc = .readRequest → 0 < w.pipe 0) : CanGoOn iterCnt w := by
  have found : w.procs[1]? = some c := by rw [procs]; rfl
  have running := inStep.childRunning inside
  have pipes := inStep.childPipes inside
  have counts := inStep.child.counts
  cases pc : c.locals.pc <;> simp only [childCounts, pc, reduceCtorEq] at counts <;>
    simp only [pc, Pc.pastLoop, Bool.true_eq_false] at inside
  case setAffinity =>
      exact canGoOn (.setAffinity [core]) .ok found running (by simp only [request, pc]) rfl
  case setPriority =>
      exact canGoOn (.setPriority highPriority) .ok found running (by simp only [request, pc]) rfl
  case readRequest =>
      exact canGoOn _ _ found running (by simp only [request, pc, pipes.fds1.fst])
        (natural_read pipes.fds1.readEnd (requested pc))
  all_goals
    exact canGoOn _ _ found running (by simp only [request, pc, pipes.fds2.snd])
      (natural_write pipes.fds2.writeEnd room)

/-- While no reply is there, the child can go on: it is its turn. -/
theorem InStep.canGoOn_of_no_reply (inStep : InStep iterCnt p c) (procs : w.procs = [p, c])
    (books : Books w p c) (inside : p.tally.took 1 < iterCnt + 1) (requested : p.tally.took 1 ≤ p.tally.wrote 0)
    (noReply : w.pipe 1 = 0) : CanGoOn iterCnt w := by
  obtain ⟨fds1, fds2, -, -⟩ := books
  apply inStep.child_canGoOn procs
  · by_contra past
    have ended := inStep.child.child_ended (by simpa using past)
    omega
  · unfold pipeCapacity
    omega
  · intro atRead
    have counts := inStep.child.counts
    simp only [childCounts, atRead, counted, Option.some.injEq, Counts.mk.injEq] at counts
    omega

/-- Before its loop ends, the parent can go on, or it waits for the child and the child can. -/
theorem InStep.canGoOn (inStep : InStep iterCnt p c) (procs : w.procs = [p, c]) (books : Books w p c)
    (inside : p.locals.pc.pastLoop = false) : CanGoOn iterCnt w := by
  have found : w.procs[0]? = some p := by rw [procs]; rfl
  have running := inStep.supervised.parentRunning
  have pipes := inStep.parentPipes inside
  have counts := inStep.parent.counts
  have bound := inStep.parent.inLoop
  cases pc : p.locals.pc <;>
    simp only [parentCounts, pc, counted, Option.some.injEq, Counts.mk.injEq, reduceCtorEq] at counts <;>
    simp only [pc, Pc.pastLoop, Pc.inLoop, true_implies, Bool.true_eq_false] at inside bound
  case setAffinity =>
      exact CtxSwitch.canGoOn (.setAffinity [core]) .ok found running (by simp only [request, pc]) rfl
  case setPriority =>
      exact CtxSwitch.canGoOn (.setPriority highPriority) .ok found running
        (by simp only [request, pc]) rfl
  case startTimer =>
      exact CtxSwitch.canGoOn .clock (.time 0) found running (by simp only [request, pc]) rfl
  case stopTimer =>
      exact CtxSwitch.canGoOn .clock (.time 0) found running (by simp only [request, pc]) rfl
  case writeRequest =>
      -- the child has answered every earlier request, so `fds1` is empty
      have room : w.pipe 0 < pipeCapacity := by
        obtain ⟨fds1, fds2, -, child⟩ := books
        unfold pipeCapacity
        omega
      exact CtxSwitch.canGoOn _ _ found running (by simp only [request, pc, pipes.fds1.snd])
        (natural_write pipes.fds1.writeEnd room)
  case readReady =>
      by_cases replied : 0 < w.pipe 1
      · exact CtxSwitch.canGoOn _ _ found running (by simp only [request, pc, pipes.fds2.fst])
          (natural_read pipes.fds2.readEnd replied)
      · exact inStep.canGoOn_of_no_reply procs books (by omega) (by omega) (by omega)
  case readReply =>
      by_cases replied : 0 < w.pipe 1
      · exact CtxSwitch.canGoOn _ _ found running (by simp only [request, pc, pipes.fds2.fst])
          (natural_read pipes.fds2.readEnd replied)
      · exact inStep.canGoOn_of_no_reply procs books (by omega) (by omega) (by omega)

/-! ## What the child does while the parent's timer runs -/

/-- The iteration of the loop a process is in; the start-up byte belongs to none. -/
def Locals.iteration (l : Locals) : Option Nat := if l.pc.inLoop then some l.idx else none

/-- The pipe operation a process is about to make, with the iteration it belongs to. -/
def pipeOp (q : Proc Locals) : Option (Call × Option Nat) :=
  match request q.locals with
  | some (.read fd) => some (.read fd, q.locals.iteration)
  | some (.write fd) => some (.write fd, q.locals.iteration)
  | _ => none

/-- The pipe operations of the child among the given events. -/
def childOps (trace : List (Event (World Locals) Label)) : List (Call × Option Nat) :=
  trace.filterMap fun event => if event.2.proc = 1 then event.1.procs[1]?.bind pipeOp else none

def readOf (k : Nat) : Call × Option Nat := (.read (some (.readEnd 0)), some k)

def writeOf (k : Nat) : Call × Option Nat := (.write (some (.writeEnd 1)), some k)

/-- The start-up byte, and then one read of `fds1` and one write of `fds2` an iteration. -/
def opAt (n : Nat) : Call × Option Nat :=
  if n = 0 then (.write (some (.writeEnd 1)), none)
  else if n % 2 = 1 then readOf (n / 2) else writeOf ((n - 1) / 2)

def childMoved (w : World Locals) : Nat :=
  match w.procs[1]? with
  | some c => c.tally.took 0 + c.tally.wrote 1
  | none => 0

theorem opAt_read (position : n = 2 * k + 1) : opAt n = readOf k := by
  simp only [opAt, show n ≠ 0 by omega, if_false, show n % 2 = 1 by omega, if_true, show n / 2 = k by omega]

theorem opAt_write (position : n = 2 * k + 2) : opAt n = writeOf k := by
  simp only [opAt, show n ≠ 0 by omega, if_false, show n % 2 ≠ 1 by omega, show (n - 1) / 2 = k by omega]

theorem charge_read (t : Tally) (pipe : Nat) (n : Nat) :
    (t.charge (.read (some (.readEnd pipe))) (.size n)).took pipe = t.took pipe + n ∧
      (t.charge (.read (some (.readEnd pipe))) (.size n)).wrote = t.wrote := by
  simp [Tally.charge, bump]

theorem charge_write (t : Tally) (pipe : Nat) (n : Nat) :
    (t.charge (.write (some (.writeEnd pipe))) (.size n)).wrote pipe = t.wrote pipe + n ∧
      (t.charge (.write (some (.writeEnd pipe))) (.size n)).took = t.took := by
  simp [Tally.charge, bump]

/-- A pipe operation of the child is the next one of its sequence, and moves a byte. -/
theorem InStep.op_moves (inStep : InStep iterCnt p c) (turn : Turn (program iterCnt) w 1 c call r)
    (natural : w.natural (program iterCnt) c call r = true) (moved : c.tally.took 0 + c.tally.wrote 1 = n) :
    match pipeOp c with
    | some op => op = opAt n ∧ (c.tally.charge call r).took 0 + (c.tally.charge call r).wrote 1 = n + 1
    | none => (c.tally.charge call r).took 0 + (c.tally.charge call r).wrote 1 = n := by
  have counts := inStep.child.counts
  have asked := turn.request
  have pipes := inStep.childPipes
  cases pc : c.locals.pc <;>
    simp only [childCounts, pc, counted, Option.some.injEq, Counts.mk.injEq, reduceCtorEq] at counts <;>
    simp only [pc, Pc.pastLoop, true_implies, reduceCtorEq, false_implies] at pipes <;>
    simp only [program_request, request, pc, Option.some.injEq, reduceCtorEq] at asked <;> subst asked <;>
    simp only [pipeOp, request, pc]
  case writeReady =>
      obtain rfl : n = 0 := by omega
      rw [pipes.fds2.snd] at natural ⊢
      obtain ⟨rfl, -⟩ := Turn.write_one natural pipes.fds2.writeEnd
      obtain ⟨wrote, took⟩ := charge_write c.tally 1 1
      exact ⟨by simp [Locals.iteration, pc, Pc.inLoop, opAt], by rw [took, wrote]; omega⟩
  case readRequest =>
      rw [pipes.fds1.fst] at turn natural ⊢
      obtain ⟨rfl, -⟩ := turn.read_one natural pipes.fds1.readEnd pipes.fds1.writeEnd
      obtain ⟨took, wrote⟩ := charge_read c.tally 0 1
      have operation : (Call.read (some (.readEnd 0)), c.locals.iteration) = readOf c.locals.idx := by
        simp [Locals.iteration, pc, Pc.inLoop, readOf]
      exact ⟨operation.trans (opAt_read (by omega)).symm, by rw [took, wrote]; omega⟩
  case writeReply =>
      rw [pipes.fds2.snd] at natural ⊢
      obtain ⟨rfl, -⟩ := Turn.write_one natural pipes.fds2.writeEnd
      obtain ⟨wrote, took⟩ := charge_write c.tally 1 1
      have operation : (Call.write (some (.writeEnd 1)), c.locals.iteration) = writeOf c.locals.idx := by
        simp [Locals.iteration, pc, Pc.inLoop, writeOf]
      exact ⟨operation.trans (opAt_write (by omega)).symm, by rw [took, wrote]; omega⟩
  all_goals simpa [Tally.charge] using moved

theorem childOps_append (front back : List (Event (World Locals) Label)) :
    childOps (front ++ back) = childOps front ++ childOps back := List.filterMap_append

/-- The child goes through its sequence of pipe operations without skipping or repeating one. -/
theorem childOps_of_run {trace : List (Event (World Locals) Label)} (run : SmoothRun iterCnt machine errno trace w) :
    childOps trace = (List.range (childMoved w)).map opAt := by
  apply run.trace_invariant (fun trace w => childOps trace = (List.range (childMoved w)).map opAt) rfl
  intro trace w label next run ih permitted stepped
  obtain ⟨index, reply⟩ := label
  obtain ⟨q, call, turn, rfl⟩ := step_eq_some.mp stepped
  dsimp only at turn ⊢
  rw [childOps_append, ih]
  rcases inStep_of_reachable ⟨trace, run⟩ with ⟨p, procs, -⟩ | ⟨p, c, pair, inStep⟩
  · obtain ⟨rfl, rfl⟩ := turn.of_single procs
    have none : childMoved w = 0 := by simp [childMoved, procs]
    have fresh : childMoved (w.answer (program iterCnt) 0 q call reply) = 0 := by
      simp only [childMoved, procs_after_single procs, List.getElem?_cons_succ]
      cases born : (q.offspring (program iterCnt) call reply)[0]? with
      | none => rfl
      | some c => simp [offspring_tally (List.mem_of_getElem? born), Tally.zero]
    simp [none, fresh, childOps]
  · have notFork := pair.notFork forksOnce turn
    rcases turn.of_pair pair.procs with ⟨rfl, rfl⟩ | ⟨rfl, rfl⟩
    · have same : childMoved (w.answer (program iterCnt) 0 q call reply) = childMoved w := by
        simp [childMoved, procs_after_parent pair.procs notFork, pair.procs]
      simp [same, childOps]
    · have moves := inStep.op_moves turn (turn.obeys permitted) rfl
      have before : childMoved w = q.tally.took 0 + q.tally.wrote 1 := by simp [childMoved, pair.procs]
      have after : childMoved (w.answer (program iterCnt) 1 q call reply) =
          (q.tally.charge call reply).took 0 + (q.tally.charge call reply).wrote 1 := by
        simp [childMoved, procs_after_child pair.procs notFork]
      rw [before, after]
      cases op : pipeOp q with
      | none =>
          rw [op] at moves
          simp [moves, childOps, pair.procs, op]
      | some op' =>
          rw [op] at moves
          simp [moves, childOps, pair.procs, op, List.range_succ]

/-- The parent is about to make the call `pc` of iteration `k`. -/
def ParentAt (pc : Pc) (k : Nat) (w : World Locals) : Prop :=
  ∃ p, w.procs[0]? = some p ∧ p.locals.pc = pc ∧ p.locals.idx = k

theorem pair_of_parentAt {pc : Pc} (reachable : Smooth iterCnt machine errno w) (later : pc.beforeFork = false)
    (parentAt : ParentAt pc k w) :
    ∃ p c, w.procs = [p, c] ∧ p.locals.pc = pc ∧ p.locals.idx = k ∧ InStep iterCnt p c ∧ Books w p c := by
  obtain ⟨p, found, rfl, rfl⟩ := parentAt
  rcases inStep_of_reachable reachable with ⟨q, procs, preparing⟩ | ⟨q, c, pair, inStep⟩
  · rw [procs] at found
    obtain rfl : q = p := Option.some.inj found
    rw [preparing.beforeFork] at later
    contradiction
  · have procs := pair.procs
    rw [procs] at found
    obtain rfl : q = p := Option.some.inj found
    exact ⟨q, c, procs, rfl, rfl, inStep, inStep.books procs (balanced_of_reachable (balanced_boot _ _) reachable)⟩

theorem moved_at_start (reachable : Smooth iterCnt machine errno w) (parentAt : ParentAt .startTimer k w) :
    childMoved w = 2 * k + 1 := by
  obtain ⟨p, c, procs, pc, rfl, inStep, fds1, fds2, -, child⟩ := pair_of_parentAt reachable rfl parentAt
  have counts := inStep.parent.counts
  simp only [parentCounts, pc, counted, Option.some.injEq, Counts.mk.injEq] at counts
  simp only [childMoved, procs]
  change c.tally.took 0 + c.tally.wrote 1 = _
  omega

theorem moved_at_stop (reachable : Smooth iterCnt machine errno w) (parentAt : ParentAt .stopTimer k w) :
    childMoved w = 2 * k + 3 := by
  obtain ⟨p, c, procs, pc, rfl, inStep, fds1, fds2, -, child⟩ := pair_of_parentAt reachable rfl parentAt
  have counts := inStep.parent.counts
  simp only [parentCounts, pc, counted, Option.some.injEq, Counts.mk.injEq] at counts
  simp only [childMoved, procs]
  change c.tally.took 0 + c.tally.wrote 1 = _
  omega

/-- Between the two readings of the timer the child makes its two moves of that iteration. -/
theorem childOps_between {trace before between after : List (Event (World Locals) Label)} {s e : World Locals}
    {started stopped : Reply} (run : SmoothRun iterCnt machine errno trace w)
    (split : trace = before ++ (s, ⟨0, started⟩) :: (between ++ (e, ⟨0, stopped⟩) :: after))
    (atStart : ParentAt .startTimer k s) (atStop : ParentAt .stopTimer k e) :
    childOps between = [readOf k, writeOf k] := by
  obtain ⟨earlier, -⟩ := run.split split
  obtain ⟨later, -⟩ := run.split (split.trans (List.append_assoc before (_ :: between) _).symm)
  have opsBefore := childOps_of_run earlier
  have opsAfter := childOps_of_run later
  dsimp only at opsBefore opsAfter
  rw [moved_at_start ⟨_, earlier⟩ atStart] at opsBefore
  rw [moved_at_stop ⟨_, later⟩ atStop, List.range_succ, List.range_succ, childOps_append, opsBefore] at opsAfter
  have parents : childOps ((s, ⟨0, started⟩) :: between) = childOps between := by simp [childOps]
  rw [parents] at opsAfter
  simp only [List.map_append, List.map_cons, List.map_nil, List.append_assoc, List.append_cancel_left_eq,
    opAt_read rfl, opAt_write (n := 2 * k + 2) rfl] at opsAfter
  exact opsAfter

/-! ## What the samples are -/

/-- The samples before round `idx` are in the array of a parent that has come so far. -/
abbrev Measured (iterCnt : Nat) (trace : List (Event (World Locals) Label)) (l : Locals) : Prop :=
  SamplesStored (ParentAt .startTimer) (ParentAt .stopTimer) iterCnt trace l.idx l.diffs

/-- How far the parent is. An error on the way to its loop leaves it without samples. -/
def Measuring (iterCnt : Nat) (trace : List (Event (World Locals) Label)) (l : Locals) : Prop :=
  match l.pc with
  | .getPriority | .getAffinity | .allocDiffs => l.idx = 0
  | .pipe1 | .pipe2 | .fork | .readReady => l.idx = 0 ∧ l.diffs.length = iterCnt
  | .setAffinity | .setPriority => (l.idx = 0 ∧ l.diffs.length = iterCnt) ∧ 0 < l.pid
  | .startTimer => l.idx < iterCnt ∧ Measured iterCnt trace l
  | .writeRequest | .readReply | .stopTimer =>
      l.idx < iterCnt ∧ Measured iterCnt trace l ∧ Started (ParentAt .startTimer) trace l.idx l.tstart
  | .writeReady | .readRequest | .writeReply | .killSelf => False
  | .wait | .restorePriority | .restoreAffinity | .close _ _ | .returned | .aborted =>
      l.idx = 0 ∨ Measured iterCnt trace l

theorem Measuring.snoc (measuring : Measuring iterCnt trace l) (taken : Event (World Locals) Label) :
    Measuring iterCnt (trace ++ [taken]) l := by
  have longer (measured : Measured iterCnt trace l) : Measured iterCnt (trace ++ [taken]) l :=
    samplesStored_snoc measured taken
  cases pc : l.pc <;> simp only [Measuring, pc] at measuring ⊢
  case startTimer => exact ⟨measuring.1, longer measuring.2⟩
  case writeRequest | readReply | stopTimer => exact ⟨measuring.1, longer measuring.2.1, measuring.2.2.snoc taken⟩
  case wait | restorePriority | restoreAffinity | close | returned | aborted => exact measuring.imp_right longer
  all_goals exact measuring

theorem measuring_parentLoop (measured : Measured iterCnt trace l) : Measuring iterCnt trace (l.parentLoop iterCnt) := by
  unfold Locals.parentLoop
  split
  · next more => exact ⟨more, measured⟩
  · exact .inr measured

theorem measuring_cleanup (ended : l.idx = 0 ∨ Measured iterCnt trace l) : Measuring iterCnt trace l.cleanup := by
  unfold Locals.cleanup
  cases l.saved <;> exact ended

theorem measuring_closing (pending : List Fd) (ended : l.idx = 0 ∨ Measured iterCnt trace l) :
    Measuring iterCnt trace (l.closing pending) := by
  cases pending <;> exact ended

theorem Measuring.advance (before : Measuring iterCnt trace p.locals) (turn : Turn (program iterCnt) w 0 p call r) :
    Measuring iterCnt (trace ++ [(w, ⟨0, r⟩)]) (resume iterCnt p.locals r) := by
  have measuring := before.snoc (w, ⟨0, r⟩)
  have asked := turn.request
  cases pc : p.locals.pc <;>
    simp only [program_request, request, pc, Option.some.injEq, reduceCtorEq] at asked <;> subst asked <;>
    simp only [Measuring, pc] at measuring <;> simp only [resume, continueAt, Locals.observe_pc, pc]
  case getPriority => exact measuring
  case getAffinity =>
    cases failed : (p.locals.observe r).saveFailed || r.failed
    · exact measuring
    · exact .inl measuring
  case allocDiffs =>
    split
    · exact measuring_cleanup (.inl measuring)
    · exact ⟨measuring, by simp [initDiffArray]⟩
  case pipe1 | pipe2 =>
    split
    · exact measuring_cleanup (.inl measuring.1)
    · exact measuring
  case fork =>
    rcases fork_reply turn.possible with ⟨id, positive, rfl⟩ | ⟨errno, rfl⟩
    · rw [Reply.child_pid, if_pos (Int.le_of_lt positive)]
      exact ⟨measuring, positive⟩
    · exact measuring_cleanup (.inl measuring.1)
  case setAffinity => exact measuring
  case setPriority =>
    split
    · exact measuring_cleanup (.inl measuring.1.1)
    · rw [if_pos (show 0 < (p.locals.observe r).pid from measuring.2)]
      exact measuring.1
  case readReady => exact measuring_parentLoop (.start measuring.2)
  case startTimer =>
    obtain ⟨t, rfl⟩ := clock_reply turn.possible
    exact ⟨measuring.1, measuring.2, .now ⟨p, turn.at_, pc, rfl⟩⟩
  case writeRequest | readReply => exact measuring
  case stopTimer =>
    obtain ⟨t, rfl⟩ := clock_reply turn.possible
    simp only [Measuring, pc] at before
    have round : TimedRound (ParentAt .startTimer) (ParentAt .stopTimer) (trace ++ [(w, ⟨0, .time t⟩)]) p.locals.idx
        (getDuration p.locals.tstart t) := before.2.2.stop ⟨p, turn.at_, pc, rfl⟩
    exact measuring_parentLoop (measuring.2.1.set measuring.1 round)
  case wait => exact measuring_cleanup measuring
  case restorePriority => exact measuring
  case restoreAffinity => exact measuring_closing _ measuring
  case close fd pending => exact measuring_closing pending measuring

/-- The samples before the iteration that the parent has come to are in the array. -/
theorem Measuring.entries (measuring : Measuring iterCnt trace l) (reached : k < l.idx) :
    ∃ sample, l.diffs[k]? = some sample ∧ TimedRound (ParentAt .startTimer) (ParentAt .stopTimer) trace k sample := by
  have started (unstarted : l.idx = 0) : False := by omega
  cases pc : l.pc <;> simp only [Measuring, pc] at measuring
  case getPriority | getAffinity | allocDiffs => exact (started measuring).elim
  case pipe1 | pipe2 | fork | readReady => exact (started measuring.1).elim
  case setAffinity | setPriority => exact (started measuring.1.1).elim
  case startTimer => exact measuring.2.entries k reached
  case writeRequest | readReply | stopTimer => exact measuring.2.1.entries k reached
  all_goals exact (measuring.resolve_left started).entries k reached

theorem measuring_of_run {trace : List (Event (World Locals) Label)} (run : SmoothRun iterCnt machine errno trace w) :
    ∃ p, w.procs[0]? = some p ∧ Measuring iterCnt trace p.locals := by
  refine process_invariant (P := fun trace p => Measuring iterCnt trace p.locals) (fun _ _ _ measuring => measuring)
    (fun _ taken _ _ measuring => measuring.snoc taken) (fun _ _ _ _ _ _ turn measuring => measuring.advance turn) rfl ?_ run
  exact (rfl : (Locals.entry errno).idx = 0)

/-- `context_switch_test` measures exact round trips: at most one byte is in the pipes,
no state is stuck before the samples are stored, nothing is left in the pipes, and
each sample that is stored is the time between two readings of the timer, which cover the
child's own read and write of that iteration. -/
theorem contextSwitchTest_measures_round_trips (iterCnt : Nat) (machine : Machine) (errno : Errno) :
    (∀ w, Smooth iterCnt machine errno w →
      w.pipe 0 + w.pipe 1 ≤ 1 ∧ (stored w < iterCnt → CanGoOn iterCnt w) ∧
        (LoopOver w → stored w = iterCnt ∧ w.pipe 0 = 0 ∧ w.pipe 1 = 0)) ∧
    (∀ trace w before between after s e started stopped k, SmoothRun iterCnt machine errno trace w →
      trace = before ++ (s, ⟨0, started⟩) :: (between ++ (e, ⟨0, stopped⟩) :: after) →
      ParentAt .startTimer k s → ParentAt .stopTimer k e → childOps between = [readOf k, writeOf k]) ∧
    ∀ trace w, SmoothRun iterCnt machine errno trace w → ∃ p, w.procs[0]? = some p ∧ ∀ k < stored w,
      ∃ sample, p.locals.diffs[k]? = some sample ∧
        TimedRound (ParentAt .startTimer) (ParentAt .stopTimer) trace k sample := by
  refine ⟨fun w reachable => ?_, fun _ _ _ _ _ _ _ _ _ _ run split => childOps_between run split, fun trace w run => ?_⟩
  case refine_2 =>
    obtain ⟨p, found, measuring⟩ := measuring_of_run run
    have reached : stored w = p.locals.idx := by simp only [stored, found]
    exact ⟨p, found, fun k below => measuring.entries (reached ▸ below)⟩
  have balanced : Posix.Balanced w := balanced_of_reachable (balanced_boot _ _) reachable
  rcases inStep_of_reachable reachable with ⟨p, procs, preparing⟩ | ⟨p, c, pair, inStep⟩
  · refine ⟨?_, fun _ => preparing.canGoOn procs, ?_⟩
    · have fds1 := balanced.pipe 0
      have fds2 := balanced.pipe 1
      simp [World.total, procs, preparing.tally, Tally.zero] at fds1 fds2
      omega
    · intro some_
      obtain ⟨q, found, past⟩ := some_
      rw [procs] at found
      obtain rfl : p = q := Option.some.inj found
      have before := preparing.beforeFork
      cases pc : p.locals.pc <;> simp [pc, Pc.beforeFork, Pc.pastLoop] at before past
  · have books := inStep.books pair.procs balanced
    obtain ⟨fds1, fds2, parent, child⟩ := id books
    refine ⟨by omega, fun unfinished => ?_, ?_⟩
    · apply inStep.canGoOn pair.procs books
      by_contra past
      have ended := inStep.parent.ended (by simpa using past)
      simp only [stored, pair.procs] at unfinished
      change p.locals.idx < iterCnt at unfinished
      omega
    · intro some_
      obtain ⟨q, found, past⟩ := some_
      rw [pair.procs] at found
      obtain rfl : p = q := Option.some.inj found
      have moved := inStep.parent.parent_ended past
      refine ⟨?_, by omega, by omega⟩
      simp only [stored, pair.procs]
      exact inStep.parent.ended past

/-- The replies of one round, up to the end of the parent's loop. -/
def oneRound : List Label :=
  [⟨0, .priority 0⟩, ⟨0, .cores [0]⟩, ⟨0, .ok⟩, ⟨0, .ok⟩, ⟨0, .ok⟩, ⟨0, .pid 2⟩,
    ⟨0, .ok⟩, ⟨1, .ok⟩, ⟨1, .ok⟩, ⟨0, .ok⟩, ⟨1, .size 1⟩, ⟨0, .size 1⟩,
    ⟨0, .time 5⟩, ⟨0, .size 1⟩, ⟨1, .size 1⟩, ⟨1, .size 1⟩, ⟨0, .size 1⟩, ⟨0, .time 9⟩]

theorem contextSwitchTest_measures_round_trips_once : ∃ trace w before s tstart between e tend after,
    SmoothRun 1 .plain .eagain trace w ∧ LoopOver w ∧ stored w = 1 ∧ w.pipe 0 = 0 ∧ w.pipe 1 = 0 ∧
      trace = before ++ (s, ⟨0, .time tstart⟩) :: (between ++ (e, ⟨0, .time tend⟩) :: after) ∧
        getDuration tstart tend = 4 ∧ childOps between = [readOf 0, writeOf 0] := by
  obtain ⟨safe, covered, samples⟩ := contextSwitchTest_measures_round_trips 1 .plain .eagain
  obtain ⟨w, p, followed, found, ended, diffs⟩ : ∃ w p, follow (program 1) (undisturbed (program 1))
      (World.boot .plain (Locals.entry .eagain)) oneRound = some w ∧ w.procs[0]? = some p ∧ p.locals.pc.pastLoop = true ∧
        p.locals.diffs = [4] :=
    ⟨_, _, rfl, rfl, rfl, rfl⟩
  obtain ⟨trace, run⟩ := follow_reachable (.refl _) followed
  have beyond : LoopOver w := ⟨p, found, ended⟩
  obtain ⟨complete, fds1, fds2⟩ := (safe w ⟨trace, run⟩).2.2 beyond
  obtain ⟨p', same, measured⟩ := samples trace w run
  obtain rfl := Option.some_inj.mp (same.symm.trans found)
  obtain ⟨sample, entry, before, s, tstart, between, e, tend, after, split, atStart, atStop, duration⟩ :=
    measured 0 (by rw [complete]; decide)
  obtain rfl : 4 = sample := by simpa [diffs] using entry
  exact ⟨trace, w, before, s, tstart, between, e, tend, after, run, beyond, complete, fds1, fds2, split, duration.symm,
    covered _ _ _ _ _ _ _ _ _ 0 run split atStart atStop⟩

end Oreo.Bench.CtxSwitch
