import Oreo.Bench.CtxSwitch.Progress
import Oreo.Bench.Fork.Model
import Oreo.Bench.Monitor.Allocations
import Oreo.Bench.Recv.Progress
import Oreo.Bench.Scratch.PageFault
import Oreo.Bench.Scratch.Restored
import Oreo.Bench.Send.Progress
import Oreo.Bench.Timed
import Oreo.Posix.Settling

/-! # Allocations that fail -/

namespace Oreo.Bench.Socket

open Oreo.Posix

inductive Memory where
  | diffs
  | buf
deriving DecidableEq, Repr

variable {Pc : Type} {prog : Program (Locals Pc)} {setup : Setup → Pc} {release : Release → Pc} {iterCnt : Nat}
variable {forked : Locals Pc → Locals Pc} {touches : Locals Pc → Reply → Prop}

/-- `return ret` with an error, after the cleanup. -/
def Errored (release : Release → Pc) (l : Locals Pc) : Prop := l.pc = release .returned ∧ l.ret = true

section Settling

variable (starts : Starts prog setup release iterCnt forked)
  (quiet : ∀ l s, l.pc = release s → ∀ r, ¬ touches l r)
include starts quiet

theorem settles_remove {l : Locals Pc} (pc : l.pc = release .remove) (ret : l.ret = true) :
    Settles prog touches (Errored release) l := by
  refine .next (starts.requestRelease l _ pc) rfl (quiet l _ pc) fun r => ?_
  rw [starts.resumeRelease l _ r pc]
  exact .ended (starts.requestRelease _ .returned rfl) ⟨rfl, ret⟩

theorem settles_closing (pending : List Fd) {l : Locals Pc} (ret : l.ret = true) :
    Settles prog touches (Errored release) (l.closing release pending) := by
  induction pending generalizing l with
  | nil => exact settles_remove starts quiet rfl ret
  | cons fd pending ih =>
      refine .next (starts.requestRelease _ (.close fd pending) rfl) rfl (quiet _ _ rfl) fun r => ?_
      rw [starts.resumeRelease _ (.close fd pending) r rfl]
      exact ih ret

theorem settles_err (l : Locals Pc) : Settles prog touches (Errored release) (l.err release) := by
  unfold Locals.err Locals.cleanup
  exact settles_closing starts quiet _ rfl

theorem settles_setup {l : Locals Pc} {s : Setup} {r : Reply} (pc : l.pc = setup s) (allocates : s.request = .allocate)
    (failed : r.failed = true) : Settles prog touches (Errored release) (prog.resume l r) := by
  rw [starts.resume l s r pc]
  cases s <;> first
    | contradiction
    | (rw [Locals.prepare, if_pos failed]
       exact settles_err starts quiet _)

end Settling

/-- An allocation that fails in the setup leads to the cleanup, and neither of them uses memory. -/
theorem handlesFailure_setup {V : Type} {memory : MemoryUse (Locals Pc) V} {l : Locals Pc} {s : Setup} {r : Reply}
    (starts : Starts prog setup release iterCnt forked) (unused : ∀ l, Childless setup release l → ∀ r, memory.uses l r = [])
    (pc : l.pc = setup s) (allocates : s.request = .allocate) (failed : r.failed = true) :
    HandlesFailure prog memory (Errored release) l r := by
  refine ⟨?_, settles_setup starts (fun l' s' atRelease r' => ?_) pc allocates failed⟩
  · simp [unused l (.inl ⟨s, pc⟩)]
  · simp [unused l' (.inr ⟨s', atRelease⟩)]

end Oreo.Bench.Socket

namespace Oreo.Bench.Send

open Oreo.Posix Oreo.Bench.Socket

variable {iterCnt msgSize : Nat} {l : Locals} {r : Reply}

def memory : MemoryUse Locals Memory where
  target l := if l.pc = .setup .allocBuf then .buf else .diffs
  uses l r :=
    match l.pc with
    | .connect => if r.failed then [] else [.buf]
    | .send => [.buf]
    | .stopTimer => [.diffs]
    | .recv => [.buf]
    | .serverErr => if l.errored then [] else [.diffs]
    | _ => []

theorem allocates_cases (asked : request msgSize l = some .allocate) :
    ∃ s : Setup, l.pc = .setup s ∧ s.request = .allocate := by
  cases pc : l.pc <;> simp only [request, pc, Option.some.injEq, reduceCtorEq] at asked
  case setup s => exact ⟨s, rfl, asked⟩
  case release s => cases s <;> simp [Release.request] at asked

theorem handlesFailure (asked : (program iterCnt msgSize).request l = some .allocate) (failed : r.failed = true) :
    HandlesFailure (program iterCnt msgSize) memory (Errored .release) l r := by
  obtain ⟨s, pc, allocates⟩ := allocates_cases asked
  refine handlesFailure_setup starts (fun l childless r => ?_) pc allocates failed
  rcases childless with ⟨s, pc⟩ | ⟨s, pc⟩ <;> simp [memory, pc]

end Oreo.Bench.Send

namespace Oreo.Bench.Recv

open Oreo.Posix Oreo.Bench.Socket

variable {iterCnt msgSize : Nat} {l : Locals} {r : Reply}

def memory : MemoryUse Locals Memory where
  target l := if l.pc = .setup .allocBuf then .buf else .diffs
  uses l r :=
    match l.pc with
    | .recv => [.buf]
    | .stopTimer => [.diffs]
    | .wait => [.diffs]
    | .connect => if r.failed then [] else [.buf]
    | .send => [.buf]
    | _ => []

theorem allocates_cases (asked : request msgSize l = some .allocate) :
    ∃ s : Setup, l.pc = .setup s ∧ s.request = .allocate := by
  cases pc : l.pc <;> simp only [request, pc, Option.some.injEq, reduceCtorEq] at asked
  case setup s => exact ⟨s, rfl, asked⟩
  case release s => cases s <;> simp [Release.request] at asked

theorem handlesFailure (asked : (program iterCnt msgSize).request l = some .allocate) (failed : r.failed = true) :
    HandlesFailure (program iterCnt msgSize) memory (Errored .release) l r := by
  obtain ⟨s, pc, allocates⟩ := allocates_cases asked
  refine handlesFailure_setup starts (fun l childless r => ?_) pc allocates failed
  rcases childless with ⟨s, pc⟩ | ⟨s, pc⟩ <;> simp [memory, pc]

end Oreo.Bench.Recv

namespace Oreo.Bench.CtxSwitch

open Oreo.Posix Oreo.Transition

variable {iterCnt : Nat} {l : Locals} {r : Reply}

/-- `diffs` is the only memory. -/
def memory : MemoryUse Locals Unit where
  target _ := ()
  uses l _ :=
    match l.pc with
    | .readReady | .stopTimer => [()]
    | _ => []

def Errored (l : Locals) : Prop := l.pc = .returned ∧ l.ret = true

section Settling

variable {touches : Locals → Reply → Prop}

theorem settles_closing (quiet : ∀ l fd pending, l.pc = .close fd pending → ∀ r, ¬ touches l r) (pending : List Fd) {l : Locals}
    (ret : l.ret = true) : Settles (program iterCnt) touches Errored (l.closing pending) := by
  induction pending generalizing l with
  | nil => exact .ended rfl ⟨rfl, ret⟩
  | cons fd pending ih => exact .next rfl rfl (quiet _ fd pending rfl) fun r => ih ret

theorem settles_restoring (quiet : ∀ l, l.pc.pastLoop = true → ∀ r, ¬ touches l r) {l : Locals} (pc : l.pc = .restorePriority)
    (ret : l.ret = true) : Settles (program iterCnt) touches Errored l := by
  have prioritySet (r : Reply) : (program iterCnt).resume l r = { l.observe r with pc := .restoreAffinity } := by
    simp only [program_resume, continueAt, Locals.observe_pc, pc]
  have affinitySet (l : Locals) (r : Reply) (pc : l.pc = .restoreAffinity) : (program iterCnt).resume l r =
      (l.observe r).closing [l.fds1.1, l.fds1.2, l.fds2.1, l.fds2.2] := by
    simp only [program_resume, continueAt, Locals.observe_pc, pc]
    rfl
  have asked : (program iterCnt).request l = some (.setPriority l.prio) := by simp [request, pc]
  refine .next asked rfl (quiet l (by rw [pc]; rfl)) fun r => ?_
  rw [prioritySet]
  refine .next rfl rfl (quiet _ rfl) fun r => ?_
  rw [affinitySet _ _ rfl]
  refine settles_closing (fun l fd pending atClose => quiet l ?_) _ ret
  rw [atClose]
  rfl

end Settling

theorem allocDiffs_of_request (asked : request l = some .allocate) : l.pc = .allocDiffs := by
  cases pc : l.pc <;> simp [request, pc] at asked
  rfl

theorem handlesFailure (asked : (program iterCnt).request l = some .allocate) (saved : l.saved = true)
    (failed : r.failed = true) : HandlesFailure (program iterCnt) memory Errored l r := by
  have pc := allocDiffs_of_request asked
  refine ⟨by simp [memory, pc], ?_⟩
  have next : (program iterCnt).resume l r = { l.observe r with ret := true, pc := .restorePriority } := by
    simp [continueAt, pc, failed, Locals.err, Locals.cleanup, saved]
  rw [next]
  refine settles_restoring (fun l past r => ?_) rfl rfl
  cases pc : l.pc <;> simp [pc, Pc.pastLoop] at past <;> simp [memory, pc]

theorem allocDiffs_saved (l : Locals) (r : Reply) (next : (continueAt iterCnt l r).pc = .allocDiffs) :
    (continueAt iterCnt l r).saved = true := by
  by_cases later : l.pc.beforeFork = false ∨ l.pc = .fork
  · have past := continueAt_beforeFork iterCnt l r later
    rw [next] at past
    contradiction
  have errPast : l.err.pc ≠ .allocDiffs := by
    intro atAlloc
    have past := err_beforeFork l
    rw [atAlloc] at past
    contradiction
  cases pc : l.pc <;> simp [pc, Pc.beforeFork] at later
  case getPriority => simp [continueAt, pc] at next
  case getAffinity =>
    simp only [continueAt, pc] at next ⊢
    split_ifs at next with failed
    simp [failed]
  all_goals
    simp only [continueAt, pc] at next
    split_ifs at next
    exact absurd next errPast

theorem saved_of_allocDiffs {allowed : World Locals → Label → Prop} {machine : Machine} {errno : Errno} {w : World Locals}
    (reachable : Reachable (step (program iterCnt)) allowed (World.boot machine (Locals.entry errno)) w) {index : Nat}
    {p : Proc Locals} (found : w.procs[index]? = some p) (atAlloc : p.locals.pc = .allocDiffs) : p.locals.saved = true := by
  refine procs_invariant (P := fun _ p => p.locals.pc = .allocDiffs → p.locals.saved = true) ?_ ?_ ?_ ?_ reachable index p
    found atAlloc
  · exact fun _ _ _ holds => holds
  · exact fun w index p call r _ turn holds => allocDiffs_saved (p.locals.observe r) r
  · exact fun w index p n _ turn holds => allocDiffs_saved (p.locals.observe (.pid 0)) (.pid 0)
  · intro index p found atAlloc
    obtain ⟨rfl, -⟩ : p = _ ∧ True := by
      cases index <;> simp [World.boot] at found
      exact ⟨found.symm, trivial⟩
    contradiction

end Oreo.Bench.CtxSwitch

namespace Oreo.Bench.Fork

open Oreo.Posix Oreo.Transition

/-- The variables of `fork_test` that point to memory. -/
inductive Memory where
  | pages
  /-- `p`, and the element of `pages` it is stored to. -/
  | page
  | childDiffs
  | parentDiffs
  | tChildEnd
  /-- `res->child` -/
  | result
deriving DecidableEq, Repr

variable {iterCnt pages : Nat} {l : Locals} {r : Reply}

def memory : MemoryUse Locals Memory where
  target l :=
    match l.pc with
    | .allocPages => .pages
    | .mapPage _ => .page
    | .allocChildDiffs => .childDiffs
    | .allocParentDiffs => .parentDiffs
    | .mapChildEnd => .tChildEnd
    | _ => .result
  uses l r :=
    match l.pc with
    | .mapPage _ => if r.failed then [] else [.pages]
    -- with no iterations, the samples go to `collect_results` right after the checks
    | .mapChildEnd => if 0 < l.missing || r.failed then [] else [.parentDiffs]
    | .stampChildEnd => [.tChildEnd]
    | .loadChildEnd => [.parentDiffs, .childDiffs, .tChildEnd]
    | .allocResult => [.childDiffs, .result]
    | _ => []

def Errored (l : Locals) : Prop := l.pc = .returned ∧ l.ret = true

section Settling

variable {touches : Locals → Reply → Prop}

theorem settles_err (l : Locals) : Settles (program iterCnt pages) touches Errored l.err := .ended rfl ⟨rfl, rfl⟩

theorem settles_mapChildEnd (quiet : ∀ l, l.pc = .mapChildEnd → 0 < l.missing → ∀ r, ¬ touches l r) (pc : l.pc = .mapChildEnd)
    (missing : 0 < l.missing) : Settles (program iterCnt pages) touches Errored l := by
  have asked : (program iterCnt pages).request l = some .allocate := by simp [program, request, pc]
  refine .next asked rfl (quiet l pc missing) fun r => ?_
  have next : (program iterCnt pages).resume l r = (l.observe r).err := by
    simp [program, resume, continueAt, pc, missing]
  rw [next]
  exact settles_err _

end Settling

/-- All failures but that of the `malloc` for the result of the child. -/
theorem handlesFailure_iff (asked : (program iterCnt pages).request l = some .allocate) (failed : r.failed = true) :
    HandlesFailure (program iterCnt pages) memory Errored l r ↔ l.pc ≠ .allocResult := by
  have quiet (m : Memory) (l : Locals) (pc : l.pc = .mapChildEnd) (missing : 0 < l.missing) (r : Reply) : m ∉ memory.uses l r := by
    simp [memory, pc, missing]
  cases pc : l.pc <;> simp only [program, request, pc, Option.some.injEq, reduceCtorEq] at asked
  case allocResult =>
    refine iff_of_false (fun handled => handled.1 ?_) (by simp)
    simp [memory, pc]
  all_goals refine iff_of_true ⟨by simp [memory, pc, failed], ?_⟩ (by simp)
  case allocPages | mapPage | mapChildEnd =>
    have next : (program iterCnt pages).resume l r = (l.observe r).err := by
      simp [program, resume, continueAt, pc, failed]
    rw [next]
    exact settles_err _
  case allocParentDiffs =>
    have next : (program iterCnt pages).resume l r = { l.observe r with pc := .mapChildEnd, missing := l.missing + 1 } := by
      simp [program, resume, continueAt, pc, failed]
    rw [next]
    exact settles_mapChildEnd (quiet _) rfl (Nat.succ_pos _)
  case allocChildDiffs =>
    have next : (program iterCnt pages).resume l r = { l.observe r with pc := .allocParentDiffs, missing := l.missing + 1 } := by
      simp [program, resume, continueAt, pc, failed]
    rw [next]
    refine .next rfl rfl (by simp [memory]) fun r => ?_
    cases second : r.failed <;>
      simp only [program, resume, continueAt, Locals.observe, second, Bool.false_eq_true, if_true, if_false]
    all_goals exact settles_mapChildEnd (quiet _) rfl (Nat.succ_pos _)

end Oreo.Bench.Fork

namespace Oreo.Bench

open Oreo.Posix Oreo.Posix.Action Oreo.Transition

/-- The tests that have no child, with the outcomes of their calls. -/
inductive SingleTest where
  | getpid (o : Getpid.Outcomes)
  | threadCreate (o : ThreadCreate.Outcomes)
  | scratch (test : Scratch.Test) (o : Scratch.Outcomes)
  | select (o : Select.Outcomes)
  | poll (o : Poll.Outcomes)
  | epoll (o : Epoll.Outcomes)

def SingleTest.action (config : BenchConfig) : SingleTest → Action Bool
  | .getpid o => Getpid.getpidTest config o
  | .threadCreate o => ThreadCreate.threadCreateTest config o
  | .scratch test o => test.action config o
  | .select o => Select.selectTest config o
  | .poll o => Poll.pollTest config o
  | .epoll o => Epoll.epollTest config o

/-- Only `page_fault_test` leaves out checks. -/
def SingleTest.Checked (config : BenchConfig) (fs : Files) : SingleTest → Prop
  | .scratch .pageFault o => Scratch.PageFault.Checked o (Bench.Read.fileSize config.iSize) config.iter fs
  | _ => True

theorem singleTest_checks_iff (config : BenchConfig) (test : SingleTest) {h : Host} (fresh : Fresh h) :
    ChecksAllocations (test.action config) h ↔ test.Checked config h.files := by
  cases test with
  | getpid o => exact iff_of_true (checksAllocations_of_ensures (Getpid.getpidTest_ensures config o) fresh) trivial
  | threadCreate o =>
      exact iff_of_true (checksAllocations_of_ensures (ThreadCreate.threadCreateTest_ensures config o) fresh) trivial
  | select o => exact iff_of_true (checksAllocations_of_ensures (Select.run_ensures o _ _) fresh) trivial
  | poll o => exact iff_of_true (checksAllocations_of_ensures (Poll.run_ensures o _ _) fresh) trivial
  | epoll o => exact iff_of_true (checksAllocations_of_ensures (Epoll.run_ensures o _ _) fresh) trivial
  | scratch test o =>
      cases test with
      | read => exact iff_of_true (checksAllocations_of_ensures (Scratch.readRun_ensures _ _) fresh) trivial
      | write => exact iff_of_true (checksAllocations_of_ensures (Scratch.writeTest_ensures config) fresh) trivial
      | mmap => exact iff_of_true (checksAllocations_of_ensures (Scratch.mapRun_ensures _ _) fresh) trivial
      | munmap => exact iff_of_true (checksAllocations_of_ensures (Scratch.mapRun_ensures _ _) fresh) trivial
      | pageFault => exact Scratch.PageFault.run_checks_iff o _ _ h fresh

/-- The `malloc` for the result of the child succeeds in a run of `fork_test`. -/
def Fork.ResultAllocated (trace : List (World Fork.Locals × Label)) : Prop :=
  ∀ taken ∈ trace, ∀ p, taken.1.procs[taken.2.proc]? = some p → p.locals.pc = .allocResult → taken.2.reply.failed = false

theorem Fork.runHandlesFailures_iff (iterCnt pages : Nat) (trace : List (World Fork.Locals × Label)) :
    RunHandlesFailures (Fork.program iterCnt pages) Fork.memory Fork.Errored trace ↔ Fork.ResultAllocated trace := by
  constructor
  · intro handles taken member p found atResult
    by_contra failed
    rw [Bool.not_eq_false] at failed
    have asked : (Fork.program iterCnt pages).request p.locals = some .allocate := by
      simp [Fork.program, Fork.request, atResult]
    exact (Fork.handlesFailure_iff asked failed).mp (handles taken member p found asked failed) atResult
  · intro allocated taken member p found asked failed
    refine (Fork.handlesFailure_iff asked failed).mpr fun atResult => ?_
    rw [allocated taken member p found atResult] at failed
    contradiction

/-- A failed `mmap` is a failure after `create_and_fill`. -/
theorem pageFault_not_checked : ¬ SingleTest.Checked ⟨200, .small⟩ Host.bare.files (.scratch .pageFault
    { Scratch.Outcomes.smooth true with mmap := fun _ => false }) := by
  intro checked
  rcases checked with unallocated | unopened | ⟨-, mapped⟩
  · contradiction
  · contradiction
  · exact absurd (mapped 0 (by decide) (.inl rfl)) (by decide)

/-- The child has stamped its page and is gone, and the parent comes to its last allocation. -/
def Fork.untilResult : List Label :=
  [⟨0, .ok⟩, ⟨0, .ok⟩, ⟨0, .ok⟩, ⟨0, .time 0⟩, ⟨0, .pid 2⟩, ⟨1, .time 1⟩, ⟨1, .ok⟩, ⟨0, .time 2⟩, ⟨0, .ok⟩, ⟨0, .time 1⟩]

theorem Fork.reaches_result : ∃ w p, Reachable (step (forkTest ⟨1, .small⟩)) (fun _ _ => True)
    (World.boot .plain (Locals.entry 0 (.other 0))) w ∧ w.procs[0]? = some p ∧ p.status = .running ∧
      p.locals.pc = .allocResult := by
  have followed : ∃ w p, follow (forkTest ⟨1, .small⟩) (fun _ _ _ _ _ => true) (World.boot .plain (Locals.entry 0 (.other 0)))
      untilResult = some w ∧ w.procs[0]? = some p ∧ p.status = .running ∧ p.locals.pc = .allocResult :=
    ⟨_, _, rfl, rfl, rfl, rfl⟩
  obtain ⟨w, p, followed, after⟩ := followed
  exact ⟨w, p, (follow_reachable (.refl _) followed).mono fun _ _ _ => trivial, after⟩

/-- For every size, every number of iterations and every way the calls come out, no result of a
failed allocation is used, and the test reports the failure, exactly if `page_fault_test` meets no
failure after `create_and_fill` and `fork_test` none when it allocates the result of the child. -/
theorem tests_handle_failed_allocations_iff (config : BenchConfig) :
    (∀ (test : SingleTest) (h : Host), Fresh h → (ChecksAllocations (test.action config) h ↔ test.Checked config h.files)) ∧
    ∀ (machine : Machine) (errno : Errno),
      (∀ allowed trace w, Run (step (Fork.forkTest config)) allowed
        (World.boot machine (Fork.Locals.entry (Fork.pageCnt config.iSize) errno)) trace w →
          (RunHandlesFailures (Fork.forkTest config) Fork.memory Fork.Errored trace ↔ Fork.ResultAllocated trace)) ∧
      (∀ allowed trace w, Run (step (CtxSwitch.contextSwitchTest config)) allowed
        (World.boot machine (CtxSwitch.Locals.entry errno)) trace w →
          RunHandlesFailures (CtxSwitch.contextSwitchTest config) CtxSwitch.memory CtxSwitch.Errored trace) ∧
      ∀ errored,
        (∀ allowed trace w, Run (step (Send.sendTest config)) allowed
          (World.boot machine (Socket.Locals.entry (.setup .allocDiffs) errno errored)) trace w →
            RunHandlesFailures (Send.sendTest config) Send.memory (Socket.Errored .release) trace) ∧
        (∀ allowed trace w, Run (step (Recv.recvTest config)) allowed
          (World.boot machine (Socket.Locals.entry (.setup .allocDiffs) errno errored)) trace w →
            RunHandlesFailures (Recv.recvTest config) Recv.memory (Socket.Errored .release) trace) := by
  refine ⟨fun test h fresh => singleTest_checks_iff config test fresh, fun machine errno => ⟨?_, ?_, ?_⟩⟩
  · exact fun allowed trace w _ => Fork.runHandlesFailures_iff _ _ trace
  · intro allowed trace w run taken member p found asked failed
    refine CtxSwitch.handlesFailure asked ?_ failed
    exact procs_of_mem_trace (P := fun p => p.locals.pc = .allocDiffs → p.locals.saved = true) run
      (fun w' reachable index p found => CtxSwitch.saved_of_allocDiffs reachable found) member found
      (CtxSwitch.allocDiffs_of_request asked)
  · intro errored
    constructor
    · exact fun allowed trace w _ taken member p found asked failed => Send.handlesFailure asked failed
    · exact fun allowed trace w _ taken member p found asked failed => Recv.handlesFailure asked failed

/-- In some run an allocation fails, and `holds` of the run. -/
def SomeFailure {L : Type} (prog : Program L) (start : World L) (holds : List (World L × Label) → Prop) : Prop :=
  ∃ trace w, Run (step prog) (fun _ _ => True) start trace w ∧ holds trace ∧
    ∃ taken ∈ trace, ∃ p, taken.1.procs[taken.2.proc]? = some p ∧ prog.request p.locals = some .allocate ∧
      taken.2.reply.failed = true

theorem someFailure_of_follow {L : Type} {prog : Program L} {start : World L} {holds : List (World L × Label) → Prop}
    (labels : List Label) (n : Nat) (follows : ∃ w, follow prog (fun _ _ _ _ _ => true) start labels = some w)
    (always : ∀ w, Run (step prog) (fun _ _ => True) start (trail prog start labels) w → holds (trail prog start labels))
    (fails : ∃ taken p, (trail prog start labels)[n]? = some taken ∧ taken.1.procs[taken.2.proc]? = some p ∧
      prog.request p.locals = some .allocate ∧ taken.2.reply.failed = true) : SomeFailure prog start holds := by
  obtain ⟨w, followed⟩ := follows
  obtain ⟨taken, p, member, failing⟩ := fails
  have run := (follow_run .nil followed).mono fun _ _ _ => trivial
  rw [List.nil_append] at run
  exact ⟨_, w, run, always w run, taken, List.mem_of_getElem? member, p, failing⟩

/-- `init_diff_array` fails, and after that `close` on the descriptors that are not there. -/
def socketDiffsFail : List Label := ⟨0, .fail (.other 12)⟩ :: List.replicate 7 ⟨0, .fail (.other 9)⟩ ++ [⟨0, .ok⟩]

/-- The same in `context_switch_test`, once the priority and the affinity are known. -/
def ctxSwitchDiffsFail : List Label :=
  [⟨0, .priority 0⟩, ⟨0, .cores [0]⟩, ⟨0, .fail (.other 12)⟩, ⟨0, .ok⟩, ⟨0, .ok⟩] ++ List.replicate 4 ⟨0, .fail (.other 9)⟩

/-- Allocations that fail: `init_diff_array` in four tests, `mmap` in two, and the last `malloc` of `fork_test`. -/
theorem tests_handle_failed_allocations_iff_failing :
    ChecksAllocations (SingleTest.action ⟨200, .small⟩ (.getpid ⟨false, fun _ => 0, fun _ => 0⟩)) .bare ∧
    ChecksAllocations (SingleTest.action ⟨200, .small⟩ (.scratch .mmap { Scratch.Outcomes.smooth true with
      mmap := fun _ => false })) .bare ∧
    ¬ ChecksAllocations (SingleTest.action ⟨200, .small⟩ (.scratch .pageFault { Scratch.Outcomes.smooth true with
      mmap := fun _ => false })) .bare ∧
    SomeFailure (Fork.forkTest ⟨1, .small⟩) (World.boot .plain (Fork.Locals.entry 0 (.other 0)))
      (fun trace => ¬ RunHandlesFailures (Fork.forkTest ⟨1, .small⟩) Fork.memory Fork.Errored trace) ∧
    SomeFailure (CtxSwitch.contextSwitchTest ⟨1, .small⟩) (World.boot .plain (CtxSwitch.Locals.entry (.other 0)))
      (RunHandlesFailures (CtxSwitch.contextSwitchTest ⟨1, .small⟩) CtxSwitch.memory CtxSwitch.Errored) ∧
    SomeFailure (Send.sendTest ⟨1, .small⟩) (World.boot .plain (Socket.Locals.entry (.setup .allocDiffs) (.other 0) false))
      (RunHandlesFailures (Send.sendTest ⟨1, .small⟩) Send.memory (Socket.Errored .release)) ∧
    SomeFailure (Recv.recvTest ⟨1, .small⟩) (World.boot .plain (Socket.Locals.entry (.setup .allocDiffs) (.other 0) false))
      (RunHandlesFailures (Recv.recvTest ⟨1, .small⟩) Recv.memory (Socket.Errored .release)) := by
  have singles := (tests_handle_failed_allocations_iff ⟨200, .small⟩).1
  obtain ⟨fork, ctxSwitch, sockets⟩ := (tests_handle_failed_allocations_iff ⟨1, .small⟩).2 .plain (.other 0)
  have fresh : Fresh Host.bare := rfl
  refine ⟨(singles _ _ fresh).mpr trivial, (singles _ _ fresh).mpr trivial, mt (singles _ _ fresh).mp pageFault_not_checked,
    ?_, ?_, ?_, ?_⟩
  · refine someFailure_of_follow (Fork.untilResult ++ [⟨0, .fail (.other 12)⟩]) 10 ⟨_, rfl⟩ (fun w run handles => ?_)
      ⟨_, _, rfl, rfl, rfl, rfl⟩
    have allocated := (fork _ _ w run).mp handles _ (List.mem_of_getElem? (show _[10]? = _ from rfl)) _ rfl rfl
    contradiction
  · exact someFailure_of_follow ctxSwitchDiffsFail 2 ⟨_, rfl⟩ (ctxSwitch _ _) ⟨_, _, rfl, rfl, rfl, rfl⟩
  · exact someFailure_of_follow socketDiffsFail 0 ⟨_, rfl⟩ ((sockets false).1 _ _) ⟨_, _, rfl, rfl, rfl, rfl⟩
  · exact someFailure_of_follow socketDiffsFail 0 ⟨_, rfl⟩ ((sockets false).2 _ _) ⟨_, _, rfl, rfl, rfl, rfl⟩

/-- The "small-pagefault" benchmark when `mmap` fails, and one iteration of `fork_test` when its
last `malloc` fails. -/
theorem tests_use_failed_allocations :
    ¬ ChecksAllocations (SingleTest.action ⟨200, .small⟩ (.scratch .pageFault { Scratch.Outcomes.smooth true with
        mmap := fun _ => false })) .bare ∧
      ∃ trace w, Run (step (Fork.forkTest ⟨1, .small⟩)) (fun _ _ => True)
        (World.boot .plain (Fork.Locals.entry 0 (.other 0))) trace w ∧
          ¬ RunHandlesFailures (Fork.forkTest ⟨1, .small⟩) Fork.memory Fork.Errored trace := by
  constructor
  · rw [singleTest_checks_iff ⟨200, .small⟩ _ (h := .bare) rfl]
    exact pageFault_not_checked
  · obtain ⟨w, p, ⟨trace, run⟩, found, running, atResult⟩ := Fork.reaches_result
    have turn : Turn (Fork.forkTest ⟨1, .small⟩) w 0 p .allocate (.fail (.other 12)) := by
      refine ⟨found, running, ?_, ?_⟩
      · simp [Fork.forkTest, Fork.program, Fork.request, atResult]
      · simp [World.possible, Call.fallible]
    refine ⟨_, _, run.snoc trivial (step_of_turn turn), ?_⟩
    intro handles
    have allocated := (Fork.runHandlesFailures_iff _ _ _).mp handles (w, ⟨0, .fail (.other 12)⟩)
      (List.mem_append_right _ (List.mem_singleton_self _)) p found atResult
    contradiction

end Oreo.Bench
