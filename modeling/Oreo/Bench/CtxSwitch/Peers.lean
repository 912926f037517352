import Oreo.Bench.CtxSwitch.RoundTrips

namespace Oreo.Bench.CtxSwitch

open Oreo.Posix Oreo.Transition

/-! # When `set_affinity_priority` fails -/

/-- Which calls of `set_affinity_priority` fail in a process. -/
structure SetFaults where
  affinity : Bool
  priority : Bool
deriving DecidableEq, Repr

def SetFaults.fails (faults : SetFaults) : Bool := faults.affinity || faults.priority

/-- Everything succeeds but what the faults of the two processes say. -/
def setFaults (iterCnt : Nat) (parent child : SetFaults) : Rule Locals := fun w index p call r =>
  let faults := if index = 0 then parent else child
  match p.locals.pc with
  | .setAffinity => if faults.affinity then r.failed else w.natural (program iterCnt) p call r
  | .setPriority => if faults.priority then r.failed else w.natural (program iterCnt) p call r
  | _ => w.natural (program iterCnt) p call r

/-- The calls that wait for the other process. -/
def waiting : Call → Bool
  | .read _ | .wait => true
  | _ => false

abbrev Faulty (iterCnt : Nat) (parent child : SetFaults) (machine : Machine) (errno : Errno) (w : World Locals) :
    Prop :=
  Reachable (step (program iterCnt)) (Obeys (program iterCnt) (setFaults iterCnt parent child))
    (World.boot machine (Locals.entry errno)) w

/-- No run leaves a process waiting for one that is gone. -/
def LeavesNone (iterCnt : Nat) (parent child : SetFaults) : Prop :=
  ∀ machine errno w, Faulty iterCnt parent child machine errno w →
    ¬ LeftBehind (program iterCnt) (Obeys (program iterCnt) (setFaults iterCnt parent child)) waiting w

variable {iterCnt : Nat} {parent child : SetFaults} {w : World Locals} {p c : Proc Locals} {call : Call} {r : Reply}

def SetFaults.reply (fault : Bool) : Reply := if fault then .fail (.other 1) else .ok

def upToFork : List Label :=
  [⟨0, .priority 0⟩, ⟨0, .cores [0]⟩, ⟨0, .ok⟩, ⟨0, .ok⟩, ⟨0, .ok⟩, ⟨0, .pid 2⟩]

def setting (index : Nat) (faults : SetFaults) : List Label :=
  [⟨index, SetFaults.reply faults.affinity⟩, ⟨index, SetFaults.reply faults.priority⟩]

def cleaningUp (index : Nat) : List Label :=
  [⟨index, .ok⟩, ⟨index, .ok⟩, ⟨index, .ok⟩, ⟨index, .ok⟩, ⟨index, .ok⟩, ⟨index, .ok⟩]

section Runs

attribute [local simp] follow answers step World.answer World.signalled World.fate World.account Proc.advance
  Proc.spawn Proc.offspring World.possible World.natural setFaults upToFork setting cleaningUp SetFaults.reply
  World.boot Locals.entry Machine.plain request continueAt Reply.errno Reply.prio Reply.cpuset Reply.failed
  chargeHandles chargePriority chargeCores Tally.charge Locals.observe Locals.err Locals.cleanup Locals.closing
  Call.fallible Proc.finished Fd.ends Locals.childLoop pipeCapacity bump

/-- A run in which the child gives up and returns, and the parent waits for its byte. -/
theorem childFails_run (iterCnt : Nat) (fails : child.fails = true) (succeeds : parent.fails = false) :
    ∃ w p c, follow (program iterCnt) (setFaults iterCnt parent child) (World.boot Machine.plain (Locals.entry .eagain))
      (upToFork ++ setting 0 parent ++ setting 1 child ++ cleaningUp 1) = some w ∧ w.procs = [p, c] ∧
      p.locals.pc = .readReady ∧ p.status = .running ∧ HasPipes p.locals p.handles ∧ w.pipe 1 = 0 ∧
      c.finished (program iterCnt) = true := by
  obtain ⟨a, b⟩ := parent
  obtain ⟨d, e⟩ := child
  obtain ⟨rfl, rfl⟩ : a = false ∧ b = false := by simpa [SetFaults.fails] using succeeds
  cases d <;> cases e
  case false.false => contradiction
  all_goals
    simp
    exact ⟨⟨rfl, by simp, by simp⟩, ⟨rfl, by simp, by simp⟩⟩

theorem parentFails_run (fails : parent.fails = true) (succeeds : child.fails = false) (loops : 0 < iterCnt) :
    ∃ w p c, follow (program iterCnt) (setFaults iterCnt parent child) (World.boot Machine.plain (Locals.entry .eagain))
      (upToFork ++ setting 0 parent ++ cleaningUp 0 ++ setting 1 child ++ [⟨1, .size 1⟩]) = some w ∧
      w.procs = [p, c] ∧ c.locals.pc = .readRequest ∧ c.status = .running ∧ HasPipes c.locals c.handles ∧
      w.pipe 0 = 0 ∧ p.finished (program iterCnt) = true := by
  obtain ⟨a, b⟩ := parent
  obtain ⟨d, e⟩ := child
  obtain ⟨rfl, rfl⟩ : d = false ∧ e = false := by simpa [SetFaults.fails] using succeeds
  cases a <;> cases b
  case false.false => contradiction
  all_goals
    simp [loops]
    exact ⟨⟨rfl, by simp, by simp⟩, ⟨rfl, by simp, by simp⟩⟩

end Runs

section Stranded

variable (procs : w.procs = [p, c])
include procs

theorem leftBehind_of_waiting_parent (atRead : p.locals.pc = .readReady) (running : p.status = .running)
    (pipes : HasPipes p.locals p.handles) (empty : w.pipe 1 = 0) (gone : c.finished (program iterCnt) = true) :
    LeftBehind (program iterCnt) (Obeys (program iterCnt) (setFaults iterCnt parent child)) waiting w := by
  have asked : request p.locals = some (.read (some (.readEnd 1))) := by simp only [request, atRead, pipes.fds2.fst]
  have found : w.procs[0]? = some p := by rw [procs]; rfl
  refine leftBehind_of_stuck 1 found running asked rfl (fun r permitted => ?_) (by rw [procs]; rfl) gone
    (nobody_else procs)
  exact read_blocks found asked empty pipes.fds2.readEnd pipes.fds2.writeEnd
    (by simpa only [setFaults, atRead] using permitted)

theorem leftBehind_of_waiting_child (atRead : c.locals.pc = .readRequest) (running : c.status = .running)
    (pipes : HasPipes c.locals c.handles) (empty : w.pipe 0 = 0) (gone : p.finished (program iterCnt) = true) :
    LeftBehind (program iterCnt) (Obeys (program iterCnt) (setFaults iterCnt parent child)) waiting w := by
  have asked : request c.locals = some (.read (some (.readEnd 0))) := by simp only [request, atRead, pipes.fds1.fst]
  have found : w.procs[1]? = some c := by rw [procs]; rfl
  refine leftBehind_of_stuck 0 found running asked rfl (fun r permitted => ?_) (by rw [procs]; rfl) gone
    (fun i => or_left_comm.mp (nobody_else procs i))
  exact read_blocks found asked empty pipes.fds1.readEnd pipes.fds1.writeEnd
    (by simpa only [setFaults, atRead] using permitted)

end Stranded

theorem not_leavesNone_of_child_fails (fails : child.fails = true) (succeeds : parent.fails = false) :
    ¬ LeavesNone iterCnt parent child := by
  intro none
  obtain ⟨w, p, c, followed, procs, atRead, running, pipes, empty, gone⟩ :=
    childFails_run iterCnt fails succeeds
  exact none _ _ w (follow_reachable (.refl _) followed)
    (leftBehind_of_waiting_parent procs atRead running pipes empty gone)

theorem not_leavesNone_of_parent_fails (fails : parent.fails = true) (succeeds : child.fails = false)
    (loops : 0 < iterCnt) : ¬ LeavesNone iterCnt parent child := by
  intro none
  obtain ⟨w, p, c, followed, procs, atRead, running, pipes, empty, gone⟩ := parentFails_run fails succeeds loops
  exact none _ _ w (follow_reachable (.refl _) followed)
    (leftBehind_of_waiting_child procs atRead running pipes empty gone)

/-! ## Where nobody is left behind -/

theorem setFaults_none (parentSets : parent.fails = false) (childSets : child.fails = false) :
    setFaults iterCnt parent child = undisturbed (program iterCnt) := by
  obtain ⟨a, b⟩ := parent
  obtain ⟨d, e⟩ := child
  obtain ⟨rfl, rfl⟩ : a = false ∧ b = false := by simpa [SetFaults.fails] using parentSets
  obtain ⟨rfl, rfl⟩ : d = false ∧ e = false := by simpa [SetFaults.fails] using childSets
  funext w index p call r
  simp only [setFaults, undisturbed, ite_self]
  split <;> rfl

/-- The calls made only between the start of a branch and its end. -/
def Pc.inBranch : Pc → Bool
  | .readReady | .startTimer | .writeRequest | .readReply | .stopTimer | .wait | .readRequest | .writeReply => true
  | _ => false

/-- The locals of a process that stays out of the calls that wait: it gives up after
`set_affinity_priority`, or it is the child and has no iterations to make. -/
structure Quiet (iterCnt : Nat) (faults : SetFaults) (l : Locals) : Prop where
  outside : l.pc.inBranch = false
  givesUp : l.pc = .setPriority → faults.affinity = true → l.setFailed = true
  noLoop : l.pc = .writeReady → iterCnt = 0

section

variable {faults : SetFaults} {l : Locals}

theorem Quiet.cleanup (l : Locals) : Quiet iterCnt faults l.cleanup := by
  unfold Locals.cleanup
  split <;> exact ⟨rfl, by simp, by simp⟩

theorem Quiet.closing (l : Locals) (pending : List Fd) : Quiet iterCnt faults (l.closing pending) := by
  cases pending <;> exact ⟨rfl, by simp [Locals.closing], by simp [Locals.closing]⟩

theorem Quiet.resume (quiet : Quiet iterCnt faults l)
    (affinity : l.pc = .setAffinity → faults.affinity = true → r.failed = true)
    (priority : l.pc = .setPriority → faults.priority = true → r.failed = true)
    (short : faults.fails = true ∨ l.pid = 0 ∧ iterCnt = 0) :
    Quiet iterCnt faults (resume iterCnt l r) := by
  obtain ⟨outside, givesUp, noLoop⟩ := quiet
  cases pc : l.pc <;> simp only [pc, Pc.inBranch, Bool.true_eq_false] at outside <;>
    simp only [CtxSwitch.resume, continueAt, Locals.observe_pc, pc]
  case getPriority => exact ⟨rfl, by simp, by simp⟩
  case getAffinity => constructor <;> dsimp only <;> split <;> first | rfl | simp
  case allocDiffs =>
      split
      · exact .cleanup _
      · exact ⟨rfl, by simp, by simp⟩
  case pipe1 =>
      split
      · exact .cleanup _
      · exact ⟨rfl, by simp, by simp⟩
  case pipe2 =>
      split
      · exact .cleanup _
      · exact ⟨rfl, by simp, by simp⟩
  case fork =>
      split
      · exact ⟨rfl, by simp, by simp⟩
      · exact .cleanup _
  case setAffinity => exact ⟨rfl, fun _ fails => affinity pc fails, by simp⟩
  case setPriority =>
      by_cases fails : faults.fails = true
      · have gaveUp : l.setFailed = true ∨ r.failed = true := by
          rcases Bool.or_eq_true_iff.mp fails with first | second
          · exact .inl (givesUp pc first)
          · exact .inr (priority pc second)
        simp only [Bool.or_eq_true, Locals.observe_setFailed, gaveUp, if_true]
        exact .cleanup _
      · obtain ⟨child, none⟩ := short.resolve_left fails
        simp only [Locals.observe_pid, child, Int.lt_irrefl, if_false]
        split
        · exact .cleanup _
        · exact ⟨rfl, by simp, fun _ => none⟩
  case writeReady =>
      have ended : ¬ 0 < iterCnt := by have := noLoop pc; omega
      simp only [Locals.childLoop, ended, if_false]
      exact ⟨rfl, by simp, by simp⟩
  case killSelf => exact .cleanup _
  case restorePriority => exact ⟨rfl, by simp, by simp⟩
  case restoreAffinity => exact .closing _ _
  case close => exact .closing _ _
  case returned => exact ⟨by simp [pc, Pc.inBranch], by simp [pc], by simp [pc]⟩
  case aborted => exact ⟨by simp [pc, Pc.inBranch], by simp [pc], by simp [pc]⟩

end

theorem quiet_of_reachable {machine : Machine} {errno : Errno} (parentFails : parent.fails = true)
    (rest : child.fails = true ∨ iterCnt = 0) (reachable : Faulty iterCnt parent child machine errno w) :
    ∀ index p, w.procs[index]? = some p →
      Quiet iterCnt (if index = 0 then parent else child) p.locals ∧
        (index ≠ 0 → p.locals.pc.beforeFork = false ∧ p.locals.pid = 0) := by
  refine procs_invariant (P := fun index p => Quiet iterCnt (if index = 0 then parent else child) p.locals ∧
    (index ≠ 0 → p.locals.pc.beforeFork = false ∧ p.locals.pid = 0)) (fun _ _ _ holds => holds) ?_ ?_ ?_ reachable
  · intro w index p call r permitted turn holds
    obtain ⟨quiet, isChild⟩ := holds
    have obeyed := turn.obeys permitted
    refine ⟨quiet.resume ?_ ?_ ?_, fun notFirst => ⟨?_, ?_⟩⟩
    · intro pc fails
      simpa [setFaults, pc, fails] using obeyed
    · intro pc fails
      simpa [setFaults, pc, fails] using obeyed
    · by_cases first : index = 0
      · simp [first, parentFails]
      · simp only [if_neg first]
        exact rest.imp_right fun none => ⟨(isChild first).2, none⟩
    · exact continueAt_beforeFork _ _ _ (.inl (isChild notFirst).1)
    · have same := congrArg Prod.fst (continueAt_settled iterCnt (p.locals.observe r) r
        (isChild notFirst).1)
      exact same.trans (isChild notFirst).2
  · intro w index p n _ turn _
    have atFork := fork_of_request turn.request
    have later : w.procs.length ≠ 0 := by
      have := (List.getElem?_eq_some_iff.mp turn.at_).1
      omega
    have born : (p.spawn (program iterCnt) n).locals = { p.locals with pid := 0, pc := .setAffinity } := by
      simp [continueAt, atFork, Reply.errno, Locals.observe]
    rw [born]
    exact ⟨⟨rfl, by simp, by simp⟩, fun _ => ⟨rfl, rfl⟩⟩
  · intro index p found
    cases index with
    | zero =>
        obtain rfl := Option.some.inj found
        exact ⟨⟨rfl, by simp [Locals.entry], by simp [Locals.entry]⟩, fun notFirst => absurd rfl notFirst⟩
    | succ index => simp [World.boot] at found

theorem inBranch_of_waiting {l : Locals} (asked : request l = some call) (waits : waiting call = true) :
    l.pc.inBranch = true := by
  cases pc : l.pc <;> simp only [request, pc, Option.some.injEq, reduceCtorEq] at asked <;> subst asked <;>
    first | rfl | contradiction

theorem leavesNone_of_parent_fails (fails : parent.fails = true) (rest : child.fails = true ∨ iterCnt = 0) :
    LeavesNone iterCnt parent child := by
  intro machine errno w reachable leftBehind
  obtain ⟨gone, left, -, forever⟩ := leftBehind
  obtain ⟨p, call, found, running, asked, waits, -⟩ := forever w (.refl w)
  have outside := (quiet_of_reachable fails rest reachable left p found).1.outside
  rw [inBranch_of_waiting asked waits] at outside
  contradiction

/-- A child that has ended has answered everything, so a waiting parent goes on. -/
theorem InStep.parent_not_blocked (inStep : InStep iterCnt p c) (procs : w.procs = [p, c]) (books : Books w p c)
    (ceased : c.finished (program iterCnt) = true) :
    ¬ BlockedForever (program iterCnt) (Obeys (program iterCnt) (undisturbed (program iterCnt))) waiting 0 w := by
  intro forever
  obtain ⟨q, call, found, running, asked, waits, -⟩ := forever w (.refl w)
  obtain rfl : p = q := by simpa [procs] using found
  have answered := inStep.child.child_ended (inStep.pastLoop_of_finished ceased)
  have counts := inStep.parent.counts
  have bound := inStep.parent.inLoop
  have pipes := inStep.parentPipes
  obtain ⟨-, fds2, -, -⟩ := books
  have inside := inBranch_of_waiting asked waits
  cases pc : p.locals.pc <;> simp only [pc, Pc.inBranch, Bool.false_eq_true] at inside <;>
    simp only [program_request, request, pc, Option.some.injEq] at asked <;> subst asked <;>
    simp only [parentCounts, pc, counted, Option.some.injEq, Counts.mk.injEq, reduceCtorEq] at counts <;>
    simp only [pc, Pc.inLoop, Pc.pastLoop, true_implies, reduceCtorEq, false_implies] at bound pipes
  case readReady =>
      have natural : w.natural (program iterCnt) p (.read (some (.readEnd 1))) (.size 1) = true :=
        natural_read pipes.fds2.readEnd (by omega)
      exact not_blockedForever found running (by simp only [program_request, request, pc, pipes.fds2.fst])
        natural natural forever
  case readReply =>
      have natural : w.natural (program iterCnt) p (.read (some (.readEnd 1))) (.size 1) = true :=
        natural_read pipes.fds2.readEnd (by omega)
      exact not_blockedForever found running (by simp only [program_request, request, pc, pipes.fds2.fst])
        natural natural forever
  case wait =>
      have zombie := zombie_of_finished procs ceased (inStep.supervised.unreaped (by rw [pc]; rfl))
      have natural : w.natural (program iterCnt) p .wait .ok = true := by simp [World.natural, zombie]
      exact not_blockedForever found running (by simp only [program_request, request, pc]) natural natural forever
  all_goals contradiction

/-- A parent that has ended has collected the child. -/
theorem InStep.child_finished (inStep : InStep iterCnt p c) (ceased : p.finished (program iterCnt) = true) :
    c.finished (program iterCnt) = true := by
  apply inStep.supervised.collected
  have counts := inStep.parent.counts
  simp only [Proc.finished, inStep.supervised.parentRunning, bne_self_eq_false, Bool.false_or, Option.isNone_iff_eq_none,
    program_request] at ceased
  cases pc : p.locals.pc <;> simp [request, pc] at ceased
  case returned => rfl
  case aborted => simp [parentCounts, pc] at counts

theorem leavesNone_of_both_succeed (parentSets : parent.fails = false) (childSets : child.fails = false) :
    LeavesNone iterCnt parent child := by
  intro machine errno w reachable
  rw [Faulty, setFaults_none parentSets childSets] at reachable
  rw [setFaults_none parentSets childSets]
  rcases inStep_of_reachable reachable with ⟨p, procs, -⟩ | ⟨p, c, pair, inStep⟩
  · exact not_leftBehind_of_single procs
  · have procs := pair.procs
    apply not_leftBehind_of_pair procs
    · have books := inStep.books procs (balanced_of_reachable (balanced_boot _ _) reachable)
      exact inStep.parent_not_blocked procs books
    · intro ceased forever
      obtain ⟨q, call, found, running, asked, -, -⟩ := forever w (.refl w)
      obtain rfl : c = q := by simpa [procs] using found
      have ended := inStep.child_finished ceased
      rw [not_finished running asked] at ended
      contradiction

theorem contextSwitchTest_leavesNone_iff (iterCnt : Nat) (parent child : SetFaults) :
    LeavesNone iterCnt parent child ↔ parent.fails = child.fails ∨ parent.fails = true ∧ iterCnt = 0 := by
  cases parentFails : parent.fails <;> cases childFails : child.fails
  · simpa using leavesNone_of_both_succeed parentFails childFails
  · simpa using not_leavesNone_of_child_fails childFails parentFails
  · rcases Nat.eq_zero_or_pos iterCnt with none | loops
    · simpa [none] using leavesNone_of_parent_fails parentFails (.inr rfl)
    · simpa [show iterCnt ≠ 0 by omega] using not_leavesNone_of_parent_fails parentFails childFails loops
  · simpa using leavesNone_of_parent_fails parentFails (.inl childFails)

theorem contextSwitchTest_strands_parent :
    ¬ LeavesNone 1 { affinity := false, priority := false } { affinity := true, priority := true } :=
  not_leavesNone_of_child_fails rfl rfl

end Oreo.Bench.CtxSwitch
