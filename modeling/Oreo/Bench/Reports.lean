import Oreo.Bench.CtxSwitch.Progress
import Oreo.Bench.Fork.Model
import Oreo.Bench.Recv.Progress
import Oreo.Bench.Send.Progress
import Oreo.Bench.Socket.Faults
import Oreo.Posix.Children

/-! # Who returns a success -/

namespace Oreo.Bench.CtxSwitch

open Oreo.Posix Oreo.Transition

variable {iterCnt : Nat} {w : World Locals} {machine : Machine} {errno : Errno}

def returned (l : Locals) : Option Bool :=
  match l.pc with
  | .returned => some l.ret
  | _ => none

/-- A child stays in its branch until it fails. -/
def InChild (l : Locals) : Prop :=
  match l.pc with
  | .setAffinity | .setPriority | .writeReady | .readRequest | .writeReply | .killSelf => l.pid = 0
  | .restorePriority | .restoreAffinity | .close _ _ | .returned | .aborted => l.ret = true
  | _ => False

theorem inChild_err (l : Locals) : InChild l.err := by
  unfold Locals.err Locals.cleanup InChild
  cases l.saved <;> simp

theorem inChild_closing {l : Locals} (failed : l.ret = true) (pending : List Fd) : InChild (l.closing pending) := by
  cases pending <;> exact failed

theorem inChild_childLoop {l : Locals} (child : l.pid = 0) : InChild (l.childLoop iterCnt) := by
  unfold Locals.childLoop InChild
  by_cases more : l.idx < iterCnt
  · simpa [more] using child
  · simpa [more] using child

theorem inChild_returned {l : Locals} (isChild : InChild l) : returned l ≠ some false := by
  intro success
  cases pc : l.pc <;> simp [returned, pc] at success
  case returned => simp [InChild, pc, success] at isChild

theorem only_parent_reports
    (reachable : Reachable (step (program iterCnt)) (fun _ _ => True) (World.boot machine (Locals.entry errno)) w) :
    OnlyParentReports returned w := by
  have children : OfChildren InChild w := by
    refine children_invariant rfl ?_ ?_ reachable
    · intro l asked
      simp only [program_resume, continueAt, Locals.observe_pc, fork_of_request asked]
      rfl
    · intro w index p call r _ turn _ isChild
      rw [program_resume]
      cases pc : p.locals.pc <;> simp only [InChild, pc] at isChild <;> simp only [continueAt, Locals.observe_pc, pc]
      case setAffinity => exact isChild
      case setPriority =>
        split
        · exact inChild_err _
        · rw [if_neg (by simp [isChild])]
          exact isChild
      case writeReady => exact inChild_childLoop isChild
      case readRequest => exact isChild
      case writeReply => exact inChild_childLoop isChild
      case killSelf => exact inChild_err _
      case restorePriority => exact isChild
      case restoreAffinity => exact inChild_closing (l := p.locals.observe r) isChild _
      case close fd pending => exact inChild_closing (l := p.locals.observe r) isChild pending
      case returned => simpa [InChild, pc] using isChild
      case aborted => simpa [InChild, pc] using isChild
  exact children.imp fun _ => inChild_returned

end Oreo.Bench.CtxSwitch

namespace Oreo.Bench.Fork

open Oreo.Posix Oreo.Transition

variable {iterCnt pages : Nat} {w : World Locals} {machine : Machine} {errno : Errno}

def returned (l : Locals) : Option Bool :=
  match l.pc with
  | .returned => some l.ret
  | _ => none

def InChild (l : Locals) : Prop :=
  match l.pc with
  | .stampChildEnd | .killSelf => True
  | .returned => l.ret = true
  | _ => False

theorem fork_of_request {l : Locals} (asked : request l = some .fork) : l.pc = .fork := by
  cases pc : l.pc <;> simp [request, pc] at asked ⊢

theorem inChild_returned {l : Locals} (isChild : InChild l) : returned l ≠ some false := by
  intro success
  cases pc : l.pc <;> simp [returned, pc] at success
  case returned => simp [InChild, pc, success] at isChild

theorem only_parent_reports
    (reachable : Reachable (step (program iterCnt pages)) (fun _ _ => True)
      (World.boot machine (Locals.entry pages errno)) w) : OnlyParentReports returned w := by
  have children : OfChildren InChild w := by
    refine children_invariant rfl ?_ ?_ reachable
    · intro l asked
      simp only [program, resume, continueAt, Locals.observe_pc, fork_of_request asked]
      trivial
    · intro w index p call r _ turn _ isChild
      simp only [program, resume]
      cases pc : p.locals.pc <;> simp only [InChild, pc] at isChild <;> simp only [continueAt, Locals.observe_pc, pc]
      case stampChildEnd => trivial
      case killSelf => rfl
      case returned => simpa [InChild, pc] using isChild
  exact children.imp fun _ => inChild_returned

end Oreo.Bench.Fork

namespace Oreo.Bench.Socket

open Oreo.Posix

variable {Pc : Type}

/-- A `kill` by which the child means to end itself does so: `SIGINT` is not ignored and
the call does not fail. At the parent's label `server_err` it may also find `errored` set. -/
def endsItself : Rule (Locals Pc) := fun w _ p call r =>
  match call with
  | .killSelf => !w.sigintIgnored && r == .ok
  | .kill pid => pid != 0 || p.locals.errored || !w.sigintIgnored && r == .ok
  | _ => true

theorem fate_of_endsItself {prog : Program (Locals Pc)} {w : World (Locals Pc)} {index : Nat} {p : Proc (Locals Pc)}
    {r : Reply} (obeyed : endsItself w index p .killSelf r = true) :
    w.fate prog index index p .killSelf r ≠ .running := by
  obtain ⟨fatal, rfl⟩ : w.sigintIgnored = false ∧ r = .ok := by simpa [endsItself] using obeyed
  exact fate_killSelf fatal

@[simp] theorem closing_ret (release : Release → Pc) (l : Locals Pc) (pending : List Fd) :
    (l.closing release pending).ret = l.ret := by
  cases pending <;> rfl

@[simp] theorem finish_ret (release : Release → Pc) (l : Locals Pc) (s : Release) :
    (l.finish release s).ret = l.ret := by
  cases s <;> simp [Locals.finish]

end Oreo.Bench.Socket

namespace Oreo.Bench.Recv

open Oreo.Posix Oreo.Transition Oreo.Bench.Socket

variable {iterCnt msgSize : Nat} {w : World Locals} {machine : Machine} {errno : Errno} {errored : Bool}

def returned (l : Locals) : Option Bool :=
  match l.pc with
  | .returned | .release .returned => some l.ret
  | _ => none

def InChild (l : Locals) : Prop :=
  match l.pc with
  | .readReady | .socketClient | .connect | .send | .writeSent | .readAck | .clientErr => True
  | _ => False

theorem inChild_returned {l : Locals} (isChild : InChild l) : returned l ≠ some false := by
  intro success
  cases pc : l.pc <;> simp [InChild, pc] at isChild <;> simp [returned, pc] at success

theorem inChild_sendLoop (l : Locals) : InChild (sendLoop iterCnt l) := by
  unfold sendLoop InChild
  by_cases more : l.idx < iterCnt <;> simp [more]

theorem only_parent_reports_of_endsItself
    (reachable : Reachable (step (program iterCnt msgSize)) (Obeys (program iterCnt msgSize) endsItself)
      (World.boot machine (Locals.entry (.setup .allocDiffs) errno errored)) w) : OnlyParentReports returned w := by
  have children : OfChildren InChild w := by
    refine children_invariant rfl ?_ ?_ reachable
    · intro l asked
      rw [starts.resume _ _ _ (fork_of_request asked)]
      trivial
    · intro w index p call r permitted turn alive isChild
      have asked := turn.request
      have obeyed := turn.obeys permitted
      rw [program_resume]
      cases pc : p.locals.pc <;> simp only [InChild, pc] at isChild <;> simp only [continueAt, Locals.observe_pc, pc]
      case readReady => trivial
      case socketClient => split <;> trivial
      case connect =>
        split
        · trivial
        · exact inChild_sendLoop _
      case send =>
        split
        · exact inChild_sendLoop _
        · trivial
      case writeSent => trivial
      case readAck => exact inChild_sendLoop _
      case clientErr =>
        rw [program_request, request, pc, Option.some.injEq] at asked
        subst asked
        exact absurd alive (fate_of_endsItself obeyed)
  exact children.imp fun _ => inChild_returned

end Oreo.Bench.Recv

namespace Oreo.Bench.Send

open Oreo.Posix Oreo.Transition Oreo.Bench.Socket

variable {iterCnt msgSize : Nat} {w : World Locals} {machine : Machine} {errno : Errno} {errored : Bool}

def returned (l : Locals) : Option Bool :=
  match l.pc with
  | .returned | .release .returned => some l.ret
  | _ => none

def InChild (l : Locals) : Prop :=
  l.pid = 0 ∧
    match l.pc with
    | .socketServer | .bind | .listen | .writeReady | .accept | .recv | .clientErr | .serverErr => True
    | .release _ => l.ret = true
    | _ => False

theorem inChild_returned {l : Locals} (isChild : InChild l) : returned l ≠ some false := by
  intro success
  obtain ⟨-, isChild⟩ := isChild
  cases pc : l.pc <;> simp only [pc] at isChild <;> simp [returned, pc] at success
  case release s => cases s <;> simp [isChild] at success

theorem only_parent_reports_of_endsItself
    (reachable : Reachable (step (program iterCnt msgSize)) (Obeys (program iterCnt msgSize) endsItself)
      (World.boot machine (Locals.entry (.setup .allocDiffs) errno errored)) w) : OnlyParentReports returned w := by
  have children : OfChildren InChild w := by
    refine children_invariant rfl ?_ ?_ reachable
    · intro l asked
      rw [starts.resume _ _ _ (fork_of_request asked)]
      exact ⟨rfl, trivial⟩
    · intro w index p call r permitted turn alive inChild
      obtain ⟨child, isChild⟩ := inChild
      have asked := turn.request
      have obeyed := turn.obeys permitted
      rw [program_resume]
      cases pc : p.locals.pc <;> simp only [pc] at isChild <;> simp only [continueAt, Locals.observe_pc, pc]
      case socketServer => split <;> exact ⟨child, trivial⟩
      case bind => split <;> exact ⟨child, trivial⟩
      case listen => split <;> exact ⟨child, trivial⟩
      case writeReady => exact ⟨child, trivial⟩
      case accept => split <;> exact ⟨child, trivial⟩
      case recv => exact ⟨child, trivial⟩
      case clientErr =>
        rw [program_request, request, pc, Option.some.injEq] at asked
        subst asked
        exact absurd alive (fate_of_endsItself obeyed)
      case serverErr =>
        rw [program_request, request, pc, Option.some.injEq, child] at asked
        subst asked
        by_cases set : p.locals.errored
        · rw [if_pos (by exact set)]
          exact ⟨child, rfl⟩
        · obtain ⟨fatal, rfl⟩ : w.sigintIgnored = false ∧ r = .ok := by simpa [endsItself, set] using obeyed
          exact absurd alive (fate_kill_group fatal)
      case release s =>
        obtain ⟨s', after⟩ := finish_pc Pc.release (p.locals.observe r) s pc
        have settled : ((p.locals.observe r).finish .release s).settled = (p.locals.observe r).settled :=
          finish_settled _ s
        refine ⟨(congrArg Prod.fst settled).trans child, ?_⟩
        rw [after]
        exact (finish_ret Pc.release (p.locals.observe r) s).trans isChild
  exact children.imp fun _ => inChild_returned

end Oreo.Bench.Send

namespace Oreo.Bench

open Oreo.Posix Oreo.Transition Oreo.Bench.Socket

/-- In every run no child of the four tests returns a success: in `context_switch_test`
and `fork_test` whatever the calls come to, in `recv_test` and `send_test` if the signals
by which the child means to end itself do so. -/
theorem tests_report_from_parent_only (iterCnt size : Nat) (machine : Machine) (errno : Errno) (errored : Bool) :
    Always (step (CtxSwitch.program iterCnt)) (fun _ _ => True) (OnlyParentReports CtxSwitch.returned)
        (World.boot machine (CtxSwitch.Locals.entry errno)) ∧
      Always (step (Fork.program iterCnt size)) (fun _ _ => True) (OnlyParentReports Fork.returned)
        (World.boot machine (Fork.Locals.entry size errno)) ∧
      Always (step (Recv.program iterCnt size)) (Obeys (Recv.program iterCnt size) endsItself)
        (OnlyParentReports Recv.returned) (World.boot machine (Socket.Locals.entry (.setup .allocDiffs) errno errored)) ∧
      Always (step (Send.program iterCnt size)) (Obeys (Send.program iterCnt size) endsItself)
        (OnlyParentReports Send.returned) (World.boot machine (Socket.Locals.entry (.setup .allocDiffs) errno errored)) :=
  ⟨fun _ => CtxSwitch.only_parent_reports, fun _ => Fork.only_parent_reports,
    fun _ => Recv.only_parent_reports_of_endsItself, fun _ => Send.only_parent_reports_of_endsItself⟩

/-- Started with `SIGINT` ignored, the child of `send_test` gets no socket, survives its
own signal and returns `false`; so does the child of `recv_test`. -/
theorem socketTests_report_from_child :
    ¬ Always (step (Send.program 1 1)) (fun _ _ => True) (OnlyParentReports Send.returned)
        (World.boot { Machine.plain with sigintIgnored := true }
          (Socket.Locals.entry (.setup .allocDiffs) .eagain false)) ∧
      ¬ Always (step (Recv.program 1 1)) (fun _ _ => True) (OnlyParentReports Recv.returned)
        (World.boot { Machine.plain with sigintIgnored := true }
          (Socket.Locals.entry (.setup .allocDiffs) .eagain false)) := by
  constructor
  · exact not_onlyParentReports (upToFork ++ [⟨1, .fail (.other 24)⟩, ⟨1, .ok⟩]) rfl rfl rfl rfl
  · exact not_onlyParentReports (upToFork ++ [⟨1, .fail (.other 4)⟩, ⟨1, .fail (.other 24)⟩, ⟨1, .ok⟩]) rfl rfl rfl rfl

end Oreo.Bench
