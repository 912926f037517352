import Oreo.Bench.CtxSwitch.Model
import Oreo.Posix.Blocking

namespace Oreo.Bench.CtxSwitch

open Oreo.Posix Oreo.Transition

/-! # How far parent and child have come -/

variable {iterCnt : Nat} {w : World Locals} {p c : Proc Locals} {call : Call} {r : Reply}

def Pc.beforeFork : Pc → Bool
  | .getPriority | .getAffinity | .allocDiffs | .pipe1 | .pipe2 | .fork => true
  | _ => false

@[simp] theorem program_request (l : Locals) : (program iterCnt).request l = request l := rfl

@[simp] theorem program_resume (l : Locals) (r : Reply) :
    (program iterCnt).resume l r = continueAt iterCnt (l.observe r) r := rfl

/-- The variables that are not assigned after the fork. -/
def Locals.settled (l : Locals) : Int × (Fd × Fd) × (Fd × Fd) × Bool := (l.pid, l.fds1, l.fds2, l.saved)

@[simp] theorem cleanup_settled (l : Locals) : l.cleanup.settled = l.settled := rfl

@[simp] theorem err_settled (l : Locals) : l.err.settled = l.settled := rfl

@[simp] theorem closing_settled (l : Locals) (pending : List Fd) : (l.closing pending).settled = l.settled := by
  cases pending <;> rfl

@[simp] theorem parentLoop_settled (l : Locals) : (l.parentLoop iterCnt).settled = l.settled := by
  unfold Locals.parentLoop
  split <;> rfl

@[simp] theorem childLoop_settled (l : Locals) : (l.childLoop iterCnt).settled = l.settled := rfl

@[simp] theorem cleanup_beforeFork (l : Locals) : l.cleanup.pc.beforeFork = false := by
  unfold Locals.cleanup
  dsimp only
  split <;> rfl

@[simp] theorem err_beforeFork (l : Locals) : l.err.pc.beforeFork = false :=
  cleanup_beforeFork _

@[simp] theorem closing_beforeFork (l : Locals) (pending : List Fd) :
    (l.closing pending).pc.beforeFork = false := by
  cases pending <;> rfl

@[simp] theorem parentLoop_beforeFork (l : Locals) : (l.parentLoop iterCnt).pc.beforeFork = false := by
  unfold Locals.parentLoop
  split <;> rfl

@[simp] theorem childLoop_beforeFork (l : Locals) : (l.childLoop iterCnt).pc.beforeFork = false := by
  unfold Locals.childLoop
  dsimp only
  split <;> rfl

theorem continueAt_settled (iterCnt : Nat) (l : Locals) (r : Reply) (later : l.pc.beforeFork = false) :
    (continueAt iterCnt l r).settled = l.settled := by
  cases pc : l.pc <;> simp only [pc, Pc.beforeFork, reduceCtorEq] at later <;>
    simp only [continueAt, pc] <;> (try split_ifs) <;> first | rfl | simp <;> rfl

theorem continueAt_beforeFork (iterCnt : Nat) (l : Locals) (r : Reply) (later : l.pc.beforeFork = false ∨ l.pc = .fork) :
    (continueAt iterCnt l r).pc.beforeFork = false := by
  cases pc : l.pc <;> simp only [pc, Pc.beforeFork, reduceCtorEq, or_self] at later <;>
    simp only [continueAt, pc] <;> (try split_ifs) <;> first | rfl | simp

theorem fork_of_request {l : Locals} (asked : request l = some .fork) : l.pc = .fork := by
  cases pc : l.pc <;> simp [request, pc] at asked ⊢

theorem forksOnce : ForksOnce (program iterCnt) (fun l => l.pc.beforeFork = true) (fun l => l.pid) where
  before l asked := by
    rw [fork_of_request asked]
    rfl
  after l r asked := by
    have later := continueAt_beforeFork iterCnt (l.observe r) r (.inr (fork_of_request asked))
    simp [later]
  stays l call r asked notFork later := by
    have still := continueAt_beforeFork iterCnt (l.observe r) r (.inl (by simpa using later))
    simp [still]
  result l n asked := by
    simp only [program_resume, continueAt, Locals.observe_pc, fork_of_request asked]
    split_ifs <;> rfl
  keeps l call r asked notFork later := by
    exact congrArg Prod.fst (continueAt_settled iterCnt (l.observe r) r (by simpa using later))

/-! ## Counting bytes -/

/-- The bytes a process has moved through `fds1` (pipe 0) and `fds2` (pipe 1). -/
structure Counts where
  wrote1 : Nat
  took1 : Nat
  wrote2 : Nat
  took2 : Nat
deriving DecidableEq

def counted (t : Tally) : Counts := ⟨t.wrote 0, t.took 0, t.wrote 1, t.took 1⟩

/-- The bytes the parent has moved when it is about to make the call `pc`. -/
def parentCounts (iterCnt : Nat) (l : Locals) : Option Counts :=
  match l.pc with
  | .setAffinity | .setPriority | .readReady => some ⟨0, 0, 0, 0⟩
  | .startTimer | .writeRequest => some ⟨l.idx, 0, 0, l.idx + 1⟩
  | .readReply => some ⟨l.idx + 1, 0, 0, l.idx + 1⟩
  | .stopTimer => some ⟨l.idx + 1, 0, 0, l.idx + 2⟩
  | .wait | .restorePriority | .restoreAffinity | .close _ _ | .returned => some ⟨iterCnt, 0, 0, iterCnt + 1⟩
  | _ => none

/-- The bytes the child has moved when it is about to make the call `pc`. -/
def childCounts (iterCnt : Nat) (l : Locals) : Option Counts :=
  match l.pc with
  | .setAffinity | .setPriority | .writeReady => some ⟨0, 0, 0, 0⟩
  | .readRequest => some ⟨0, l.idx, l.idx + 1, 0⟩
  | .writeReply => some ⟨0, l.idx + 1, l.idx + 1, 0⟩
  | .killSelf | .restorePriority | .restoreAffinity | .close _ _ | .returned => some ⟨0, iterCnt, iterCnt + 1, 0⟩
  | _ => none

/-- The loops are over and the pipes no longer used. -/
def Pc.pastLoop : Pc → Bool
  | .wait | .killSelf | .restorePriority | .restoreAffinity | .close _ _ | .returned | .aborted => true
  | _ => false

def Pc.inLoop : Pc → Bool
  | .startTimer | .writeRequest | .readReply | .stopTimer | .readRequest | .writeReply => true
  | _ => false

theorem Pc.pastLoop_of_inLoop {pc : Pc} (inLoop : pc.inLoop = true) : pc.pastLoop = false := by
  cases pc <;> first | rfl | simp [Pc.inLoop] at inLoop

structure HasPipes (l : Locals) (handles : List Handle) : Prop where
  fds1 : OpenPipe 0 l.fds1 handles
  fds2 : OpenPipe 1 l.fds2 handles

/-- The process has moved as many bytes as its place in the code says. -/
structure OnTrack (iterCnt : Nat) (counts : Locals → Option Counts) (l : Locals) (t : Tally) : Prop where
  saved : l.saved = true
  unfailed : l.pc = .setPriority → l.setFailed = false
  inLoop : l.pc.inLoop = true → l.idx < iterCnt
  ended : l.pc.pastLoop = true → l.idx = iterCnt
  counts : counts l = some (counted t)

theorem HasPipes.after {l : Locals} {handles : List Handle} (pipes : HasPipes l handles)
    (later : l.pc.beforeFork = false) (open_ : ∀ fd, call ≠ .close fd) :
    HasPipes (resume iterCnt l r) (chargeHandles handles call r) := by
  have same := continueAt_settled iterCnt (l.observe r) r later
  simp only [Locals.settled, Prod.mk.injEq] at same
  constructor
  · rw [resume, same.2.1]
    exact pipes.fds1.charge open_
  · rw [resume, same.2.2.1]
    exact pipes.fds2.charge open_

theorem counted_read (t : Tally) (pipe : Nat) :
    counted (t.charge (.read (some (.readEnd pipe))) (.size 1)) =
      { counted t with
        took1 := t.took 0 + if pipe = 0 then 1 else 0
        took2 := t.took 1 + if pipe = 1 then 1 else 0 } := by
  unfold counted Tally.charge bump
  grind

theorem counted_write (t : Tally) (pipe : Nat) :
    counted (t.charge (.write (some (.writeEnd pipe))) (.size 1)) =
      { counted t with
        wrote1 := t.wrote 0 + if pipe = 0 then 1 else 0
        wrote2 := t.wrote 1 + if pipe = 1 then 1 else 0 } := by
  unfold counted Tally.charge bump
  grind

section

variable {l : Locals} {t : Tally} {counts : Locals → Option Counts}

theorem OnTrack.before (early : l.pc.inLoop = false) (notOver : l.pc.pastLoop = false) (saved : l.saved = true)
    (unfailed : l.pc = .setPriority → l.setFailed = false) (kept : counts l = some (counted t)) :
    OnTrack iterCnt counts l t :=
  ⟨saved, unfailed, by simp [early], by simp [notOver], kept⟩

theorem OnTrack.inside (inLoop : l.pc.inLoop = true) (saved : l.saved = true) (bound : l.idx < iterCnt)
    (kept : counts l = some (counted t)) : OnTrack iterCnt counts l t := by
  have notOver := Pc.pastLoop_of_inLoop inLoop
  have notSetting : l.pc ≠ .setPriority := by
    intro pc
    simp [pc, Pc.inLoop] at inLoop
  exact ⟨saved, fun pc => absurd pc notSetting, fun _ => bound, by simp [notOver], kept⟩

theorem OnTrack.past (beyond : l.pc.pastLoop = true) (saved : l.saved = true) (ended : l.idx = iterCnt)
    (kept : counts l = some (counted t)) : OnTrack iterCnt counts l t := by
  have notIn : l.pc.inLoop ≠ true := by
    intro inLoop
    simp [Pc.pastLoop_of_inLoop inLoop] at beyond
  have notSetting : l.pc ≠ .setPriority := by
    intro pc
    simp [pc, Pc.pastLoop] at beyond
  exact ⟨saved, fun pc => absurd pc notSetting, fun inLoop => absurd inLoop notIn, fun _ => ended, kept⟩

theorem OnTrack.parentLoop (saved : l.saved = true) (bound : l.idx ≤ iterCnt)
    (counts : counted t = ⟨l.idx, 0, 0, l.idx + 1⟩) :
    OnTrack iterCnt (parentCounts iterCnt) (l.parentLoop iterCnt) t := by
  unfold Locals.parentLoop
  split
  · exact .inside rfl saved ‹_› (by simp [parentCounts, counts])
  · have ended : l.idx = iterCnt := by omega
    exact .past rfl saved ended (by simp [parentCounts, counts, ended])

theorem OnTrack.childLoop (saved : l.saved = true) (bound : l.idx ≤ iterCnt)
    (counts : counted t = ⟨0, l.idx, l.idx + 1, 0⟩) :
    OnTrack iterCnt (childCounts iterCnt) (l.childLoop iterCnt) t := by
  unfold Locals.childLoop
  split
  · exact .inside rfl saved ‹_› (by simp [childCounts, counts])
  · have ended : l.idx = iterCnt := by omega
    exact .past rfl saved ended (by simp [childCounts, counts, ended])

theorem OnTrack.parentClosing (pending : List Fd) (saved : l.saved = true) (ended : l.idx = iterCnt)
    (counts : counted t = ⟨iterCnt, 0, 0, iterCnt + 1⟩) :
    OnTrack iterCnt (parentCounts iterCnt) (l.closing pending) t := by
  cases pending <;> exact .past rfl saved ended (by simp [parentCounts, Locals.closing, counts])

theorem OnTrack.childClosing (pending : List Fd) (saved : l.saved = true) (ended : l.idx = iterCnt)
    (counts : counted t = ⟨0, iterCnt, iterCnt + 1, 0⟩) :
    OnTrack iterCnt (childCounts iterCnt) (l.closing pending) t := by
  cases pending <;> exact .past rfl saved ended (by simp [childCounts, Locals.closing, counts])

end

section Advance

variable (natural : w.natural (program iterCnt) p call r = true)
  (pipes : p.locals.pc.pastLoop = false → HasPipes p.locals p.handles)
include natural pipes

theorem OnTrack.parent_advance (track : OnTrack iterCnt (parentCounts iterCnt) p.locals p.tally)
    (turn : Turn (program iterCnt) w 0 p call r) (parent : 0 < p.locals.pid) :
    OnTrack iterCnt (parentCounts iterCnt) (resume iterCnt p.locals r) (p.tally.charge call r) := by
  obtain ⟨saved, unfailed, inLoop, ended, counts⟩ := track
  have asked := turn.request
  cases pc : p.locals.pc <;>
    simp only [parentCounts, pc, Option.some.injEq, reduceCtorEq] at counts <;>
    simp only [program_request, request, pc, Option.some.injEq, reduceCtorEq] at asked <;>
    simp only [pc, Pc.pastLoop, Pc.inLoop, true_implies, reduceCtorEq, false_implies] at pipes inLoop unfailed ended <;>
    simp only [resume, continueAt, Locals.observe_pc, pc]
  case setAffinity =>
      subst asked
      have ok := ok_of_plain natural rfl
      exact .before rfl rfl saved (fun _ => by simp [ok]) (by simp [parentCounts, Tally.charge, counts])
  case setPriority =>
      subst asked
      have ok := ok_of_plain natural rfl
      simp only [Locals.observe_setFailed, unfailed, ok, Reply.failed_ok, Bool.or_self, Bool.false_eq_true,
        if_false, Locals.observe_pid, parent, if_true]
      exact .before rfl rfl saved (by simp) (by simp [parentCounts, Tally.charge, counts])
  case readReady =>
      rw [pipes.fds2.fst] at asked
      subst asked
      obtain ⟨rfl, -⟩ := turn.read_one natural pipes.fds2.readEnd pipes.fds2.writeEnd
      exact .parentLoop saved (Nat.zero_le _) (by grind [counted_read, counted])
  case startTimer =>
      subst asked
      exact .inside rfl saved inLoop (by simp [parentCounts, Tally.charge, counts])
  case writeRequest =>
      rw [pipes.fds1.snd] at asked
      subst asked
      obtain ⟨rfl, -⟩ := Turn.write_one natural pipes.fds1.writeEnd
      exact .inside rfl saved inLoop (by grind [counted_write, counted, parentCounts, Locals.observe_idx])
  case readReply =>
      rw [pipes.fds2.fst] at asked
      subst asked
      obtain ⟨rfl, -⟩ := turn.read_one natural pipes.fds2.readEnd pipes.fds2.writeEnd
      exact .inside rfl saved inLoop (by grind [counted_read, counted, parentCounts, Locals.observe_idx])
  case stopTimer =>
      subst asked
      exact .parentLoop saved inLoop counts.symm
  case wait =>
      subst asked
      simp only [Locals.cleanup, Locals.observe_saved, saved, if_true]
      have same : p.tally.charge .wait r = p.tally := rfl
      exact .past rfl rfl ended (by simp [parentCounts, same, counts])
  case restorePriority =>
      subst asked
      exact .past rfl saved ended (by simp [parentCounts, Tally.charge, counts])
  case restoreAffinity =>
      subst asked
      exact .parentClosing _ saved ended counts.symm
  case close fd pending =>
      subst asked
      exact .parentClosing _ saved ended counts.symm

theorem OnTrack.child_advance (track : OnTrack iterCnt (childCounts iterCnt) p.locals p.tally)
    (turn : Turn (program iterCnt) w 1 p call r) (child : p.locals.pid = 0) :
    OnTrack iterCnt (childCounts iterCnt) (resume iterCnt p.locals r) (p.tally.charge call r) := by
  obtain ⟨saved, unfailed, inLoop, ended, counts⟩ := track
  have asked := turn.request
  cases pc : p.locals.pc <;>
    simp only [childCounts, pc, Option.some.injEq, reduceCtorEq] at counts <;>
    simp only [program_request, request, pc, Option.some.injEq, reduceCtorEq] at asked <;>
    simp only [pc, Pc.pastLoop, Pc.inLoop, true_implies, reduceCtorEq, false_implies] at pipes inLoop unfailed ended <;>
    simp only [resume, continueAt, Locals.observe_pc, pc]
  case setAffinity =>
      subst asked
      have ok := ok_of_plain natural rfl
      exact .before rfl rfl saved (fun _ => by simp [ok]) (by simp [childCounts, Tally.charge, counts])
  case setPriority =>
      subst asked
      have ok := ok_of_plain natural rfl
      simp only [Locals.observe_setFailed, unfailed, ok, Reply.failed_ok, Bool.or_self, Bool.false_eq_true,
        if_false, Locals.observe_pid, child, Int.lt_irrefl]
      exact .before rfl rfl saved (by simp) (by simp [childCounts, Tally.charge, counts])
  case writeReady =>
      rw [pipes.fds2.snd] at asked
      subst asked
      obtain ⟨rfl, -⟩ := Turn.write_one natural pipes.fds2.writeEnd
      exact .childLoop saved (Nat.zero_le _) (by grind [counted_write, counted])
  case readRequest =>
      rw [pipes.fds1.fst] at asked
      subst asked
      obtain ⟨rfl, -⟩ := turn.read_one natural pipes.fds1.readEnd pipes.fds1.writeEnd
      exact .inside rfl saved inLoop (by grind [counted_read, counted, childCounts, Locals.observe_idx])
  case writeReply =>
      rw [pipes.fds2.snd] at asked
      subst asked
      obtain ⟨rfl, -⟩ := Turn.write_one natural pipes.fds2.writeEnd
      exact .childLoop saved inLoop (by grind [counted_write, counted, Locals.observe_idx])
  case killSelf =>
      subst asked
      simp only [Locals.err, Locals.cleanup, Locals.observe_saved, saved, if_true]
      have same : p.tally.charge .killSelf r = p.tally := rfl
      exact .past rfl rfl ended (by simp [childCounts, same, counts])
  case restorePriority =>
      subst asked
      exact .past rfl saved ended (by simp [childCounts, Tally.charge, counts])
  case restoreAffinity =>
      subst asked
      exact .childClosing _ saved ended counts.symm
  case close fd pending =>
      subst asked
      exact .childClosing _ saved ended counts.symm

end Advance

end Oreo.Bench.CtxSwitch
