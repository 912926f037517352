import Oreo.Bench.Send.Model
import Oreo.Bench.Socket.Setup

namespace Oreo.Bench.Send

open Oreo.Posix Oreo.Transition Oreo.Bench.Socket

/-! # How far parent and child have come -/

variable {iterCnt msgSize : Nat} {r : Reply}

def Pc.beforeFork : Pc → Bool
  | .setup _ => true
  | _ => false

@[simp] theorem program_request (l : Locals) : (program iterCnt msgSize).request l = request msgSize l := rfl

@[simp] theorem program_resume (l : Locals) (r : Reply) :
    (program iterCnt msgSize).resume l r = continueAt iterCnt msgSize (l.observe r) r := rfl

theorem starts : Starts (program iterCnt msgSize) .setup .release iterCnt forked where
  request l s pc := by simp only [program_request, request, pc]
  resume l s r pc := by simp only [program_resume, continueAt, Locals.observe_pc, pc]
  unforked l failed := by simp [forked, failed, err]
  requestRelease l s pc := by simp only [program_request, request, pc]
  resumeRelease l s r pc := by simp only [program_resume, continueAt, Locals.observe_pc, pc]

@[simp] theorem cleanup_settled (l : Locals) : (cleanup l).settled = l.settled := rfl

@[simp] theorem err_settled (l : Locals) : (err l).settled = l.settled := rfl

@[simp] theorem timedLoop_settled (l : Locals) : (timedLoop iterCnt l).settled = l.settled := by
  unfold timedLoop
  split <;> rfl

@[simp] theorem timedLoop_beforeFork (l : Locals) : (timedLoop iterCnt l).pc.beforeFork = false := by
  unfold timedLoop
  split <;> rfl

theorem continueAt_settled (l : Locals) (later : l.pc.beforeFork = false) :
    (continueAt iterCnt msgSize l r).settled = l.settled := by
  cases pc : l.pc <;> simp only [pc, Pc.beforeFork, reduceCtorEq] at later <;>
    simp only [continueAt, pc] <;> (try split_ifs) <;> first | rfl | simp <;> rfl

theorem continueAt_beforeFork (l : Locals) (later : l.pc.beforeFork = false) :
    (continueAt iterCnt msgSize l r).pc.beforeFork = false := by
  cases pc : l.pc
  case setup s => simp [pc, Pc.beforeFork] at later
  case release s =>
      obtain ⟨s', after⟩ := finish_pc Pc.release l s pc
      simp only [continueAt, pc, after, Pc.beforeFork]
  case returned => simp only [continueAt, pc, Pc.beforeFork]
  all_goals
    simp only [continueAt, pc]
    (try split_ifs) <;> first | rfl | simp

theorem forked_branches (l : Locals) : (forked l).pc.beforeFork = false ∧ (forked l).settled = l.settled := by
  unfold forked
  split_ifs <;> exact ⟨rfl, rfl⟩

theorem fork_of_request {l : Locals} (asked : request msgSize l = some .fork) : l.pc = .setup .fork := by
  cases pc : l.pc <;> simp [request, pc] at asked
  case setup s => cases s <;> simp [Setup.request] at asked ⊢
  case release s => cases s <;> simp [Release.request] at asked

theorem forksOnce : ForksOnce (program iterCnt msgSize) (fun l => l.pc.beforeFork = true) (fun l => l.pid) :=
  starts.forksOnce rfl (fun _ asked => fork_of_request asked) forked_branches
    (fun l r later => ⟨continueAt_beforeFork (l.observe r) later, continueAt_settled (l.observe r) later⟩)

end Oreo.Bench.Send
