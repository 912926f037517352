import Oreo.Bench.CtxSwitch.Progress

namespace Oreo.Bench.CtxSwitch

open Oreo.Posix Oreo.Transition

variable {iterCnt : Nat} {w start : World Locals} {p c : Proc Locals} {call : Call} {r : Reply}

/-- The parent before its `fork`, when no call has failed. -/
structure Preparing (p : Proc Locals) : Prop where
  running : p.status = .running
  tally : p.tally = .zero
  beforeFork : p.locals.pc.beforeFork = true
  saving : p.locals.pc = .getAffinity → p.locals.saveFailed = false
  saved : p.locals.pc = .getPriority ∨ p.locals.pc = .getAffinity ∨ p.locals.saved = true
  fds1 : p.locals.pc = .pipe2 ∨ p.locals.pc = .fork → OpenPipe 0 p.locals.fds1 p.handles
  fds2 : p.locals.pc = .fork → OpenPipe 1 p.locals.fds2 p.handles

/-- The parent has collected the child. -/
def Pc.waited : Pc → Bool
  | .restorePriority | .restoreAffinity | .close _ _ | .returned => true
  | _ => false

/-- Both processes are on track, and the pipes are open as long as they are used. -/
structure InStep (iterCnt : Nat) (p c : Proc Locals) : Prop where
  parent : OnTrack iterCnt (parentCounts iterCnt) p.locals p.tally
  child : OnTrack iterCnt (childCounts iterCnt) c.locals c.tally
  parentPipes : p.locals.pc.pastLoop = false → HasPipes p.locals p.handles
  childPipes : c.locals.pc.pastLoop = false → HasPipes c.locals c.handles
  supervised : Supervised (program iterCnt) (fun l => !l.pc.pastLoop) (fun l => l.pc.waited) p c

theorem InStep.childRunning (inStep : InStep iterCnt p c) (inside : c.locals.pc.pastLoop = false) :
    c.status = .running :=
  inStep.supervised.childRunning (by simp [inside])

theorem Preparing.entry (machine : Machine) (errno : Errno) :
    ∃ first, (World.boot machine (Locals.entry errno)).procs = [first] ∧ Preparing first :=
  ⟨_, rfl, rfl, rfl, rfl, by simp [Locals.entry], .inl rfl, by simp [Locals.entry], by simp [Locals.entry]⟩

theorem Preparing.advance (preparing : Preparing p) (turn : Turn (program iterCnt) w 0 p call r)
    (natural : w.natural (program iterCnt) p call r = true) (noChild : ∀ n, ¬ (call = .fork ∧ r = .pid n)) :
    Preparing (p.advance (program iterCnt) call r) := by
  obtain ⟨running, tally, before, saving, saved, fds1, fds2⟩ := preparing
  have asked := turn.request
  cases pc : p.locals.pc <;> simp only [pc, Pc.beforeFork, reduceCtorEq] at before <;>
    simp only [program_request, request, pc, Option.some.injEq] at asked <;> subst asked
  case getPriority =>
      obtain ⟨n, rfl⟩ : ∃ n, r = .priority n := by cases r <;> simp [World.natural] at natural ⊢
      refine ⟨running, tally, ?_, ?_, ?_, ?_, ?_⟩ <;> simp [continueAt, pc, Reply.errno, Pc.beforeFork]
  case getAffinity =>
      obtain ⟨set, rfl⟩ : ∃ set, r = .cores set := by cases r <;> simp [World.natural] at natural ⊢
      refine ⟨running, tally, ?_, ?_, ?_, ?_, ?_⟩ <;>
        simp [continueAt, pc, saving pc, Reply.failed, Pc.beforeFork]
  case allocDiffs =>
      have ok := ok_of_plain natural rfl
      have saved : p.locals.saved = true := by simpa [pc] using saved
      refine ⟨running, tally, ?_, ?_, ?_, ?_, ?_⟩ <;> simp [continueAt, pc, ok, saved, Pc.beforeFork]
  case pipe1 =>
      have ok := ok_of_plain natural rfl
      have saved : p.locals.saved = true := by simpa [pc] using saved
      refine ⟨running, tally, ?_, ?_, ?_, ?_, ?_⟩ <;>
        simp [continueAt, pc, ok, saved, Pc.beforeFork, OpenPipe.new]
  case pipe2 =>
      have ok := ok_of_plain natural rfl
      have saved : p.locals.saved = true := by simpa [pc] using saved
      have fds1 : OpenPipe 0 p.locals.fds1 (chargeHandles p.handles (.pipe 1) .ok) := (fds1 (.inl pc)).charge (by simp)
      refine ⟨running, tally, ?_, ?_, ?_, ?_, ?_⟩ <;>
        simp [continueAt, pc, ok, saved, Pc.beforeFork, OpenPipe.new, fds1]
  case fork =>
      cases r <;> simp [World.natural] at natural noChild

theorem Preparing.fork (preparing : Preparing p) {n : Int} (atFork : p.locals.pc = .fork) (positive : 0 < n) :
    InStep iterCnt (p.advance (program iterCnt) .fork (.pid n)) (p.spawn (program iterCnt) n) := by
  obtain ⟨running, tally, -, -, saved, fds1, fds2⟩ := preparing
  have saved : p.locals.saved = true := by simpa [atFork] using saved
  have fds1 := fds1 (.inr atFork)
  have fds2 := fds2 atFork
  have charged : (p.tally.charge .fork (.pid n)) = .zero := tally
  have parent : (p.advance (program iterCnt) .fork (.pid n)).locals =
      { p.locals with pid := n, pc := .setAffinity } := by
    simp [continueAt, atFork, show 0 ≤ n by omega, Reply.errno, Locals.observe]
  have child : (p.spawn (program iterCnt) n).locals = { p.locals with pid := 0, pc := .setAffinity } := by
    simp [continueAt, atFork, Reply.errno, Locals.observe]
  constructor
  · rw [parent, Proc.advance_tally, charged]
    exact .before rfl rfl saved (by simp) rfl
  · rw [child]
    exact .before rfl rfl saved (by simp) rfl
  · intro
    constructor <;> rw [parent]
    · exact fds1
    · exact fds2
  · intro
    constructor <;> rw [child]
    · exact fds1
    · exact fds2
  · refine ⟨running, fun _ => rfl, ?_, fun _ => by simp⟩
    rw [parent]
    simp [Pc.waited]

/-! ## Steps of the pair -/

theorem OnTrack.beforeFork {counts : Locals → Option Counts} {l : Locals} {t : Tally}
    (track : OnTrack iterCnt counts l t) (none : ∀ l, l.pc.beforeFork = true → counts l = none) :
    l.pc.beforeFork = false := by
  by_contra before
  have absent := none l (by simpa using before)
  rw [track.counts] at absent
  contradiction

theorem parentCounts_beforeFork (l : Locals) (before : l.pc.beforeFork = true) : parentCounts iterCnt l = none := by
  cases pc : l.pc <;> simp [pc, Pc.beforeFork, parentCounts] at before ⊢

theorem childCounts_beforeFork (l : Locals) (before : l.pc.beforeFork = true) : childCounts iterCnt l = none := by
  cases pc : l.pc <;> simp [pc, Pc.beforeFork, childCounts] at before ⊢

theorem cleanup_pastLoop (l : Locals) : l.cleanup.pc.pastLoop = true := by
  unfold Locals.cleanup
  dsimp only
  split <;> rfl

theorem closing_pastLoop (l : Locals) (pending : List Fd) : (l.closing pending).pc.pastLoop = true := by
  cases pending <;> rfl

theorem pastLoop_stays {l : Locals} (past : l.pc.pastLoop = true) : (resume iterCnt l r).pc.pastLoop = true := by
  cases pc : l.pc <;> simp only [pc, Pc.pastLoop, Bool.false_eq_true] at past <;>
    simp only [resume, continueAt, Locals.observe_pc, pc]
  case wait => exact cleanup_pastLoop _
  case killSelf => exact cleanup_pastLoop _
  case restorePriority => rfl
  case restoreAffinity => exact closing_pastLoop _ _
  case close => exact closing_pastLoop _ _
  case returned => rfl
  case aborted => rfl

theorem HasPipes.step {index : Nat} (pipes : p.locals.pc.pastLoop = false → HasPipes p.locals p.handles)
    (turn : Turn (program iterCnt) w index p call r) (later : p.locals.pc.beforeFork = false)
    (using_ : (resume iterCnt p.locals r).pc.pastLoop = false) :
    HasPipes (resume iterCnt p.locals r) (chargeHandles p.handles call r) := by
  have before : p.locals.pc.pastLoop = false := by
    by_contra past
    rw [pastLoop_stays (by simpa using past)] at using_
    contradiction
  apply (pipes before).after later
  intro fd closing
  subst closing
  have asked := turn.request
  cases pc : p.locals.pc <;> simp [request, pc] at asked
  rw [pc] at before
  contradiction

theorem parentLoop_waited (l : Locals) : (l.parentLoop iterCnt).pc.waited = false := by
  unfold Locals.parentLoop
  split <;> rfl

theorem OnTrack.parent_call (track : OnTrack iterCnt (parentCounts iterCnt) p.locals p.tally)
    (turn : Turn (program iterCnt) w 0 p call r) (natural : w.natural (program iterCnt) p call r = true) :
    call.signals = false ∧ (resume iterCnt p.locals r).pc.waited = p.locals.pc.waited ∨
      call = .wait ∧ (resume iterCnt p.locals r).pc.waited = true := by
  have counts := track.counts
  have asked := turn.request
  cases pc : p.locals.pc <;> simp only [parentCounts, pc, reduceCtorEq] at counts <;>
    simp only [program_request, request, pc, Option.some.injEq, reduceCtorEq] at asked <;> subst asked <;>
    simp only [resume, continueAt, Locals.observe_pc, pc]
  case setPriority =>
      have ok := ok_of_plain natural rfl
      simp only [Locals.observe_setFailed, track.unfailed pc, ok, Reply.failed_ok, Bool.or_self,
        Bool.false_eq_true, if_false]
      split <;> exact .inl ⟨rfl, rfl⟩
  case readReady => exact .inl ⟨rfl, parentLoop_waited _⟩
  case stopTimer => exact .inl ⟨rfl, parentLoop_waited _⟩
  case wait => exact .inr ⟨trivial, by simp [Locals.cleanup, track.saved, Pc.waited]⟩
  case close fd pending => cases pending <;> exact .inl ⟨rfl, rfl⟩
  all_goals exact .inl ⟨rfl, rfl⟩

theorem OnTrack.child_call (track : OnTrack iterCnt (childCounts iterCnt) c.locals c.tally)
    (turn : Turn (program iterCnt) w 1 c call r) :
    call.signals = false ∨ call = .killSelf ∧ (resume iterCnt c.locals r).pc.pastLoop = true := by
  have counts := track.counts
  have asked := turn.request
  cases pc : c.locals.pc <;> simp only [childCounts, pc, reduceCtorEq] at counts <;>
    simp only [program_request, request, pc, Option.some.injEq, reduceCtorEq] at asked <;> subst asked
  case killSelf => exact .inr ⟨rfl, pastLoop_stays (by rw [pc]; rfl)⟩
  all_goals exact .inl rfl

theorem pastLoop_of_no_request {l : Locals} (ceased : request l = none) : l.pc.pastLoop = true := by
  cases pc : l.pc <;> simp [request, pc] at ceased <;> rfl

theorem InStep.pastLoop_of_finished (inStep : InStep iterCnt p c) (finished : c.finished (program iterCnt) = true) :
    c.locals.pc.pastLoop = true := by
  by_contra inside
  simp only [Proc.finished, inStep.childRunning (by simpa using inside), bne_self_eq_false, Bool.false_or,
    Option.isNone_iff_eq_none, program_request] at finished
  exact inside (pastLoop_of_no_request finished)

theorem busy (l : Locals) (inside : (!l.pc.pastLoop) = true) : ((program iterCnt).request l).isSome = true := by
  by_contra ceased
  have past := pastLoop_of_no_request (by simpa using ceased)
  simp [past] at inside

section Steps

variable (inStep : InStep iterCnt p c) (procs : w.procs = [p, c])
include inStep

include procs in
theorem InStep.parent_step (turn : Turn (program iterCnt) w 0 p call r)
    (natural : w.natural (program iterCnt) p call r = true) (parent : 0 < p.locals.pid) :
    InStep iterCnt { p.advance (program iterCnt) call r with status := w.fate (program iterCnt) 0 0 p call r }
      { c with status := w.fate (program iterCnt) 0 1 c call r } where
  parent := inStep.parent.parent_advance natural inStep.parentPipes turn parent
  child := inStep.child
  parentPipes := HasPipes.step inStep.parentPipes turn (inStep.parent.beforeFork parentCounts_beforeFork)
  childPipes := inStep.childPipes
  supervised := inStep.supervised.parent_step procs turn natural busy (inStep.parent.parent_call turn natural)

theorem InStep.child_step (turn : Turn (program iterCnt) w 1 c call r)
    (natural : w.natural (program iterCnt) c call r = true) (child : c.locals.pid = 0) :
    InStep iterCnt { p with status := w.fate (program iterCnt) 1 0 p call r }
      { c.advance (program iterCnt) call r with status := w.fate (program iterCnt) 1 1 c call r } where
  parent := inStep.parent
  child := inStep.child.child_advance natural inStep.childPipes turn child
  parentPipes := inStep.parentPipes
  childPipes := HasPipes.step inStep.childPipes turn (inStep.child.beforeFork childCounts_beforeFork)
  supervised := inStep.supervised.child_step turn
    ((inStep.child.child_call turn).imp_right (And.imp_right (congrArg not)))

end Steps

theorem inStep_of_reachable {machine : Machine} {errno : Errno}
    (reachable : Reachable (step (program iterCnt)) (Obeys (program iterCnt) (undisturbed (program iterCnt)))
      (World.boot machine (Locals.entry errno)) w) :
    (∃ p, w.procs = [p] ∧ Preparing p) ∨
      ∃ p c, IsPair (fun l : Locals => l.pc.beforeFork = true) Locals.pid w p c ∧ InStep iterCnt p c := by
  obtain ⟨first, single, preparing⟩ := Preparing.entry machine errno
  refine pair_invariant Preparing (InStep iterCnt) forksOnce single preparing ?_ ?_ ?_ ?_ reachable
  · intro w p call r permitted turn noChild preparing
    have natural := turn.obeys permitted
    have next := preparing.advance turn natural noChild
    have silent : call.signals = false := by
      have asked := turn.request
      have before := preparing.beforeFork
      cases pc : p.locals.pc <;> simp only [pc, Pc.beforeFork, Bool.false_eq_true] at before <;>
        simp only [program_request, request, pc, Option.some.injEq] at asked <;> subst asked <;> rfl
    exact ⟨(fate_of_silent silent).trans turn.running, next.tally, next.beforeFork, next.saving, next.saved,
      next.fds1, next.fds2⟩
  · intro w p n permitted turn preparing
    have positive : 0 < n := by
      have natural := turn.obeys permitted
      simp only [undisturbed, World.natural, Bool.and_eq_true, decide_eq_true_eq] at natural
      exact natural.1
    exact preparing.fork (fork_of_request turn.request) positive
  · intro w p c call r _ pair permitted turn inStep
    exact inStep.parent_step pair.procs turn (turn.obeys permitted) (by rw [pair.parentPid]; exact pair.positive)
  · intro w p c call r _ pair permitted turn inStep
    exact inStep.child_step turn (turn.obeys permitted) pair.childPid

end Oreo.Bench.CtxSwitch
