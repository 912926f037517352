import Oreo.Bench.Recv.Counting

namespace Oreo.Bench.Recv

open Oreo.Posix Oreo.Transition Oreo.Bench.Socket

/-! # Parent and child in lock step -/

variable {iterCnt msgSize : Nat} {w : World Locals} {p c : Proc Locals} {call : Call} {r : Reply}
variable {machine : Machine} {errno : Errno} {errored : Bool}

/-- All calls succeed, and a `send` on an empty socket queue accepts the whole message. -/
def wholeSends (iterCnt msgSize : Nat) : Rule Locals := fun w _ p call r =>
  w.natural (program iterCnt msgSize) p call r &&
    match call with
    | .send _ size => w.queue != 0 || r == .size size
    | _ => true

abbrev Smooth (iterCnt msgSize : Nat) (machine : Machine) (errno : Errno) (errored : Bool) (w : World Locals) : Prop :=
  Reachable (step (program iterCnt msgSize)) (Obeys (program iterCnt msgSize) (wholeSends iterCnt msgSize))
    (World.boot machine (Locals.entry (.setup .allocDiffs) errno errored)) w

def Pc.waited : Pc → Bool
  | .release _ => true
  | _ => false

/-- Both processes are on track, and the pipes are open as long as they are used. -/
structure InStep (iterCnt msgSize : Nat) (p c : Proc Locals) : Prop where
  parent : OnTrack iterCnt msgSize (parentCounts iterCnt msgSize) p.locals p.tally
  child : OnTrack iterCnt msgSize (childCounts iterCnt msgSize) c.locals c.tally
  parentPipes : p.locals.pc.pastLoop = false → HasPipes p.locals p.handles
  childPipes : c.locals.pc.pastLoop = false → HasPipes c.locals c.handles
  supervised : Supervised (program iterCnt msgSize) (fun l => !l.pc.pastLoop) (fun l => l.pc.waited) p c

structure Books (w : World Locals) (p c : Proc Locals) : Prop where
  fds1 : w.pipe 0 + c.tally.took 0 = p.tally.wrote 0
  fds2 : w.pipe 1 + p.tally.took 1 = c.tally.wrote 1
  queue : w.queue + p.tally.received = c.tally.sent
  backlog : w.backlog + p.tally.accepts = c.tally.connects
  listening : w.listening = true ↔ 0 < p.tally.listens
  parent : p.tally.wrote 0 ≤ p.tally.took 1 + 1
  child : c.tally.wrote 1 ≤ c.tally.took 0

theorem OnTrack.parent_moved (track : OnTrack iterCnt msgSize (parentCounts iterCnt msgSize) p.locals p.tally) :
    p.tally.took 0 = 0 ∧ p.tally.wrote 1 = 0 ∧ p.tally.sent = 0 ∧ p.tally.connects = 0 ∧
      p.tally.wrote 0 ≤ p.tally.took 1 + 1 := by
  have counts := track.counts
  cases pc : p.locals.pc <;>
    simp only [parentCounts, pc, Option.some.injEq, counted, Counts.mk.injEq, reduceCtorEq] at counts <;> omega

theorem OnTrack.child_moved (track : OnTrack iterCnt msgSize (childCounts iterCnt msgSize) c.locals c.tally) :
    c.tally.wrote 0 = 0 ∧ c.tally.took 1 = 0 ∧ c.tally.received = 0 ∧ c.tally.listens = 0 ∧
      c.tally.accepts = 0 ∧ c.tally.wrote 1 ≤ c.tally.took 0 := by
  have counts := track.counts
  cases pc : c.locals.pc <;>
    simp only [childCounts, pc, Option.some.injEq, counted, Counts.mk.injEq, reduceCtorEq] at counts <;> omega

theorem InStep.books (inStep : InStep iterCnt msgSize p c) (procs : w.procs = [p, c]) (balanced : Balanced w) :
    Books w p c := by
  obtain ⟨took, wrote, sent, connects, parent⟩ := inStep.parent.parent_moved
  obtain ⟨wrote', took', received, listens, accepts, child⟩ := inStep.child.child_moved
  obtain ⟨pipe, queue, backlog, listening⟩ := balanced
  have fds1 := pipe 0
  have fds2 := pipe 1
  simp only [total_pair procs] at fds1 fds2 queue backlog listening
  exact ⟨by omega, by omega, by omega, by omega, by rw [listening]; omega, parent, child⟩

section Meeting

variable (inStep : InStep iterCnt msgSize p c) (books : Books w p c)
include inStep books

/-- When the parent is about to receive, exactly one message is on its way. -/
theorem InStep.queue_at_recv (receiving : p.locals.pc = .recv) : w.queue = msgSize := by
  obtain ⟨fds1, fds2, queue, -, -, -, -⟩ := books
  have bound := inStep.parent.inLoop (by rw [receiving]; rfl)
  have parent := inStep.parent.counts
  have child := inStep.child.counts
  simp only [parentCounts, receiving, Option.some.injEq, counted, Counts.mk.injEq] at parent
  cases pc : c.locals.pc <;>
    simp only [childCounts, pc, Option.some.injEq, counted, Counts.mk.injEq, reduceCtorEq] at child
  case readAck =>
      have same : c.locals.idx = p.locals.idx := by omega
      rw [same, Nat.mul_succ] at child
      omega
  all_goals omega

theorem InStep.queue_at_send (sending : c.locals.pc = .send) : w.queue = 0 := by
  obtain ⟨fds1, fds2, queue, -, -, -, -⟩ := books
  have bound := inStep.child.inLoop (by rw [sending]; rfl)
  have parent := inStep.parent.counts
  have child := inStep.child.counts
  simp only [childCounts, sending, Option.some.injEq, counted, Counts.mk.injEq] at child
  cases pc : p.locals.pc <;>
    simp only [parentCounts, pc, Option.some.injEq, counted, Counts.mk.injEq, reduceCtorEq] at parent
  case accept =>
      have first : c.locals.idx = 0 := by omega
      rw [first, Nat.mul_zero] at child
      omega
  case readSent =>
      have same : c.locals.idx = p.locals.idx := by omega
      rw [same] at child
      omega
  all_goals omega

/-- The child connects only after the parent's readiness token, and so after `listen`. -/
theorem InStep.listening_at_connect (connecting : c.locals.pc = .connect) : w.listening = true := by
  obtain ⟨fds1, -, -, -, listening, -, -⟩ := books
  have parent := inStep.parent.counts
  have child := inStep.child.counts
  simp only [childCounts, connecting, Option.some.injEq, counted, Counts.mk.injEq] at child
  rw [listening]
  cases pc : p.locals.pc <;>
    simp only [parentCounts, pc, Option.some.injEq, counted, Counts.mk.injEq, reduceCtorEq] at parent <;> omega

end Meeting

/-! ## Steps of the pair -/

theorem OnTrack.beforeFork {counts : Locals → Option Counts} {l : Locals} {t : Tally}
    (track : OnTrack iterCnt msgSize counts l t) (none : ∀ l, l.pc.beforeFork = true → counts l = none) :
    l.pc.beforeFork = false := by
  by_contra before
  have absent := none l (by simpa using before)
  rw [track.counts] at absent
  contradiction

theorem parentCounts_beforeFork (l : Locals) (before : l.pc.beforeFork = true) :
    parentCounts iterCnt msgSize l = none := by
  cases pc : l.pc <;> simp [pc, Pc.beforeFork, parentCounts] at before ⊢

theorem childCounts_beforeFork (l : Locals) (before : l.pc.beforeFork = true) :
    childCounts iterCnt msgSize l = none := by
  cases pc : l.pc <;> simp [pc, Pc.beforeFork, childCounts] at before ⊢

theorem serverErr_pastLoop (l : Locals) : (serverErr l).pc.pastLoop = true := by
  unfold serverErr
  split <;> rfl

theorem release_after (iterCnt msgSize : Nat) (l : Locals) (r : Reply) (s : Release) (pc : l.pc = .release s) :
    ∃ s', (resume iterCnt msgSize l r).pc = .release s' := by
  obtain ⟨s', after⟩ := finish_pc Pc.release (l.observe r) s pc
  exact ⟨s', by simp only [resume, continueAt, Locals.observe_pc, pc, after]⟩

theorem pastLoop_stays {l : Locals} (past : l.pc.pastLoop = true) :
    (resume iterCnt msgSize l r).pc.pastLoop = true := by
  cases pc : l.pc <;> simp only [pc, Pc.pastLoop, Bool.false_eq_true] at past
  case wait =>
      simp only [resume, continueAt, Locals.observe_pc, pc]
      exact serverErr_pastLoop _
  case release s =>
      obtain ⟨s', after⟩ := release_after iterCnt msgSize l r s pc
      rw [after]
      rfl
  case returned => simp only [resume, continueAt, Locals.observe_pc, pc, Pc.pastLoop]
  all_goals
    simp only [resume, continueAt, Locals.observe_pc, pc]
    rfl

theorem pipes_step {index : Nat} (pipes : p.locals.pc.pastLoop = false → HasPipes p.locals p.handles)
    (turn : Turn (program iterCnt msgSize) w index p call r) (later : p.locals.pc.beforeFork = false)
    (using_ : (resume iterCnt msgSize p.locals r).pc.pastLoop = false) :
    HasPipes (resume iterCnt msgSize p.locals r) (chargeHandles p.handles call r) := by
  have before : p.locals.pc.pastLoop = false := by
    by_contra past
    rw [pastLoop_stays (by simpa using past)] at using_
    contradiction
  apply (pipes before).of_settled (resume_settled _ later)
  intro fd closing
  subst closing
  have asked := turn.request
  cases pc : p.locals.pc <;> simp only [pc, Pc.pastLoop, Pc.beforeFork, Bool.true_eq_false] at before later <;>
    simp [request, pc] at asked

theorem timedLoop_waited (l : Locals) : (timedLoop iterCnt l).pc.waited = false := by
  unfold timedLoop
  split <;> rfl

def Pc.ofParent : Pc → Bool
  | .socketServer | .bind | .listen | .writeReady | .accept | .readSent | .startTimer | .recv | .stopTimer
  | .writeAck | .wait | .serverErr | .release _ => true
  | _ => false

theorem parent_call (iterCnt : Nat) {l : Locals} (r : Reply) (isParent : l.pc.ofParent = true) (armed : l.pc.armed = true → l.errored = true)
    (unfailed : l.pc = .wait → l.errored = false) (asked : request msgSize l = some call) :
    call.signals = false ∧ (resume iterCnt msgSize l r).pc.waited = l.pc.waited ∨
      (call = .wait ∨ l.pc = .serverErr ∧ call = .kill l.pid) ∧ (resume iterCnt msgSize l r).pc.waited = true := by
  cases pc : l.pc
  case release s =>
      obtain ⟨s', after⟩ := release_after iterCnt msgSize l r s pc
      simp only [request, pc] at asked
      have silent : call.signals = false := by
        cases s <;> simp only [Release.request, Option.some.injEq, reduceCtorEq] at asked <;> subst asked <;> rfl
      exact .inl ⟨silent, by rw [after]; rfl⟩
  all_goals
    simp only [pc, Pc.ofParent, Bool.false_eq_true] at isParent <;>
    simp only [request, pc, Option.some.injEq] at asked <;> subst asked <;>
    simp only [pc, Pc.armed, true_implies] at armed <;>
    simp only [resume, continueAt, Locals.observe_pc, pc]
  case wait =>
      have unfailed := unfailed pc
      exact .inr ⟨.inl trivial, by
        simp [serverErr, unfailed, cleanup, Socket.Locals.cleanup, Socket.Locals.closing, Pc.waited]⟩
  case serverErr => exact .inr ⟨.inr ⟨trivial, trivial⟩, rfl⟩
  case writeAck => exact .inl ⟨rfl, timedLoop_waited _⟩
  case accept =>
      refine .inl ⟨rfl, ?_⟩
      split
      · simp [serverErr, armed, Pc.waited]
      · exact timedLoop_waited _
  all_goals
    refine .inl ⟨rfl, ?_⟩
    first
      | rfl
      | split <;> simp [serverErr, armed, Pc.waited]

theorem parentCounts_ofParent {l : Locals} {counts : Counts} (here : parentCounts iterCnt msgSize l = some counts) :
    l.pc.ofParent = true ∧ l.pc ≠ .serverErr := by
  cases pc : l.pc <;> simp only [parentCounts, pc, reduceCtorEq] at here <;> exact ⟨rfl, by simp⟩

theorem OnTrack.parent_call (track : OnTrack iterCnt msgSize (parentCounts iterCnt msgSize) p.locals p.tally)
    (turn : Turn (program iterCnt msgSize) w 0 p call r) :
    call.signals = false ∧ (resume iterCnt msgSize p.locals r).pc.waited = p.locals.pc.waited ∨
      call = .wait ∧ (resume iterCnt msgSize p.locals r).pc.waited = true := by
  obtain ⟨isParent, unfailing⟩ := parentCounts_ofParent track.counts
  rcases Recv.parent_call iterCnt r isParent track.armed track.unfailed turn.request with silent | ⟨waits | ⟨failing, -⟩, after⟩
  · exact .inl silent
  · exact .inr ⟨waits, after⟩
  · exact absurd failing unfailing

theorem OnTrack.child_call (track : OnTrack iterCnt msgSize (childCounts iterCnt msgSize) c.locals c.tally)
    (turn : Turn (program iterCnt msgSize) w 1 c call r) :
    call.signals = false ∨ call = .killSelf ∧ (resume iterCnt msgSize c.locals r).pc.pastLoop = true := by
  have counts := track.counts
  have asked := turn.request
  cases pc : c.locals.pc <;> simp only [childCounts, pc, reduceCtorEq] at counts <;>
    simp only [program_request, request, pc, Option.some.injEq, reduceCtorEq] at asked <;> subst asked
  case clientErr => exact .inr ⟨rfl, pastLoop_stays (by rw [pc]; rfl)⟩
  all_goals exact .inl rfl

theorem pastLoop_of_no_request {l : Locals} (ceased : request msgSize l = none) : l.pc.pastLoop = true := by
  cases pc : l.pc <;> simp [request, pc] at ceased <;> rfl

theorem InStep.pastLoop_of_finished (inStep : InStep iterCnt msgSize p c)
    (finished : c.finished (program iterCnt msgSize) = true) : c.locals.pc.pastLoop = true := by
  by_contra inside
  have running := inStep.supervised.childRunning (by simpa using inside)
  simp only [Proc.finished, running, bne_self_eq_false, Bool.false_or, Option.isNone_iff_eq_none,
    program_request] at finished
  exact inside (pastLoop_of_no_request finished)

theorem busy (l : Locals) (inside : (!l.pc.pastLoop) = true) :
    ((program iterCnt msgSize).request l).isSome = true := by
  by_contra ceased
  have past := pastLoop_of_no_request (by simpa using ceased)
  simp [past] at inside

section Steps

variable (inStep : InStep iterCnt msgSize p c) (books : Books w p c)
include inStep books

theorem InStep.parent_step (procs : w.procs = [p, c]) (turn : Turn (program iterCnt msgSize) w 0 p call r)
    (natural : w.natural (program iterCnt msgSize) p call r = true) (positive : 0 < msgSize) :
    InStep iterCnt msgSize
      { p.advance (program iterCnt msgSize) call r with status := w.fate (program iterCnt msgSize) 0 0 p call r }
      { c with status := w.fate (program iterCnt msgSize) 0 1 c call r } where
  parent := inStep.parent.parent_advance natural inStep.parentPipes turn positive (inStep.queue_at_recv books)
  child := inStep.child
  parentPipes := pipes_step inStep.parentPipes turn (inStep.parent.beforeFork parentCounts_beforeFork)
  childPipes := inStep.childPipes
  supervised := inStep.supervised.parent_step procs turn natural busy (inStep.parent.parent_call turn)

theorem InStep.child_step (turn : Turn (program iterCnt msgSize) w 1 c call r)
    (obeyed : wholeSends iterCnt msgSize w 1 c call r = true) :
    InStep iterCnt msgSize { p with status := w.fate (program iterCnt msgSize) 1 0 p call r }
      { c.advance (program iterCnt msgSize) call r with
        status := w.fate (program iterCnt msgSize) 1 1 c call r } := by
  obtain ⟨natural, whole⟩ := Bool.and_eq_true_iff.mp obeyed
  have accepted : c.locals.pc = .send → r = .size msgSize := by
    intro sending
    have asked := turn.request
    simp only [program_request, request, sending, Option.some.injEq] at asked
    subst asked
    simpa [inStep.queue_at_send books sending] using whole
  exact {
    parent := inStep.parent
    child := inStep.child.child_advance natural inStep.childPipes turn (inStep.listening_at_connect books) accepted
    parentPipes := inStep.parentPipes
    childPipes := pipes_step inStep.childPipes turn (inStep.child.beforeFork childCounts_beforeFork)
    supervised := inStep.supervised.child_step turn
      ((inStep.child.child_call turn).imp_right (And.imp_right (congrArg not))) }

end Steps

theorem inStep_of_fork {n : Int} (preparing : Preparing Pc.setup p) (atFork : p.locals.pc = .setup .fork)
    (pipes : HasPipes p.locals p.handles) (positive : 0 < n) :
    InStep iterCnt msgSize (p.advance (program iterCnt msgSize) .fork (.pid n))
      (p.spawn (program iterCnt msgSize) n) := by
  have charged : p.tally.charge .fork (.pid n) = .zero := preparing.tally
  have parent := resume_fork_parent iterCnt msgSize p.locals atFork positive
  have child := resume_fork_child iterCnt msgSize p.locals atFork
  constructor
  · rw [Proc.advance_locals, parent, Proc.advance_tally, charged]
    exact .before rfl rfl (by simp [socketInUse]) (fun _ => rfl) rfl
  · rw [Proc.spawn_locals, child]
    exact .before rfl rfl (by simp [socketInUse]) (by simp [Pc.armed]) rfl
  · rw [Proc.advance_locals, parent]
    exact fun _ => ⟨pipes.fds1, pipes.fds2⟩
  · rw [Proc.spawn_locals, child]
    exact fun _ => ⟨pipes.fds1, pipes.fds2⟩
  · refine ⟨preparing.running, fun _ => rfl, ?_, fun _ => by simp⟩
    rw [Proc.advance_locals, parent]
    simp [Pc.waited]

theorem balanced_of_smooth (reachable : Smooth iterCnt msgSize machine errno errored w) : Balanced w :=
  balanced_of_reachable (balanced_boot _ _) reachable

theorem inStep_of_reachable (positive : 0 < msgSize)
    (reachable : Smooth iterCnt msgSize machine errno errored w) :
    (∃ p, w.procs = [p] ∧ Preparing Pc.setup p) ∨
      ∃ p c, IsPair (fun l : Locals => l.pc.beforeFork = true) (fun l => l.pid) w p c ∧
        InStep iterCnt msgSize p c := by
  obtain ⟨first, single, preparing⟩ := Preparing.entry Pc.setup machine errno errored
  refine pair_invariant (Preparing Pc.setup) (InStep iterCnt msgSize) forksOnce single preparing ?_ ?_ ?_ ?_ reachable
  · intro w p call r permitted turn noChild preparing
    exact preparing.advance starts turn (Bool.and_eq_true_iff.mp (turn.obeys permitted)).1 noChild
  · intro w p n permitted turn preparing
    have natural := (Bool.and_eq_true_iff.mp (turn.obeys permitted)).1
    simp only [World.natural, Bool.and_eq_true, decide_eq_true_eq] at natural
    obtain ⟨atFork, pipes⟩ := preparing.atFork starts turn.request
    exact inStep_of_fork preparing atFork pipes natural.1
  · intro w p c call r earlier pair permitted turn inStep
    exact inStep.parent_step (inStep.books pair.procs (balanced_of_smooth earlier)) pair.procs turn
      (Bool.and_eq_true_iff.mp (turn.obeys permitted)).1 positive
  · intro w p c call r earlier pair permitted turn inStep
    exact inStep.child_step (inStep.books pair.procs (balanced_of_smooth earlier)) turn (turn.obeys permitted)

end Oreo.Bench.Recv
