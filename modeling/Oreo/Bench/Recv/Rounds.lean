import Oreo.Bench.Recv.LockStep
import Oreo.Bench.Samples
import Oreo.Posix.Own
import Oreo.Posix.Succession

namespace Oreo.Bench.Recv

open Oreo.Posix Oreo.Transition Oreo.Bench.Socket Oreo.Utils

/-! # Whole runs when all calls succeed -/

variable {iterCnt msgSize : Nat} {w : World Locals} {p c : Proc Locals} {call : Call} {r : Reply}
variable {machine : Machine} {errno : Errno} {errored : Bool} {l : Locals} {trace : List (Event (World Locals) Label)} {k : Nat}

abbrev SmoothRun (iterCnt msgSize : Nat) (machine : Machine) (errno : Errno) (errored : Bool) :
    List (Event (World Locals) Label) → World Locals → Prop :=
  Run (step (program iterCnt msgSize)) (Obeys (program iterCnt msgSize) (wholeSends iterCnt msgSize))
    (World.boot machine (Locals.entry (.setup .allocDiffs) errno errored))

abbrev CanGoOn (iterCnt msgSize : Nat) (w : World Locals) : Prop :=
  CanStep (program iterCnt msgSize) (Obeys (program iterCnt msgSize) (wholeSends iterCnt msgSize)) w

theorem canGoOn (call : Call) (r : Reply) {index : Nat} {q : Proc Locals} (found : w.procs[index]? = some q) (running : q.status = .running)
    (asked : request msgSize q.locals = some call)
    (natural : w.natural (program iterCnt msgSize) q call r = true)
    (whole : ∀ fd size, call = .send fd size → r = .size size) : CanGoOn iterCnt msgSize w := by
  apply canStep_of_natural found running asked natural
  unfold wholeSends
  rw [natural, Bool.true_and]
  split
  · simp [whole _ _ rfl]
  · rfl

theorem OnTrack.child_ended (track : OnTrack iterCnt msgSize (childCounts iterCnt msgSize) c.locals c.tally)
    (past : c.locals.pc.pastLoop = true) :
    c.tally.took 0 = iterCnt + 1 ∧ c.tally.wrote 1 = iterCnt ∧ c.tally.sent = msgSize * iterCnt ∧
      c.tally.connects = 1 := by
  have counts := track.counts
  cases pc : c.locals.pc <;> simp only [pc, Pc.pastLoop, Bool.false_eq_true] at past <;>
    simp only [childCounts, pc, Option.some.injEq, counted, Counts.mk.injEq, reduceCtorEq] at counts <;> omega

theorem OnTrack.parent_ended (track : OnTrack iterCnt msgSize (parentCounts iterCnt msgSize) p.locals p.tally)
    (past : p.locals.pc.pastLoop = true) :
    p.tally.wrote 0 = iterCnt + 1 ∧ p.tally.took 1 = iterCnt ∧ p.tally.received = msgSize * iterCnt := by
  have counts := track.counts
  cases pc : p.locals.pc <;> simp only [pc, Pc.pastLoop, Bool.false_eq_true] at past <;>
    simp only [parentCounts, pc, Option.some.injEq, counted, Counts.mk.injEq, reduceCtorEq] at counts <;> omega

section Pair

variable (inStep : InStep iterCnt msgSize p c) (procs : w.procs = [p, c]) (books : Books w p c)
include inStep procs books

/-- Before its loop ends, the child waits only for bytes on `fds1` that are not there yet. -/
theorem InStep.child_canGoOn (positive : 0 < msgSize) (inside : c.locals.pc.pastLoop = false)
    (room : w.pipe 1 < pipeCapacity)
    (acked : c.locals.pc = .readReady ∨ c.locals.pc = .readAck → 0 < w.pipe 0) : CanGoOn iterCnt msgSize w := by
  have found : w.procs[1]? = some c := by rw [procs]; rfl
  have running := inStep.supervised.childRunning (by simp [inside])
  have pipes := inStep.childPipes inside
  have counts := inStep.child.counts
  have socket := inStep.child.socket
  cases pc : c.locals.pc <;> simp only [childCounts, pc, reduceCtorEq] at counts <;>
    simp only [pc, Pc.pastLoop, Bool.true_eq_false] at inside <;>
    simp only [socketInUse, pc, ne_eq, Option.some.injEq] at socket
  case readReady =>
      exact canGoOn _ _ found running (by simp only [request, pc, pipes.fds1.fst])
        (natural_read pipes.fds1.readEnd (acked (.inl pc))) (by simp)
  case readAck =>
      exact canGoOn _ _ found running (by simp only [request, pc, pipes.fds1.fst])
        (natural_read pipes.fds1.readEnd (acked (.inr pc))) (by simp)
  case writeSent =>
      exact canGoOn _ _ found running (by simp only [request, pc, pipes.fds2.snd])
        (natural_write pipes.fds2.writeEnd room) (by simp)
  case socketClient =>
      exact canGoOn (.socket .client) (.handle (.socket .client)) found running
        (by simp only [request, pc]) rfl (by simp)
  case connect =>
      obtain ⟨h, client⟩ := Option.ne_none_iff_exists'.mp socket
      exact canGoOn (.connect (some h)) .ok found running (by simp only [request, pc, client])
        (by simp [World.natural, inStep.listening_at_connect books pc]) (by simp)
  case send =>
      obtain ⟨h, client⟩ := Option.ne_none_iff_exists'.mp socket
      exact canGoOn (.send (some h) msgSize) (.size msgSize) found running
        (by simp only [request, pc, client]) (by simp [World.natural, positive])
        (fun fd size same => by simp only [Call.send.injEq] at same; rw [same.2])

/-- While the parent waits, for a connection or for a message, it is the child's turn. -/
theorem InStep.canGoOn_of_waiting (positive : 0 < msgSize) (granted : p.tally.wrote 0 = p.tally.took 1 + 1)
    (waits : p.tally.accepts = 0 ∧ w.backlog = 0 ∨ p.tally.took 1 < iterCnt ∧ w.pipe 1 = 0) :
    CanGoOn iterCnt msgSize w := by
  have child := inStep.child.counts
  obtain ⟨fds1, fds2, -, backlog, -, -, answered⟩ := id books
  apply inStep.child_canGoOn procs books positive
  · by_contra past
    have ended := inStep.child.child_ended (by simpa using past)
    omega
  · unfold pipeCapacity
    omega
  · intro either
    rcases either with pc | pc <;>
      simp only [childCounts, pc, Option.some.injEq, counted, Counts.mk.injEq] at child <;> omega

/-- Before its loop ends, the parent can go on, or it waits for the child and the child can. -/
theorem InStep.canGoOn (positive : 0 < msgSize) (inside : p.locals.pc.pastLoop = false) :
    CanGoOn iterCnt msgSize w := by
  have found : w.procs[0]? = some p := by rw [procs]; rfl
  have running := inStep.supervised.parentRunning
  have pipes := inStep.parentPipes inside
  have counts := inStep.parent.counts
  have bound := inStep.parent.inLoop
  have socket := inStep.parent.socket
  have waiting := inStep.canGoOn_of_waiting procs books positive
  obtain ⟨fds1, fds2, -, backlog, -, -, answered⟩ := id books
  cases pc : p.locals.pc <;>
    simp only [parentCounts, pc, counted, Option.some.injEq, Counts.mk.injEq, reduceCtorEq] at counts <;>
    simp only [pc, Pc.pastLoop, Pc.inLoop, true_implies, Bool.true_eq_false] at inside bound <;>
    simp only [socketInUse, pc, ne_eq, Option.some.injEq] at socket
  case socketServer =>
      exact Recv.canGoOn (.socket .listening) (.handle (.socket .listening)) found running
        (by simp only [request, pc]) rfl (by simp)
  case bind =>
      obtain ⟨h, server⟩ := Option.ne_none_iff_exists'.mp socket
      exact Recv.canGoOn (.bind (some h)) .ok found running (by simp only [request, pc, server]) rfl (by simp)
  case listen =>
      obtain ⟨h, server⟩ := Option.ne_none_iff_exists'.mp socket
      exact Recv.canGoOn (.listen (some h)) .ok found running
        (by simp only [request, pc, server]) rfl (by simp)
  case writeReady =>
      have room : w.pipe 0 < pipeCapacity := by unfold pipeCapacity; omega
      exact Recv.canGoOn _ _ found running (by simp only [request, pc, pipes.fds1.snd])
        (natural_write pipes.fds1.writeEnd room) (by simp)
  case accept =>
      rcases Nat.eq_zero_or_pos w.backlog with none | pending
      · exact waiting (by omega) (.inl ⟨by omega, none⟩)
      · obtain ⟨h, server⟩ := Option.ne_none_iff_exists'.mp socket
        exact Recv.canGoOn (.accept (some h)) (.handle (.socket .accepted)) found running
          (by simp only [request, pc, server]) (by simp [World.natural, pending]) (by simp)
  case readSent =>
      rcases Nat.eq_zero_or_pos (w.pipe 1) with none | sent
      · exact waiting (by omega) (.inr ⟨by omega, none⟩)
      · exact Recv.canGoOn _ _ found running (by simp only [request, pc, pipes.fds2.fst])
          (natural_read pipes.fds2.readEnd sent) (by simp)
  case startTimer =>
      exact Recv.canGoOn .clock (.time 0) found running (by simp only [request, pc]) rfl (by simp)
  case stopTimer =>
      exact Recv.canGoOn .clock (.time 0) found running (by simp only [request, pc]) rfl (by simp)
  case recv =>
      obtain ⟨h, connection⟩ := Option.ne_none_iff_exists'.mp socket
      have queue := inStep.queue_at_recv books pc
      exact Recv.canGoOn (.recv (some h) msgSize) (.size msgSize) found running
        (by simp only [request, pc, connection]) (by simp [World.natural, queue, positive]) (by simp)
  case writeAck =>
      have room : w.pipe 0 < pipeCapacity := by unfold pipeCapacity; omega
      exact Recv.canGoOn _ _ found running (by simp only [request, pc, pipes.fds1.snd])
        (natural_write pipes.fds1.writeEnd room) (by simp)

end Pair

/-! ## What the samples are -/

/-- The parent is about to make the call `pc` of iteration `k`. -/
def ParentAt (pc : Pc) (k : Nat) (w : World Locals) : Prop :=
  ∃ p, w.procs[0]? = some p ∧ p.locals.pc = pc ∧ p.locals.idx = k

abbrev Measured (iterCnt : Nat) (trace : List (Event (World Locals) Label)) (idx : Nat) (diffs : List Nat) : Prop :=
  SamplesStored (ParentAt .startTimer) (ParentAt .stopTimer) iterCnt trace idx diffs

/-- How far the parent is. An error on the way to its loop leaves it without samples. -/
def Measuring (iterCnt : Nat) (trace : List (Event (World Locals) Label)) (l : Locals) : Prop :=
  match l.pc with
  | .setup .allocDiffs => l.idx = 0
  | .setup _ | .socketServer | .bind | .listen | .writeReady | .accept => l.idx = 0 ∧ l.diffs.length = iterCnt
  | .readSent | .startTimer => l.idx < iterCnt ∧ Measured iterCnt trace l.idx l.diffs
  | .recv | .stopTimer =>
      l.idx < iterCnt ∧ Measured iterCnt trace l.idx l.diffs ∧ Started (ParentAt .startTimer) trace l.idx l.tstart
  | .writeAck => l.idx < iterCnt ∧ Measured iterCnt trace (l.idx + 1) l.diffs
  | .wait | .serverErr | .release _ => l.idx = 0 ∨ Measured iterCnt trace l.idx l.diffs
  | .readReady | .socketClient | .connect | .send | .writeSent | .readAck | .clientErr | .returned => False

theorem Measuring.snoc (measuring : Measuring iterCnt trace l) (taken : Event (World Locals) Label) :
    Measuring iterCnt (trace ++ [taken]) l := by
  have longer {idx : Nat} (measured : Measured iterCnt trace idx l.diffs) : Measured iterCnt (trace ++ [taken]) idx l.diffs :=
    samplesStored_snoc measured taken
  cases pc : l.pc
  case setup s => cases s <;> simpa only [Measuring, pc] using measuring
  all_goals simp only [Measuring, pc] at measuring ⊢
  case readSent | startTimer | writeAck => exact ⟨measuring.1, longer measuring.2⟩
  case recv | stopTimer => exact ⟨measuring.1, longer measuring.2.1, measuring.2.2.snoc taken⟩
  case wait | serverErr | release => exact measuring.imp_right longer
  all_goals exact measuring

theorem measuring_serverErr (ended : l.idx = 0 ∨ Measured iterCnt trace l.idx l.diffs) :
    Measuring iterCnt trace (serverErr l) := by
  unfold serverErr
  split <;> exact ended

theorem measuring_timedLoop (measured : Measured iterCnt trace l.idx l.diffs) :
    Measuring iterCnt trace (timedLoop iterCnt l) := by
  unfold timedLoop
  split
  · next more => exact ⟨more, measured⟩
  · exact .inr measured

theorem Measuring.advance (before : Measuring iterCnt trace p.locals) (turn : Turn (program iterCnt msgSize) w 0 p call r) :
    Measuring iterCnt (trace ++ [(w, ⟨0, r⟩)]) (resume iterCnt msgSize p.locals r) := by
  have measuring := before.snoc (w, ⟨0, r⟩)
  have asked := turn.request
  cases pc : p.locals.pc <;> simp only [program_request, request, pc, Option.some.injEq, reduceCtorEq] at asked <;>
    simp only [resume, continueAt, Socket.Locals.observe_pc, pc]
  case setup s =>
    subst asked
    cases s <;> simp only [Measuring, pc] at measuring <;> simp only [Socket.Locals.prepare]
    case allocDiffs =>
      split
      · exact .inl measuring
      · exact ⟨measuring, by simp [initDiffArray]⟩
    case allocBuf | pipe1 | pipe2 =>
      split
      · exact .inl measuring.1
      · exact measuring
    case remove => exact measuring
    case fork =>
      rcases fork_reply turn.possible with ⟨id, positive, rfl⟩ | ⟨errno, rfl⟩
      · simp only [forked, Reply.child_pid, positive, if_true]
        exact measuring
      · exact .inl measuring.1
  all_goals simp only [Measuring, pc] at measuring
  case socketServer | bind | listen =>
    split
    · exact measuring_serverErr (.inl measuring.1)
    · exact measuring
  case writeReady => exact measuring
  case accept =>
    split
    · exact measuring_serverErr (.inl measuring.1)
    · exact measuring_timedLoop (.start measuring.2)
  case readSent | recv => exact measuring
  case startTimer =>
    subst asked
    obtain ⟨t, rfl⟩ := clock_reply turn.possible
    exact ⟨measuring.1, measuring.2, .now ⟨p, turn.at_, pc, rfl⟩⟩
  case stopTimer =>
    subst asked
    obtain ⟨t, rfl⟩ := clock_reply turn.possible
    split
    · exact measuring_serverErr (.inr measuring.2.1)
    · simp only [Measuring, pc] at before
      have round : TimedRound (ParentAt .startTimer) (ParentAt .stopTimer) (trace ++ [(w, ⟨0, .time t⟩)]) p.locals.idx
          (getDuration p.locals.tstart t) := before.2.2.stop ⟨p, turn.at_, pc, rfl⟩
      exact ⟨measuring.1, measuring.2.1.set measuring.1 round⟩
  case writeAck => exact measuring_timedLoop measuring.2
  case wait => exact measuring_serverErr measuring
  case serverErr => exact measuring
  case release s =>
    cases s with
    | close fd pending => cases pending <;> exact measuring
    | remove => exact measuring
    | returned => contradiction

/-- The samples before the iteration that the parent has come to are in the array. -/
theorem Measuring.entries (measuring : Measuring iterCnt trace l) (reached : k < l.idx) :
    ∃ sample, l.diffs[k]? = some sample ∧ TimedRound (ParentAt .startTimer) (ParentAt .stopTimer) trace k sample := by
  have started (unstarted : l.idx = 0) : False := by omega
  cases pc : l.pc
  case setup s => cases s <;> simp only [Measuring, pc] at measuring <;> omega
  all_goals simp only [Measuring, pc] at measuring
  case readSent | startTimer => exact measuring.2.entries k reached
  case recv | stopTimer => exact measuring.2.1.entries k reached
  case writeAck => exact measuring.2.entries k (Nat.lt_succ_of_lt reached)
  case wait | serverErr | release => exact (measuring.resolve_left started).entries k reached
  case socketServer | bind | listen | writeReady | accept => exact (started measuring.1).elim

theorem measuring_of_run (run : SmoothRun iterCnt msgSize machine errno errored trace w) :
    ∃ p, w.procs[0]? = some p ∧ Measuring iterCnt trace p.locals := by
  refine process_invariant (P := fun trace p => Measuring iterCnt trace p.locals) (fun _ _ _ measuring => measuring)
    (fun _ taken _ _ measuring => measuring.snoc taken) (fun _ _ _ _ _ _ turn measuring => measuring.advance turn) rfl ?_ run
  exact (rfl : (Locals.entry (.setup .allocDiffs) errno errored : Locals).idx = 0)

def stored (w : World Locals) : Nat :=
  match w.procs[0]? with
  | some p => p.locals.idx
  | none => 0

def LoopsOver (w : World Locals) : Prop :=
  ∃ p c, w.procs = [p, c] ∧ p.locals.pc.pastLoop = true ∧ c.locals.pc.pastLoop = true

/-- What holds in every world of `recv_test`. -/
structure RunsInLockStep (iterCnt msgSize : Nat) (w : World Locals) : Prop where
  connectsLate : ∀ q ∈ w.procs, q.locals.pc = .connect → w.listening = true
  sendsIntoEmpty : ∀ q ∈ w.procs, q.locals.pc = .send → w.queue = 0
  receivesWhole : ∀ q ∈ w.procs, q.locals.pc = .recv → w.queue = msgSize
  /-- The branch that prints "Failed to receive!" is not taken, nor any other that fails. -/
  neverFails : ∀ q ∈ w.procs, (q.locals.pc = .stopTimer → q.locals.size = msgSize) ∧ q.locals.pc ≠ .serverErr
  goesOn : stored w < iterCnt → CanGoOn iterCnt msgSize w
  drained : LoopsOver w → w.pipe 0 = 0 ∧ w.pipe 1 = 0 ∧ w.queue = 0

theorem runsInLockStep_of_preparing (procs : w.procs = [p]) (preparing : Preparing Pc.setup p) :
    RunsInLockStep iterCnt msgSize w := by
  obtain ⟨s, pc, -⟩ := preparing.opened
  have goesOn : CanGoOn iterCnt msgSize w := by
    apply preparing.canStep starts procs
    intro s r natural
    cases s <;> simpa [wholeSends, Setup.request] using natural
  refine ⟨?_, ?_, ?_, ?_, fun _ => goesOn, ?_⟩
  · simp [procs, pc]
  · simp [procs, pc]
  · simp [procs, pc]
  · simp [procs, pc]
  · intro two
    obtain ⟨p, c, pair, -⟩ := two
    simp [procs] at pair

theorem InStep.runsInLockStep (inStep : InStep iterCnt msgSize p c) (procs : w.procs = [p, c])
    (books : Books w p c) (positive : 0 < msgSize) : RunsInLockStep iterCnt msgSize w where
  connectsLate q member connecting := by
    rw [procs] at member
    obtain rfl | rfl : q = p ∨ q = c := by simpa using member
    · simpa [parentCounts, connecting] using inStep.parent.counts
    · exact inStep.listening_at_connect books connecting
  sendsIntoEmpty q member sending := by
    rw [procs] at member
    obtain rfl | rfl : q = p ∨ q = c := by simpa using member
    · simpa [parentCounts, sending] using inStep.parent.counts
    · exact inStep.queue_at_send books sending
  receivesWhole q member receiving := by
    rw [procs] at member
    obtain rfl | rfl : q = p ∨ q = c := by simpa using member
    · exact inStep.queue_at_recv books receiving
    · simpa [childCounts, receiving] using inStep.child.counts
  neverFails q member := by
    rw [procs] at member
    obtain rfl | rfl : q = p ∨ q = c := by simpa using member
    · refine ⟨inStep.parent.whole, fun failing => ?_⟩
      simpa [parentCounts, failing] using inStep.parent.counts
    · refine ⟨inStep.child.whole, fun failing => ?_⟩
      simpa [childCounts, failing] using inStep.child.counts
  goesOn unfinished := by
    apply inStep.canGoOn procs books positive
    by_contra past
    have ended := inStep.parent.ended (by simpa using past)
    simp only [stored, procs] at unfinished
    change p.locals.idx < iterCnt at unfinished
    omega
  drained := by
    intro beyond
    obtain ⟨p', c', same, parentOver, childOver⟩ := beyond
    obtain ⟨rfl, rfl⟩ : p = p' ∧ c = c' := by simpa [procs] using same
    have parent := inStep.parent.parent_ended parentOver
    have child := inStep.child.child_ended childOver
    obtain ⟨fds1, fds2, queue, -, -, -, -⟩ := books
    omega

/-- `recv_test` runs its two processes in lock step, and each sample that is stored is the time
between the two readings of the timer in its round. -/
theorem recvTest_runs_in_lock_step (iterCnt msgSize : Nat) (machine : Machine) (errno : Errno) (errored : Bool)
    (positive : 1 ≤ msgSize) (w : World Locals) (reachable : Smooth iterCnt msgSize machine errno errored w) :
    RunsInLockStep iterCnt msgSize w ∧
      ∀ trace, SmoothRun iterCnt msgSize machine errno errored trace w → ∃ p, w.procs[0]? = some p ∧ ∀ k < stored w,
        ∃ sample, p.locals.diffs[k]? = some sample ∧
          TimedRound (ParentAt .startTimer) (ParentAt .stopTimer) trace k sample := by
  constructor
  · rcases inStep_of_reachable positive reachable with ⟨p, procs, preparing⟩ | ⟨p, c, pair, inStep⟩
    · exact runsInLockStep_of_preparing procs preparing
    · exact inStep.runsInLockStep pair.procs (inStep.books pair.procs (balanced_of_smooth reachable)) positive
  · intro trace run
    obtain ⟨p, found, measuring⟩ := measuring_of_run run
    have reached : stored w = p.locals.idx := by simp only [stored, found]
    exact ⟨p, found, fun k below => measuring.entries (reached ▸ below)⟩

/-- The replies of one round, up to the end of both loops. -/
def oneRound : List Label :=
  [⟨0, .ok⟩, ⟨0, .ok⟩, ⟨0, .ok⟩, ⟨0, .ok⟩, ⟨0, .ok⟩, ⟨0, .pid 2⟩,
    ⟨0, .handle (.socket .listening)⟩, ⟨0, .ok⟩, ⟨0, .ok⟩, ⟨0, .size 1⟩,
    ⟨1, .size 1⟩, ⟨1, .handle (.socket .client)⟩, ⟨1, .ok⟩, ⟨0, .handle (.socket .accepted)⟩,
    ⟨1, .size 1⟩, ⟨1, .size 1⟩, ⟨0, .size 1⟩, ⟨0, .time 5⟩, ⟨0, .size 1⟩, ⟨0, .time 9⟩, ⟨0, .size 1⟩,
    ⟨1, .size 1⟩]

theorem recvTest_runs_in_lock_step_once : ∃ trace w,
    SmoothRun 1 1 .plain .eagain true trace w ∧ LoopsOver w ∧ RunsInLockStep 1 1 w ∧ stored w = 1 ∧
      TimedRound (ParentAt .startTimer) (ParentAt .stopTimer) trace 0 4 := by
  obtain ⟨w, p, followed, ceased, complete, found, diffs⟩ : ∃ w p, follow (program 1 1) (wholeSends 1 1)
      (World.boot .plain (Locals.entry (.setup .allocDiffs) .eagain true)) oneRound = some w ∧ LoopsOver w ∧ stored w = 1 ∧
        w.procs[0]? = some p ∧ p.locals.diffs = [4] :=
    ⟨_, _, rfl, ⟨_, _, rfl, rfl, rfl⟩, rfl, rfl, rfl⟩
  obtain ⟨trace, run⟩ := follow_reachable (.refl _) followed
  obtain ⟨lockStep, samples⟩ := recvTest_runs_in_lock_step 1 1 .plain .eagain true (Nat.le_refl 1) w ⟨trace, run⟩
  obtain ⟨p', same, measured⟩ := samples trace run
  obtain rfl := Option.some_inj.mp (same.symm.trans found)
  obtain ⟨sample, entry, round⟩ := measured 0 (by rw [complete]; decide)
  obtain rfl : 4 = sample := by simpa [diffs] using entry
  exact ⟨trace, w, run, ceased, lockStep, complete, round⟩

end Oreo.Bench.Recv
