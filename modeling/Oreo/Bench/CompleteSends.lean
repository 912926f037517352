import Oreo.Bench.Recv.Model
import Oreo.Bench.Send.Model
import Oreo.Bench.Socket.Attempts

/-! # Which sends the loops act on -/

namespace Oreo.Bench.Send

open Oreo.Posix Oreo.Utils Oreo.Bench.Socket

variable {iterCnt msgSize left : Nat} {errno : Errno} {l : Locals}

/-- The locals after a successful `connect`, at the head of the timed loop. -/
def connected (iterCnt msgSize : Nat) (l : Locals) : Locals :=
  resume iterCnt msgSize { l with pc := .connect } .ok

/-- A pass of the timed loop: `start_timer`, `send`, `stop_timer`. -/
def pass (iterCnt msgSize : Nat) (l : Locals) (attempt : Attempt msgSize) : Locals :=
  [.time attempt.began, attempt.outcome.reply, .time attempt.ended].foldl (resume iterCnt msgSize) l

/-- The pass stores a sample and advances `idx` if the whole message was sent, and
does neither otherwise. -/
def StoresFull (iterCnt msgSize : Nat) (l : Locals) (attempt : Attempt msgSize) : Prop :=
  let after := pass iterCnt msgSize l attempt
  if attempt.outcome.isFull then
    after.idx = l.idx + 1 ∧ after.diffs = l.diffs.set l.idx (getDuration attempt.began attempt.ended)
  else after.idx = l.idx ∧ after.diffs = l.diffs

/-- `send_test` stores samples exactly at the complete sends. -/
def StoresOnlyFull (iterCnt msgSize : Nat) (l : Locals) (attempts : List (Attempt msgSize)) : Prop :=
  EveryPass (fun l => l.pc = .startTimer) (pass iterCnt msgSize) (StoresFull iterCnt msgSize)
    (connected iterCnt msgSize l) attempts

/-- At the head of the timed loop, with `left` samples to take. -/
structure AtHead (iterCnt left : Nat) (errno : Errno) (l : Locals) : Prop where
  pc : l.pc = if 0 < left then .startTimer else .serverErr
  idx : l.idx + left = iterCnt
  errno : l.errno = errno

theorem AtHead.timedLoop (idx : l.idx + left = iterCnt) (same : l.errno = errno) :
    AtHead iterCnt left errno (timedLoop iterCnt l) := by
  unfold Send.timedLoop
  split
  · have loops : 0 < left := by omega
    exact ⟨by simp [loops], idx, same⟩
  · have ceased : ¬ 0 < left := by omega
    exact ⟨by simp [ceased], idx, same⟩

theorem AtHead.connected (l : Locals) : AtHead iterCnt iterCnt l.errno (connected iterCnt msgSize l) :=
  .timedLoop (Nat.zero_add iterCnt) rfl

def timed (l : Locals) (attempt : Attempt msgSize) : Locals :=
  { l with
    pc := .stopTimer
    errno := attempt.outcome.reply.errno l.errno
    size := attempt.outcome.reply.count
    tstart := attempt.began
    tend := attempt.ended }

theorem pass_eq (inside : l.pc = .startTimer) (attempt : Attempt msgSize) :
    pass iterCnt msgSize l attempt =
      if attempt.outcome.isFull = false ∧ attempt.outcome.reply.errno l.errno = .eagain then
        timedLoop iterCnt (timed l attempt)
      else timedLoop iterCnt { (timed l attempt).store with idx := l.idx + 1 } := by
  have whole := attempt.outcome.count_eq_iff
  simp only [pass, List.foldl_cons, List.foldl_nil, resume, continueAt, Socket.Locals.observe, inside,
    Reply.errno, Reply.stamp, ne_eq, whole, Bool.not_eq_true]
  rfl

@[simp] theorem timedLoop_idx (l : Locals) : (timedLoop iterCnt l).idx = l.idx := by
  unfold timedLoop
  split <;> rfl

@[simp] theorem timedLoop_diffs (l : Locals) : (timedLoop iterCnt l).diffs = l.diffs := by
  unfold timedLoop
  split <;> rfl

/-- An incomplete `send` is passed over only while `errno` is `EAGAIN`. -/
theorem storesFull_iff (inside : l.pc = .startTimer) (attempt : Attempt msgSize) :
    StoresFull iterCnt msgSize l attempt ↔
      attempt.outcome.isFull = true ∨ attempt.outcome.reply.errno l.errno = .eagain := by
  simp only [StoresFull, pass_eq inside]
  cases full : attempt.outcome.isFull with
  | true => simp [timed, Socket.Locals.store]
  | false =>
      by_cases again : attempt.outcome.reply.errno l.errno = .eagain
      · simp [again, timed]
      · simp [again, timed]

theorem AtHead.pass (loops : 0 < left) (atHead : AtHead iterCnt left errno l) (attempt : Attempt msgSize)
    (stores : StoresFull iterCnt msgSize l attempt) :
    AtHead iterCnt (attempt.outcome.leaves left) (attempt.outcome.reply.errno errno)
      (pass iterCnt msgSize l attempt) := by
  obtain ⟨pc, idx, rfl⟩ := atHead
  rw [if_pos loops] at pc
  have counts := (storesFull_iff pc attempt).mp stores
  rw [pass_eq pc, Outcome.leaves]
  cases full : attempt.outcome.isFull with
  | true =>
      simp only [Bool.true_eq_false, false_and, if_false, if_true]
      exact .timedLoop (show l.idx + 1 + (left - 1) = iterCnt by omega) rfl
  | false =>
      have again := counts.resolve_left (by simp [full])
      simp only [again, and_self, if_true, Bool.false_eq_true, if_false]
      exact .timedLoop idx again

theorem storesOnlyFull_iff (l : Locals) (attempts : List (Attempt msgSize)) :
    StoresOnlyFull iterCnt msgSize l attempts ↔ Untainted iterCnt l.errno (attempts.map Attempt.outcome) := by
  refine everyPass_iff (AtHead iterCnt) ?_ ?_ ?_ (.connected l) attempts
  · intro left errno l atHead
    rw [atHead.pc]
    split <;> simp [*]
  · intro left errno l attempt loops atHead
    rw [← atHead.errno]
    exact storesFull_iff (by rw [atHead.pc, if_pos loops]) attempt
  · intro left errno l attempt loops atHead stores
    exact atHead.pass loops attempt stores

end Oreo.Bench.Send

namespace Oreo.Bench.Recv

open Oreo.Posix Oreo.Bench.Socket

variable {iterCnt msgSize left : Nat} {errno : Errno} {l : Locals}

/-- The child's locals after a successful `connect`, at the head of its loop. -/
def connected (iterCnt msgSize : Nat) (l : Locals) : Locals :=
  resume iterCnt msgSize { l with pc := .connect } .ok

/-- What comes after a `send`: the token and its acknowledgement, or nothing. -/
def exchange (iterCnt msgSize : Nat) (l : Locals) : Locals :=
  if l.pc = .writeSent then [.size 1, .size 1].foldl (resume iterCnt msgSize) l else l

def pass (iterCnt msgSize : Nat) (l : Locals) (attempt : Attempt msgSize) : Locals :=
  exchange iterCnt msgSize (resume iterCnt msgSize l attempt.outcome.reply)

/-- The pass writes the token and advances `idx` if the whole message was sent, and
does neither otherwise. -/
def TellsFull (iterCnt msgSize : Nat) (l : Locals) (attempt : Attempt msgSize) : Prop :=
  let sent := resume iterCnt msgSize l attempt.outcome.reply
  let after := pass iterCnt msgSize l attempt
  if attempt.outcome.isFull then
    request msgSize sent = some (.write l.fds2.2) ∧ after.idx = l.idx + 1
  else request msgSize sent = some (.send l.fdClient msgSize) ∧ after.idx = l.idx

/-- The child of `recv_test` sends its token exactly at the complete sends. -/
def TellsOnlyFull (iterCnt msgSize : Nat) (l : Locals) (attempts : List (Attempt msgSize)) : Prop :=
  EveryPass (fun l => l.pc = .send) (pass iterCnt msgSize) (TellsFull iterCnt msgSize)
    (connected iterCnt msgSize l) attempts

structure AtHead (iterCnt left : Nat) (errno : Errno) (l : Locals) : Prop where
  pc : l.pc = if 0 < left then .send else .clientErr
  idx : l.idx + left = iterCnt
  errno : l.errno = errno

theorem AtHead.sendLoop (idx : l.idx + left = iterCnt) (same : l.errno = errno) :
    AtHead iterCnt left errno (sendLoop iterCnt l) := by
  refine ⟨?_, idx, same⟩
  have inside : l.idx < iterCnt ↔ 0 < left := by omega
  simp only [Recv.sendLoop, inside]

theorem AtHead.connected (l : Locals) : AtHead iterCnt iterCnt l.errno (connected iterCnt msgSize l) :=
  .sendLoop (Nat.zero_add iterCnt) rfl

def sent (l : Locals) (attempt : Attempt msgSize) : Locals :=
  { l with errno := attempt.outcome.reply.errno l.errno, size := attempt.outcome.reply.count }

theorem resume_send (inside : l.pc = .send) (attempt : Attempt msgSize) :
    resume iterCnt msgSize l attempt.outcome.reply =
      if attempt.outcome.isFull = false ∧ attempt.outcome.reply.errno l.errno = .eagain then
        sendLoop iterCnt (sent l attempt)
      else { sent l attempt with pc := .writeSent } := by
  have whole := attempt.outcome.count_eq_iff
  simp only [resume, continueAt, Socket.Locals.observe, inside, ne_eq, whole, Bool.not_eq_true]
  rfl

theorem pass_eq (inside : l.pc = .send) (attempt : Attempt msgSize) :
    pass iterCnt msgSize l attempt =
      if attempt.outcome.isFull = false ∧ attempt.outcome.reply.errno l.errno = .eagain then
        sendLoop iterCnt (sent l attempt)
      else sendLoop iterCnt { sent l attempt with pc := .readAck, idx := l.idx + 1 } := by
  unfold pass
  rw [resume_send inside]
  split
  · unfold exchange sendLoop
    dsimp only
    split <;> simp
  · rfl

theorem tellsFull_iff (inside : l.pc = .send) (loops : l.idx < iterCnt) (attempt : Attempt msgSize) :
    TellsFull iterCnt msgSize l attempt ↔
      attempt.outcome.isFull = true ∨ attempt.outcome.reply.errno l.errno = .eagain := by
  simp only [TellsFull, pass_eq inside, resume_send inside]
  cases full : attempt.outcome.isFull with
  | true => simp [sent, sendLoop, request]
  | false =>
      by_cases again : attempt.outcome.reply.errno l.errno = .eagain
      · simp [again, sent, sendLoop, request, loops]
      · simp [again, sent, sendLoop]

theorem AtHead.pass (loops : 0 < left) (atHead : AtHead iterCnt left errno l) (attempt : Attempt msgSize)
    (tells : TellsFull iterCnt msgSize l attempt) :
    AtHead iterCnt (attempt.outcome.leaves left) (attempt.outcome.reply.errno errno)
      (pass iterCnt msgSize l attempt) := by
  obtain ⟨pc, idx, rfl⟩ := atHead
  rw [if_pos loops] at pc
  have counts := (tellsFull_iff pc (by omega) attempt).mp tells
  rw [pass_eq pc, Outcome.leaves]
  cases full : attempt.outcome.isFull with
  | true =>
      simp only [Bool.true_eq_false, false_and, if_false, if_true]
      exact .sendLoop (show l.idx + 1 + (left - 1) = iterCnt by omega) rfl
  | false =>
      have again := counts.resolve_left (by simp [full])
      simp only [again, and_self, if_true, Bool.false_eq_true, if_false]
      exact .sendLoop idx again

theorem tellsOnlyFull_iff (l : Locals) (attempts : List (Attempt msgSize)) :
    TellsOnlyFull iterCnt msgSize l attempts ↔ Untainted iterCnt l.errno (attempts.map Attempt.outcome) := by
  refine everyPass_iff (AtHead iterCnt) ?_ ?_ ?_ (.connected l) attempts
  · intro left errno l atHead
    rw [atHead.pc]
    split <;> simp [*]
  · intro left errno l attempt loops atHead
    rw [← atHead.errno]
    have idx := atHead.idx
    exact tellsFull_iff (by rw [atHead.pc, if_pos loops]) (by omega) attempt
  · intro left errno l attempt loops atHead tells
    exact atHead.pass loops attempt tells

end Oreo.Bench.Recv

namespace Oreo.Bench

open Oreo.Posix Oreo.Bench.Socket

/-- With `errno` on entry, both loops act exactly at the complete sends among `attempts`. -/
structure ActsOnCompleteSends (iterCnt msgSize : Nat) (errno : Errno) (attempts : List (Attempt msgSize)) : Prop where
  sendTest : ∀ l : Send.Locals, l.errno = errno → Send.StoresOnlyFull iterCnt msgSize l attempts
  recvTest : ∀ l : Recv.Locals, l.errno = errno → Recv.TellsOnlyFull iterCnt msgSize l attempts

theorem sendLoops_act_on_complete_sends_iff (iterCnt msgSize : Nat) (errno : Errno)
    (attempts : List (Attempt msgSize)) :
    ActsOnCompleteSends iterCnt msgSize errno attempts ↔
      Untainted iterCnt errno (attempts.map Attempt.outcome) := by
  constructor
  · intro acts
    exact (Send.storesOnlyFull_iff _ _).mp
      (acts.sendTest (Socket.Locals.entry (.setup .allocDiffs) errno false) rfl)
  · intro untainted
    constructor
    · intro l entry
      subst entry
      exact (Send.storesOnlyFull_iff l attempts).mpr untainted
    · intro l entry
      subst entry
      exact (Recv.tellsOnlyFull_iff l attempts).mpr untainted

/-- `remove` has left an `errno` of 2, and the first `send` is short. -/
theorem sendLoops_act_on_short_send :
    ¬ ActsOnCompleteSends 1 4800 (.other 2) [⟨.short 100 (by decide) (by decide), 5, 9⟩] := by
  intro acts
  have stores := acts.sendTest (Socket.Locals.entry (.setup .allocDiffs) (.other 2) false) rfl
  exact absurd (stores rfl).1.1 (by decide)

end Oreo.Bench
