import Oreo.Bench.Recv.Progress

namespace Oreo.Bench.Recv

open Oreo.Posix Oreo.Transition Oreo.Bench.Socket

/-! # Counting bytes and connections -/

variable {iterCnt msgSize : Nat} {w : World Locals} {p c : Proc Locals} {call : Call} {r : Reply}

/-- What a process has moved through `fds1` (pipe 0), `fds2` (pipe 1) and the socket. -/
structure Counts where
  wrote1 : Nat
  took1 : Nat
  wrote2 : Nat
  took2 : Nat
  sent : Nat
  received : Nat
  listens : Nat
  connects : Nat
  accepts : Nat
deriving DecidableEq

def counted (t : Tally) : Counts :=
  ⟨t.wrote 0, t.took 0, t.wrote 1, t.took 1, t.sent, t.received, t.listens, t.connects, t.accepts⟩

/-- What the parent has moved when it is about to make the call `pc`. -/
def parentCounts (iterCnt msgSize : Nat) (l : Locals) : Option Counts :=
  match l.pc with
  | .socketServer | .bind | .listen => some ⟨0, 0, 0, 0, 0, 0, 0, 0, 0⟩
  | .writeReady => some ⟨0, 0, 0, 0, 0, 0, 1, 0, 0⟩
  | .accept => some ⟨1, 0, 0, 0, 0, 0, 1, 0, 0⟩
  | .readSent => some ⟨l.idx + 1, 0, 0, l.idx, 0, msgSize * l.idx, 1, 0, 1⟩
  | .startTimer | .recv => some ⟨l.idx + 1, 0, 0, l.idx + 1, 0, msgSize * l.idx, 1, 0, 1⟩
  | .stopTimer | .writeAck => some ⟨l.idx + 1, 0, 0, l.idx + 1, 0, msgSize * (l.idx + 1), 1, 0, 1⟩
  | .wait | .release _ => some ⟨iterCnt + 1, 0, 0, iterCnt, 0, msgSize * iterCnt, 1, 0, 1⟩
  | _ => none

/-- What the child has moved when it is about to make the call `pc`. -/
def childCounts (iterCnt msgSize : Nat) (l : Locals) : Option Counts :=
  match l.pc with
  | .readReady => some ⟨0, 0, 0, 0, 0, 0, 0, 0, 0⟩
  | .socketClient | .connect => some ⟨0, 1, 0, 0, 0, 0, 0, 0, 0⟩
  | .send => some ⟨0, l.idx + 1, l.idx, 0, msgSize * l.idx, 0, 0, 1, 0⟩
  | .writeSent => some ⟨0, l.idx + 1, l.idx, 0, msgSize * (l.idx + 1), 0, 0, 1, 0⟩
  | .readAck => some ⟨0, l.idx + 1, l.idx + 1, 0, msgSize * (l.idx + 1), 0, 0, 1, 0⟩
  | .clientErr | .returned => some ⟨0, iterCnt + 1, iterCnt, 0, msgSize * iterCnt, 0, 0, 1, 0⟩
  | _ => none

def Pc.pastLoop : Pc → Bool
  | .wait | .serverErr | .clientErr | .release _ | .returned => true
  | _ => false

def Pc.inLoop : Pc → Bool
  | .readSent | .startTimer | .recv | .stopTimer | .writeAck | .send | .writeSent | .readAck => true
  | _ => false

/-- The parent's branch up to the end of its loop, where `errored` is still set. -/
def Pc.armed : Pc → Bool
  | .socketServer | .bind | .listen | .writeReady | .accept | .readSent | .startTimer | .recv | .stopTimer
  | .writeAck | .serverErr => true
  | _ => false

def socketInUse (l : Locals) : Option Fd :=
  match l.pc with
  | .bind | .listen | .writeReady | .accept => some l.fdServer
  | .readSent | .startTimer | .recv | .stopTimer | .writeAck => some l.fdConnect
  | .connect | .send | .writeSent | .readAck => some l.fdClient
  | _ => none

/-- The process has moved as much as its place in the code says, and no call has failed. -/
structure OnTrack (iterCnt msgSize : Nat) (counts : Locals → Option Counts) (l : Locals) (t : Tally) : Prop where
  socket : socketInUse l ≠ some none
  whole : l.pc = .stopTimer → l.size = msgSize
  unfailed : l.pc = .wait → l.errored = false
  armed : l.pc.armed = true → l.errored = true
  inLoop : l.pc.inLoop = true → l.idx < iterCnt
  ended : l.pc.pastLoop = true → l.idx = iterCnt
  counts : counts l = some (counted t)

section Charge

variable (t : Tally) (fd : Fd)

theorem counted_read (pipe : Nat) :
    counted (t.charge (.read (some (.readEnd pipe))) (.size 1)) =
      { counted t with
        took1 := t.took 0 + if pipe = 0 then 1 else 0
        took2 := t.took 1 + if pipe = 1 then 1 else 0 } := by
  unfold counted Tally.charge bump
  grind

theorem counted_write (pipe : Nat) :
    counted (t.charge (.write (some (.writeEnd pipe))) (.size 1)) =
      { counted t with
        wrote1 := t.wrote 0 + if pipe = 0 then 1 else 0
        wrote2 := t.wrote 1 + if pipe = 1 then 1 else 0 } := by
  unfold counted Tally.charge bump
  grind

theorem counted_send (size n : Nat) :
    counted (t.charge (.send fd size) (.size n)) = { counted t with sent := t.sent + n } := rfl

theorem counted_recv (size n : Nat) :
    counted (t.charge (.recv fd size) (.size n)) = { counted t with received := t.received + n } := rfl

theorem counted_listen : counted (t.charge (.listen fd) .ok) = { counted t with listens := t.listens + 1 } := rfl

theorem counted_connect : counted (t.charge (.connect fd) .ok) = { counted t with connects := t.connects + 1 } := rfl

theorem counted_accept (h : Handle) :
    counted (t.charge (.accept fd) (.handle h)) = { counted t with accepts := t.accepts + 1 } := rfl

end Charge

section

variable {l : Locals} {t : Tally} {counts : Locals → Option Counts}

theorem Pc.pastLoop_of_inLoop {pc : Pc} (inLoop : pc.inLoop = true) : pc.pastLoop = false := by
  cases pc <;> first | rfl | simp [Pc.inLoop] at inLoop

theorem socketInUse_of_pastLoop (beyond : l.pc.pastLoop = true) : socketInUse l = none := by
  cases pc : l.pc <;> simp only [pc, Pc.pastLoop, Bool.false_eq_true] at beyond <;> simp only [socketInUse, pc]

theorem OnTrack.before (early : l.pc.inLoop = false) (notOver : l.pc.pastLoop = false)
    (socket : socketInUse l ≠ some none) (armed : l.pc.armed = true → l.errored = true)
    (kept : counts l = some (counted t)) : OnTrack iterCnt msgSize counts l t := by
  have notTimed : l.pc ≠ .stopTimer := by
    intro pc
    simp [pc, Pc.inLoop] at early
  have notWaiting : l.pc ≠ .wait := by
    intro pc
    simp [pc, Pc.pastLoop] at notOver
  exact ⟨socket, fun pc => absurd pc notTimed, fun pc => absurd pc notWaiting, armed, by simp [early],
    by simp [notOver], kept⟩

theorem OnTrack.inside (inLoop : l.pc.inLoop = true) (bound : l.idx < iterCnt)
    (socket : socketInUse l ≠ some none) (whole : l.pc = .stopTimer → l.size = msgSize)
    (armed : l.pc.armed = true → l.errored = true) (kept : counts l = some (counted t)) :
    OnTrack iterCnt msgSize counts l t := by
  have notOver := Pc.pastLoop_of_inLoop inLoop
  have notWaiting : l.pc ≠ .wait := by
    intro pc
    simp [pc, Pc.inLoop] at inLoop
  exact ⟨socket, whole, fun pc => absurd pc notWaiting, armed, fun _ => bound, by simp [notOver], kept⟩

theorem OnTrack.past (beyond : l.pc.pastLoop = true) (notArmed : l.pc.armed = false) (ended : l.idx = iterCnt)
    (unfailed : l.pc = .wait → l.errored = false) (kept : counts l = some (counted t)) :
    OnTrack iterCnt msgSize counts l t := by
  have notIn : l.pc.inLoop ≠ true := by
    intro inLoop
    simp [Pc.pastLoop_of_inLoop inLoop] at beyond
  have notTimed : l.pc ≠ .stopTimer := by
    intro pc
    simp [pc, Pc.pastLoop] at beyond
  exact ⟨by simp [socketInUse_of_pastLoop beyond], fun pc => absurd pc notTimed, unfailed, by simp [notArmed],
    fun inLoop => absurd inLoop notIn, fun _ => ended, kept⟩

theorem OnTrack.timedLoop (socket : l.fdConnect ≠ none) (armed : l.errored = true)
    (bound : l.idx ≤ iterCnt)
    (counts : counted t = ⟨l.idx + 1, 0, 0, l.idx, 0, msgSize * l.idx, 1, 0, 1⟩) :
    OnTrack iterCnt msgSize (parentCounts iterCnt msgSize) (Recv.timedLoop iterCnt l) t := by
  unfold Recv.timedLoop
  split
  · exact .inside rfl ‹_› (by simpa [socketInUse] using socket) (by simp) (fun _ => armed)
      (by simp [parentCounts, counts])
  · have ended : l.idx = iterCnt := by omega
    exact .past rfl rfl ended (fun _ => rfl) (by simp [parentCounts, counts, ended])

theorem OnTrack.sendLoop (socket : l.fdClient ≠ none) (bound : l.idx ≤ iterCnt)
    (counts : counted t = ⟨0, l.idx + 1, l.idx, 0, msgSize * l.idx, 0, 0, 1, 0⟩) :
    OnTrack iterCnt msgSize (childCounts iterCnt msgSize) (Recv.sendLoop iterCnt l) t := by
  unfold Recv.sendLoop
  split
  · exact .inside rfl ‹_› (by simpa [socketInUse] using socket) (by simp) (by simp [Pc.armed])
      (by simp [childCounts, counts])
  · have ended : l.idx = iterCnt := by omega
    exact .past rfl rfl ended (by simp) (by simp [childCounts, counts, ended])

theorem OnTrack.released (pc : l.pc = .release s) (ended : l.idx = iterCnt)
    (counts : counted t = ⟨iterCnt + 1, 0, 0, iterCnt, 0, msgSize * iterCnt, 1, 0, 1⟩) :
    OnTrack iterCnt msgSize (parentCounts iterCnt msgSize) l t :=
  .past (by rw [pc]; rfl) (by rw [pc]; rfl) ended (by simp [pc]) (by simp [parentCounts, pc, counts])

end

section Advance

variable (natural : w.natural (program iterCnt msgSize) p call r = true)
  (pipes : p.locals.pc.pastLoop = false → HasPipes p.locals p.handles)
include natural pipes

theorem OnTrack.parent_advance (track : OnTrack iterCnt msgSize (parentCounts iterCnt msgSize) p.locals p.tally)
    (turn : Turn (program iterCnt msgSize) w 0 p call r) (positive : 0 < msgSize)
    (queued : p.locals.pc = .recv → w.queue = msgSize) :
    OnTrack iterCnt msgSize (parentCounts iterCnt msgSize) (resume iterCnt msgSize p.locals r)
      (p.tally.charge call r) := by
  obtain ⟨socket, whole, unfailed, armed, inLoop, ended, counts⟩ := track
  have asked := turn.request
  cases pc : p.locals.pc <;>
    simp only [parentCounts, pc, Option.some.injEq, reduceCtorEq] at counts <;>
    simp only [program_request, request, pc, Option.some.injEq] at asked <;>
    simp only [pc, Pc.pastLoop, Pc.inLoop, Pc.armed, true_implies, reduceCtorEq, false_implies]
      at pipes inLoop whole ended unfailed queued armed <;>
    simp only [socketInUse, pc, ne_eq, Option.some.injEq] at socket <;>
    simp only [resume, continueAt, Locals.observe_pc, pc]
  case socketServer =>
      subst asked
      obtain rfl := handle_of_socket natural
      simp only [Reply.fd_handle, Fd.below_some, Bool.false_eq_true, if_false]
      exact .before rfl rfl (by simp [socketInUse]) (fun _ => armed) (by simp [parentCounts, Tally.charge, counts])
  case bind =>
      subst asked
      obtain rfl := ok_of_bind natural socket
      simp only [Reply.failed_ok, Bool.false_eq_true, if_false]
      exact .before rfl rfl (by simpa [socketInUse] using socket) (fun _ => armed)
        (by simp [parentCounts, Tally.charge, counts])
  case listen =>
      subst asked
      obtain rfl := ok_of_listen natural socket
      simp only [Reply.failed_ok, Bool.false_eq_true, if_false]
      exact .before rfl rfl (by simpa [socketInUse] using socket) (fun _ => armed)
        (by grind [counted_listen, counted, parentCounts])
  case writeReady =>
      rw [pipes.fds1.snd] at asked
      subst asked
      obtain ⟨rfl, -⟩ := Turn.write_one natural pipes.fds1.writeEnd
      exact .before rfl rfl (by simpa [socketInUse] using socket) (fun _ => armed)
        (by grind [counted_write, counted, parentCounts])
  case accept =>
      subst asked
      obtain ⟨h, rfl⟩ := handle_of_accept natural socket
      simp only [Reply.fd_handle, Fd.below_some, Bool.false_eq_true, if_false]
      exact .timedLoop (by simp) armed (Nat.zero_le _) (by grind [counted_accept, counted])
  case readSent =>
      rw [pipes.fds2.fst] at asked
      subst asked
      obtain ⟨rfl, -⟩ := turn.read_one natural pipes.fds2.readEnd pipes.fds2.writeEnd
      exact .inside rfl inLoop (by simpa [socketInUse] using socket) (by simp) (fun _ => armed)
        (by grind [counted_read, counted, parentCounts, Socket.Locals.observe_idx])
  case startTimer =>
      subst asked
      exact .inside rfl inLoop (by simpa [socketInUse] using socket) (by simp) (fun _ => armed)
        (by simp [parentCounts, Tally.charge, counts])
  case recv =>
      subst asked
      obtain rfl := size_of_recv natural socket (by omega)
      rw [queued, Nat.min_self]
      exact .inside rfl inLoop (by simpa [socketInUse] using socket) (fun _ => rfl) (fun _ => armed)
        (by grind [counted_recv, counted, parentCounts, Socket.Locals.observe_idx])
  case stopTimer =>
      subst asked
      simp only [Socket.Locals.observe_size, whole, ne_eq, not_true_eq_false, if_false]
      exact .inside rfl inLoop (by simpa [socketInUse, Socket.Locals.store] using socket) (by simp) (fun _ => armed)
        (by simp [parentCounts, Tally.charge, Socket.Locals.store, counts])
  case writeAck =>
      rw [pipes.fds1.snd] at asked
      subst asked
      obtain ⟨rfl, -⟩ := Turn.write_one natural pipes.fds1.writeEnd
      exact .timedLoop socket armed inLoop (by grind [counted_write, counted, Socket.Locals.observe_idx])
  case wait =>
      subst asked
      have same : p.tally.charge .wait r = p.tally := rfl
      simp only [serverErr, Socket.Locals.observe_errored, unfailed, Bool.false_eq_true, if_false]
      exact .released rfl ended (same ▸ counts.symm)
  case release s =>
      obtain ⟨s', after⟩ := finish_pc Pc.release (p.locals.observe r) s pc
      exact .released after (by simpa using ended) (by rw [charge_release asked, ← counts])

theorem OnTrack.child_advance (track : OnTrack iterCnt msgSize (childCounts iterCnt msgSize) p.locals p.tally)
    (turn : Turn (program iterCnt msgSize) w 1 p call r) (listening : p.locals.pc = .connect → w.listening = true)
    (accepted : p.locals.pc = .send → r = .size msgSize) :
    OnTrack iterCnt msgSize (childCounts iterCnt msgSize) (resume iterCnt msgSize p.locals r)
      (p.tally.charge call r) := by
  obtain ⟨socket, -, -, -, inLoop, ended, counts⟩ := track
  have asked := turn.request
  cases pc : p.locals.pc <;>
    simp only [childCounts, pc, Option.some.injEq, reduceCtorEq] at counts <;>
    simp only [program_request, request, pc, Option.some.injEq] at asked <;>
    simp only [pc, Pc.pastLoop, Pc.inLoop, true_implies, reduceCtorEq, false_implies]
      at pipes inLoop ended listening accepted <;>
    simp only [socketInUse, pc, ne_eq, Option.some.injEq] at socket <;>
    simp only [resume, continueAt, Locals.observe_pc, pc]
  case readReady =>
      rw [pipes.fds1.fst] at asked
      subst asked
      obtain ⟨rfl, -⟩ := turn.read_one natural pipes.fds1.readEnd pipes.fds1.writeEnd
      exact .before rfl rfl (by simp [socketInUse]) (by simp [Pc.armed]) (by grind [counted_read, counted, childCounts])
  case socketClient =>
      subst asked
      obtain rfl := handle_of_socket natural
      simp only [Reply.fd_handle, Fd.below_some, Bool.false_eq_true, if_false]
      exact .before rfl rfl (by simp [socketInUse]) (by simp [Pc.armed]) (by simp [childCounts, Tally.charge, counts])
  case connect =>
      subst asked
      obtain rfl := ok_of_connect natural socket listening
      simp only [Reply.failed_ok, Bool.false_eq_true, if_false]
      exact .sendLoop socket (Nat.zero_le _) (by grind [counted_connect, counted])
  case send =>
      subst asked accepted
      simp only [Reply.count_size, ne_eq, not_true_eq_false, false_and, if_false]
      exact .inside rfl inLoop (by simpa [socketInUse] using socket) (by simp) (by simp [Pc.armed])
        (by grind [counted_send, counted, childCounts, Socket.Locals.observe_idx])
  case writeSent =>
      rw [pipes.fds2.snd] at asked
      subst asked
      obtain ⟨rfl, -⟩ := Turn.write_one natural pipes.fds2.writeEnd
      exact .inside rfl inLoop (by simpa [socketInUse] using socket) (by simp) (by simp [Pc.armed])
        (by grind [counted_write, counted, childCounts, Socket.Locals.observe_idx])
  case readAck =>
      rw [pipes.fds1.fst] at asked
      subst asked
      obtain ⟨rfl, -⟩ := turn.read_one natural pipes.fds1.readEnd pipes.fds1.writeEnd
      exact .sendLoop socket inLoop (by grind [counted_read, counted, Socket.Locals.observe_idx])
  case clientErr =>
      subst asked
      have same : p.tally.charge .killSelf r = p.tally := rfl
      exact .past rfl rfl ended (by simp) (by simp [childCounts, same, counts])
  case returned => contradiction

end Advance

end Oreo.Bench.Recv
