import Oreo.Bench.Socket.Model

namespace Oreo.Bench.Recv

open Oreo.Posix Oreo.Utils Oreo.Bench.Socket

/-! # `recv_test` -/

/-- The call a process makes next. -/
inductive Pc where
  | setup (s : Setup)
  -- the parent
  | socketServer
  | bind
  | listen
  | writeReady
  | accept
  | readSent
  | startTimer
  | recv
  | stopTimer
  | writeAck
  | wait
  -- the label `server_err`, where `errored` holds
  | serverErr
  -- the child
  | readReady
  | socketClient
  | connect
  | send
  | writeSent
  | readAck
  | clientErr
  -- the label `cleanup`
  | release (s : Release)
  -- `return ret` in the child
  | returned
deriving DecidableEq, Repr

abbrev Locals := Socket.Locals Pc

def cleanup : Locals → Locals := Socket.Locals.cleanup .release

def err : Locals → Locals := Socket.Locals.err .release

def serverErr (l : Locals) : Locals :=
  if l.errored then { l with pc := .serverErr } else cleanup { l with collected := some l.diffs }

def timedLoop (iterCnt : Nat) (l : Locals) : Locals :=
  if l.idx < iterCnt then { l with pc := .readSent } else { l with pc := .wait, errored := false }

def sendLoop (iterCnt : Nat) (l : Locals) : Locals :=
  { l with pc := if l.idx < iterCnt then .send else .clientErr }

def request (msgSize : Nat) (l : Locals) : Option Call :=
  match l.pc with
  | .setup s => some s.request
  | .socketServer => some (.socket .listening)
  | .bind => some (.bind l.fdServer)
  | .listen => some (.listen l.fdServer)
  | .writeReady => some (.write l.fds1.2)
  | .accept => some (.accept l.fdServer)
  | .readSent => some (.read l.fds2.1)
  | .startTimer => some .clock
  | .recv => some (.recv l.fdConnect msgSize)
  | .stopTimer => some .clock
  | .writeAck => some (.write l.fds1.2)
  | .wait => some .wait
  | .serverErr => some (.kill l.pid)
  | .readReady => some (.read l.fds1.1)
  | .socketClient => some (.socket .client)
  | .connect => some (.connect l.fdClient)
  | .send => some (.send l.fdClient msgSize)
  | .writeSent => some (.write l.fds2.2)
  | .readAck => some (.read l.fds1.1)
  | .clientErr => some .killSelf
  | .release s => s.request
  | .returned => none

def forked (l : Locals) : Locals :=
  if 0 < l.pid then { l with pc := .socketServer, errored := true }
  else if l.pid = 0 then { l with pc := .readReady }
  else err l

def continueAt (iterCnt msgSize : Nat) (l : Locals) (r : Reply) : Locals :=
  match l.pc with
  | .setup s => l.prepare .setup .release iterCnt forked r s
  | .socketServer =>
      let l : Locals := { l with fdServer := r.fd }
      if l.fdServer.below 0 then serverErr l else { l with pc := .bind }
  | .bind => if r.failed then serverErr l else { l with pc := .listen }
  | .listen => if r.failed then serverErr l else { l with pc := .writeReady }
  | .writeReady => { l with pc := .accept }
  | .accept =>
      let l : Locals := { l with fdConnect := r.fd }
      -- the source compares with -1 here, not with 0
      if l.fdConnect.below (-1) then serverErr l else timedLoop iterCnt { l with idx := 0 }
  | .readSent => { l with pc := .startTimer }
  | .startTimer => { l with pc := .recv, tstart := r.stamp }
  | .recv => { l with pc := .stopTimer, size := r.count }
  | .stopTimer =>
      let l : Locals := { l with tend := r.stamp }
      if l.size ≠ msgSize then serverErr l else { l.store with pc := .writeAck }
  | .writeAck => timedLoop iterCnt { l with idx := l.idx + 1 }
  | .wait => serverErr l
  | .serverErr => err l
  | .readReady => { l with pc := .socketClient }
  | .socketClient =>
      let l : Locals := { l with fdClient := r.fd }
      if l.fdClient.below 0 then { l with pc := .clientErr } else { l with pc := .connect }
  | .connect =>
      if r.failed then { l with pc := .clientErr } else sendLoop iterCnt { l with idx := 0 }
  | .send =>
      let l : Locals := { l with size := r.count }
      if l.size ≠ msgSize ∧ l.errno = .eagain then sendLoop iterCnt l else { l with pc := .writeSent }
  | .writeSent => { l with pc := .readAck }
  | .readAck => sendLoop iterCnt { l with idx := l.idx + 1 }
  | .clientErr => { l with pc := .returned }
  | .release s => l.finish .release s
  | .returned => l

def resume (iterCnt msgSize : Nat) (l : Locals) (r : Reply) : Locals :=
  continueAt iterCnt msgSize (l.observe r) r

def program (iterCnt msgSize : Nat) : Program Locals where
  request := request msgSize
  resume := resume iterCnt msgSize

def recvTest (config : BenchConfig) : Program Locals := program config.iter (msgSize config.iSize)

end Oreo.Bench.Recv
