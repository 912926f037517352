import Oreo.Bench.Socket.Model

namespace Oreo.Bench.Send

open Oreo.Posix Oreo.Utils Oreo.Bench.Socket

/-! # `send_test` -/

/-- The call a process makes next. -/
inductive Pc where
  | setup (s : Setup)
  -- the parent
  | readReady
  | socketClient
  | connect
  | startTimer
  | send
  | stopTimer
  -- the child
  | socketServer
  | bind
  | listen
  | writeReady
  | accept
  | recv
  -- the labels `server_err` and `client_err`
  | serverErr
  | clientErr
  -- the label `cleanup`
  | release (s : Release)
  -- `return ret` in the child
  | returned
deriving DecidableEq, Repr

abbrev Locals := Socket.Locals Pc

def cleanup : Locals → Locals := Socket.Locals.cleanup .release

def err : Locals → Locals := Socket.Locals.err .release

def timedLoop (iterCnt : Nat) (l : Locals) : Locals :=
  if l.idx < iterCnt then { l with pc := .startTimer } else { l with pc := .serverErr, errored := false }

def request (msgSize : Nat) (l : Locals) : Option Call :=
  match l.pc with
  | .setup s => some s.request
  | .readReady => some (.read l.fds1.1)
  | .socketClient => some (.socket .client)
  | .connect => some (.connect l.fdClient)
  | .startTimer => some .clock
  | .send => some (.send l.fdClient msgSize)
  | .stopTimer => some .clock
  | .socketServer => some (.socket .listening)
  | .bind => some (.bind l.fdServer)
  | .listen => some (.listen l.fdServer)
  | .writeReady => some (.write l.fds1.2)
  | .accept => some (.accept l.fdServer)
  | .recv => some (.recv l.fdConnect msgSize)
  | .serverErr => some (.kill l.pid)
  | .clientErr => some .killSelf
  | .release s => s.request
  | .returned => none

def forked (l : Locals) : Locals :=
  if 0 < l.pid then { l with pc := .readReady, errored := true }
  else if l.pid = 0 then { l with pc := .socketServer }
  else err l

def continueAt (iterCnt msgSize : Nat) (l : Locals) (r : Reply) : Locals :=
  match l.pc with
  | .setup s => l.prepare .setup .release iterCnt forked r s
  | .readReady => { l with pc := .socketClient }
  | .socketClient =>
      let l : Locals := { l with fdClient := r.fd }
      if l.fdClient.below 0 then { l with pc := .serverErr } else { l with pc := .connect }
  | .connect =>
      if r.failed then { l with pc := .serverErr } else timedLoop iterCnt { l with idx := 0 }
  | .startTimer => { l with pc := .send, tstart := r.stamp }
  | .send => { l with pc := .stopTimer, size := r.count }
  | .stopTimer =>
      let l : Locals := { l with tend := r.stamp }
      if l.size ≠ msgSize ∧ l.errno = .eagain then timedLoop iterCnt l
      else timedLoop iterCnt { l.store with idx := l.idx + 1 }
  | .socketServer =>
      let l : Locals := { l with fdServer := r.fd }
      if l.fdServer.below 0 then { l with pc := .clientErr } else { l with pc := .bind }
  | .bind => if r.failed then { l with pc := .clientErr } else { l with pc := .listen }
  | .listen => if r.failed then { l with pc := .clientErr } else { l with pc := .writeReady }
  | .writeReady => { l with pc := .accept }
  | .accept =>
      let l : Locals := { l with fdConnect := r.fd }
      -- the label belongs to the parent: here `pid` is 0
      if l.fdConnect.below 0 then { l with pc := .serverErr } else { l with pc := .recv }
  | .recv => { l with pc := .recv }
  | .serverErr => if l.errored then err l else cleanup { l with collected := some l.diffs }
  | .clientErr => { l with pc := .returned }
  | .release s => l.finish .release s
  | .returned => l

def resume (iterCnt msgSize : Nat) (l : Locals) (r : Reply) : Locals :=
  continueAt iterCnt msgSize (l.observe r) r

def program (iterCnt msgSize : Nat) : Program Locals where
  request := request msgSize
  resume := resume iterCnt msgSize

def sendTest (config : BenchConfig) : Program Locals := program config.iter (msgSize config.iSize)

end Oreo.Bench.Send
