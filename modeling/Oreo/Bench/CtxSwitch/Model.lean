import Oreo.LeBench
import Oreo.Posix.World
import Oreo.Utils.Timer
import Mathlib.Tactic.Simps.Basic

namespace Oreo.Bench.CtxSwitch

open Oreo.Posix Oreo.Utils

/-! # `context_switch_test`

Parent and child run the same function body: `pid` tells them apart.
-/

/-- The call a process makes next. -/
inductive Pc where
  -- `save_affinity_priority(false)`
  | getPriority
  | getAffinity
  | allocDiffs
  | pipe1
  | pipe2
  | fork
  -- `set_affinity_priority(0, -20)`, in both processes
  | setAffinity
  | setPriority
  -- the parent
  | readReady
  | startTimer
  | writeRequest
  | readReply
  | stopTimer
  | wait
  -- the child
  | writeReady
  | readRequest
  | writeReply
  | killSelf
  -- `save_affinity_priority(true)`
  | restorePriority
  | restoreAffinity
  | close (fd : Fd) (pending : List Fd)
  | returned
  /-- `assert(false)` in `save_affinity_priority` -/
  | aborted
deriving DecidableEq, Repr

structure Locals where
  pc : Pc
  errno : Errno
  ret : Bool
  /-- `saved`, `prio` and `cpuset` are static in `save_affinity_priority`. -/
  saved : Bool
  prio : Int
  cpuset : List Nat
  /-- `ret` of `save_affinity_priority`. -/
  saveFailed : Bool
  /-- `ret1` of `set_affinity_priority`. -/
  setFailed : Bool
  fds1 : Fd × Fd
  fds2 : Fd × Fd
  pid : Int
  idx : Nat
  tstart : UInt64
  diffs : List Nat
  /-- The samples handed to `collect_results`. -/
  collected : Option (List Nat)
deriving DecidableEq

/-- The locals on entry, with the `errno` left by earlier calls. -/
def Locals.entry (errno : Errno) : Locals where
  pc := .getPriority
  errno
  ret := false
  saved := false
  prio := 0
  cpuset := []
  saveFailed := false
  setFailed := false
  fds1 := (none, none)
  fds2 := (none, none)
  pid := 0
  idx := 0
  tstart := 0
  diffs := []
  collected := none

def core : Nat := 0

def highPriority : Int := -20

def Locals.cleanup (l : Locals) : Locals :=
  { l with pc := if l.saved then .restorePriority else .aborted }

def Locals.err (l : Locals) : Locals := { l with ret := true }.cleanup

def Locals.closing (l : Locals) : List Fd → Locals
  | [] => { l with pc := .returned }
  | fd :: pending => { l with pc := .close fd pending }

def Locals.parentLoop (l : Locals) (iterCnt : Nat) : Locals :=
  if l.idx < iterCnt then { l with pc := .startTimer }
  else { l with pc := .wait, collected := some l.diffs }

def Locals.childLoop (l : Locals) (iterCnt : Nat) : Locals :=
  { l with pc := if l.idx < iterCnt then .readRequest else .killSelf }

/-- A failed call sets `errno` before the code goes on. -/
@[simps]
def Locals.observe (l : Locals) (r : Reply) : Locals := { l with errno := r.errno l.errno }

def request (l : Locals) : Option Call :=
  match l.pc with
  | .getPriority => some .getPriority
  | .getAffinity => some .getAffinity
  | .allocDiffs => some .allocate
  | .pipe1 => some (.pipe 0)
  | .pipe2 => some (.pipe 1)
  | .fork => some .fork
  | .setAffinity => some (.setAffinity [core])
  | .setPriority => some (.setPriority highPriority)
  | .readReady => some (.read l.fds2.1)
  | .startTimer => some .clock
  | .writeRequest => some (.write l.fds1.2)
  | .readReply => some (.read l.fds2.1)
  | .stopTimer => some .clock
  | .wait => some .wait
  | .writeReady => some (.write l.fds2.2)
  | .readRequest => some (.read l.fds1.1)
  | .writeReply => some (.write l.fds2.2)
  | .killSelf => some .killSelf
  | .restorePriority => some (.setPriority l.prio)
  | .restoreAffinity => some (.setAffinity l.cpuset)
  | .close fd _ => some (.close fd)
  | .returned => none
  | .aborted => none

def continueAt (iterCnt : Nat) (l : Locals) (r : Reply) : Locals :=
  match l.pc with
  | .getPriority =>
      -- `errno` was set to 0 before the call
      let errno := r.errno (.other 0)
      { l with pc := .getAffinity, errno, prio := r.prio, saveFailed := errno != .other 0 }
  | .getAffinity =>
      let saveFailed := l.saveFailed || r.failed
      { l with
        pc := if saveFailed then .returned else .allocDiffs
        cpuset := r.cpuset l.cpuset
        saveFailed
        saved := !saveFailed
        ret := saveFailed }
  | .allocDiffs =>
      if r.failed then l.err else { l with pc := .pipe1, diffs := initDiffArray iterCnt }
  | .pipe1 => if r.failed then l.err else { l with pc := .pipe2, fds1 := Fd.ends 0 }
  | .pipe2 => if r.failed then l.err else { l with pc := .fork, fds2 := Fd.ends 1 }
  | .fork =>
      let l : Locals := { l with pid := r.child }
      if 0 ≤ l.pid then { l with pc := .setAffinity } else l.err
  | .setAffinity => { l with pc := .setPriority, setFailed := r.failed }
  | .setPriority =>
      if l.setFailed || r.failed then l.err
      else if 0 < l.pid then { l with pc := .readReady }
      else { l with pc := .writeReady }
  | .readReady => { l with idx := 0 }.parentLoop iterCnt
  | .startTimer => { l with pc := .writeRequest, tstart := r.stamp }
  | .writeRequest => { l with pc := .readReply }
  | .readReply => { l with pc := .stopTimer }
  | .stopTimer =>
      { l with diffs := l.diffs.set l.idx (getDuration l.tstart r.stamp), idx := l.idx + 1 }.parentLoop iterCnt
  | .wait => l.cleanup
  | .writeReady => { l with idx := 0 }.childLoop iterCnt
  | .readRequest => { l with pc := .writeReply }
  | .writeReply => { l with idx := l.idx + 1 }.childLoop iterCnt
  | .killSelf => l.err
  | .restorePriority => { l with pc := .restoreAffinity }
  | .restoreAffinity => l.closing [l.fds1.1, l.fds1.2, l.fds2.1, l.fds2.2]
  | .close _ pending => l.closing pending
  | .returned => l
  | .aborted => l

def resume (iterCnt : Nat) (l : Locals) (r : Reply) : Locals :=
  continueAt iterCnt (l.observe r) r

def program (iterCnt : Nat) : Program Locals where
  request := request
  resume := resume iterCnt

def contextSwitchTest (config : BenchConfig) : Program Locals := program config.iter

end Oreo.Bench.CtxSwitch
