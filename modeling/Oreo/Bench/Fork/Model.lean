import Oreo.LeBench
import Oreo.Posix.World
import Oreo.Utils.Timer
import Mathlib.Tactic.Simps.Basic

namespace Oreo.Bench.Fork

open Oreo.Posix Oreo.Utils

/-! # `fork_test` -/

def pageCnt : TestInputSize → Nat
  | .test => 0
  | .small => 0
  | .medium => 3000
  | .large => 6000

/-- The call a process makes next. -/
inductive Pc where
  | allocPages
  | mapPage (i : Nat)
  | allocChildDiffs
  | allocParentDiffs
  | mapChildEnd
  | startTimer
  | fork
  -- the child
  | stampChildEnd
  | killSelf
  -- the parent
  | stopTimer
  | wait
  | loadChildEnd
  | allocResult
  | returned
  /-- `collect_results` has written through the null pointer that `malloc` returned. -/
  | crashed
deriving DecidableEq, Repr

structure Locals where
  pc : Pc
  errno : Errno
  ret : Bool
  /-- How many of `child_diffs`, `parent_diffs` and `t_child_end` are missing. -/
  missing : Nat
  pid : Int
  idx : Nat
  tstart : UInt64
  tParentEnd : UInt64
  parentDiffs : List Nat
  childDiffs : List Nat
  collected : Option (List Nat)
  childCollected : Option (List Nat)
deriving DecidableEq

/-- From the cleanup on, the code only releases memory. -/
def Locals.cleanup (l : Locals) : Locals := { l with pc := .returned }

def Locals.err (l : Locals) : Locals := { l with ret := true }.cleanup

def Locals.mapPages (l : Locals) (pages i : Nat) : Locals :=
  { l with pc := if i < pages then .mapPage i else .allocChildDiffs }

def Locals.entry (pages : Nat) (errno : Errno) : Locals where
  pc := if 0 < pages then .allocPages else .allocChildDiffs
  errno
  ret := false
  missing := 0
  pid := 0
  idx := 0
  tstart := 0
  tParentEnd := 0
  parentDiffs := []
  childDiffs := []
  collected := none
  childCollected := none

def Locals.timedLoop (l : Locals) (iterCnt : Nat) : Locals :=
  if l.idx < iterCnt then { l with pc := .startTimer }
  else { l with pc := .allocResult, collected := some l.parentDiffs }

/-- A failed call sets `errno` before the code goes on. -/
@[simps]
def Locals.observe (l : Locals) (r : Reply) : Locals := { l with errno := r.errno l.errno }

def request (l : Locals) : Option Call :=
  match l.pc with
  | .allocPages => some .allocate
  | .mapPage _ => some .allocate
  | .allocChildDiffs => some .allocate
  | .allocParentDiffs => some .allocate
  | .mapChildEnd => some .allocate
  | .startTimer => some .clock
  | .fork => some .fork
  | .stampChildEnd => some .stampShared
  | .killSelf => some .killSelf
  | .stopTimer => some .clock
  | .wait => some .wait
  | .loadChildEnd => some .loadShared
  | .allocResult => some .allocate
  | .returned => none
  | .crashed => none

def continueAt (iterCnt pages : Nat) (l : Locals) (r : Reply) : Locals :=
  match l.pc with
  | .allocPages => if r.failed then l.err else l.mapPages pages 0
  | .mapPage i => if r.failed then l.err else l.mapPages pages (i + 1)
  | .allocChildDiffs =>
      if r.failed then { l with pc := .allocParentDiffs, missing := l.missing + 1 }
      else { l with pc := .allocParentDiffs, childDiffs := initDiffArray iterCnt }
  | .allocParentDiffs =>
      if r.failed then { l with pc := .mapChildEnd, missing := l.missing + 1 }
      else { l with pc := .mapChildEnd, parentDiffs := initDiffArray iterCnt }
  | .mapChildEnd =>
      if 0 < l.missing || r.failed then l.err else { l with idx := 0 }.timedLoop iterCnt
  | .startTimer => { l with pc := .fork, tstart := r.stamp }
  | .fork =>
      let l : Locals := { l with pid := r.child }
      if l.pid = 0 then { l with pc := .stampChildEnd }
      else if 0 < l.pid then { l with pc := .stopTimer }
      else l.err
  | .stampChildEnd => { l with pc := .killSelf }
  | .killSelf => l.err
  | .stopTimer => { l with pc := .wait, tParentEnd := r.stamp }
  | .wait => { l with pc := .loadChildEnd }
  | .loadChildEnd =>
      { l with
        parentDiffs := l.parentDiffs.set l.idx (getDuration l.tstart l.tParentEnd)
        childDiffs := l.childDiffs.set l.idx (getDuration l.tstart r.stamp)
        idx := l.idx + 1 }.timedLoop iterCnt
  | .allocResult =>
      if r.failed then { l with pc := .crashed } else { l with childCollected := some l.childDiffs }.cleanup
  | .returned => l
  | .crashed => l

def resume (iterCnt pages : Nat) (l : Locals) (r : Reply) : Locals :=
  continueAt iterCnt pages (l.observe r) r

def program (iterCnt pages : Nat) : Program Locals where
  request := request
  resume := resume iterCnt pages

def forkTest (config : BenchConfig) : Program Locals := program config.iter (pageCnt config.iSize)

end Oreo.Bench.Fork
