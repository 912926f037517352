import Oreo.Transition.Run
import Oreo.Utils.Timer

namespace Oreo.Bench.Threads

open Oreo.Utils

/-! # `thread_create_test` and the threads it makes -/

/-- What a thread does next, in `t_func`. -/
inductive ThreadPc where
  | stopTimer
  | exit
  | ended
deriving DecidableEq, Repr

structure Thread where
  pc : ThreadPc
  joined : Bool
deriving DecidableEq, Repr

inductive Pc where
  | allocParentDiffs
  | allocChildDiffs
  | startTimer
  | create
  | stopTimer
  | join
  | getDurations
  | allocResult
  | returned
deriving DecidableEq, Repr

structure Locals where
  pc : Pc
  ret : Bool
  /-- Whether `parent_diffs` or `child_diffs` is `NULL`. -/
  missing : Bool
  idx : Nat
  tstart : UInt64
  tParentEnd : UInt64
  /-- Threads are numbered in the order they are created in. -/
  newThrd : Nat
  parentDiffs : List Nat
  childDiffs : List Nat
  collected : Option (List Nat)
  childCollected : Option (List Nat)
deriving DecidableEq, Repr

/-- The threads write to `tChildEnd`, which is a variable of the main thread. -/
structure World where
  main : Locals
  threads : List Thread
  tChildEnd : UInt64
deriving DecidableEq, Repr

/-- What the variables hold that are not initialised is arbitrary. -/
def World.start (newThrd : Nat) (tstart tParentEnd tChildEnd : UInt64) : World where
  main :=
    { pc := .allocParentDiffs
      ret := false
      missing := false
      idx := 0
      tstart
      tParentEnd
      newThrd
      parentDiffs := []
      childDiffs := []
      collected := none
      childCollected := none }
  threads := []
  tChildEnd

/-- What a call of the main thread comes to. -/
inductive Reply where
  | memory (granted : Bool)
  | time (t : UInt64)
  | created
  /-- `pthread_create` has failed, and has left some value in `new_thrd`. -/
  | failed (newThrd : Nat)
  | done
deriving DecidableEq, Repr

inductive Label where
  | main (r : Reply)
  | stamp (thread : Nat) (t : UInt64)
  | exit (thread : Nat)
deriving DecidableEq, Repr

def Locals.cleanup (l : Locals) : Locals := { l with pc := .returned }

def Locals.err (l : Locals) : Locals := { l with ret := true }.cleanup

def Locals.timedLoop (l : Locals) (iterCnt : Nat) : Locals :=
  if l.idx < iterCnt then { l with pc := .startTimer }
  else { l with pc := .allocResult, collected := some l.parentDiffs }

/-- `pthread_join` waits for a thread to end. For a thread that does not exist or has been joined
before its behaviour is undefined; here it may return. -/
def join (threads : List Thread) (newThrd : Nat) : Option (List Thread) :=
  match threads[newThrd]? with
  | some ⟨.ended, false⟩ => some (threads.set newThrd ⟨.ended, true⟩)
  | some ⟨_, false⟩ => none
  | _ => some threads

def mainStep (iterCnt : Nat) (w : World) (r : Reply) : Option World :=
  let l := w.main
  match l.pc, r with
  | .allocParentDiffs, .memory granted =>
      let l := { l with pc := .allocChildDiffs }
      some { w with main := if granted then { l with parentDiffs := initDiffArray iterCnt } else { l with missing := true } }
  | .allocChildDiffs, .memory granted =>
      let l := if granted then { l with childDiffs := initDiffArray iterCnt } else { l with missing := true }
      some { w with main := if l.missing then l.err else { l with idx := 0 }.timedLoop iterCnt }
  | .startTimer, .time t => some { w with main := { l with pc := .create, tstart := t } }
  | .create, .created =>
      some { w with
        main := { l with pc := .stopTimer, newThrd := w.threads.length }
        threads := w.threads ++ [⟨.stopTimer, false⟩] }
  -- the result is in a variable that nothing reads
  | .create, .failed newThrd => some { w with main := { l with pc := .stopTimer, newThrd } }
  | .stopTimer, .time t => some { w with main := { l with pc := .join, tParentEnd := t } }
  | .join, .done =>
      (join w.threads l.newThrd).map fun threads => { w with main := { l with pc := .getDurations }, threads }
  | .getDurations, .done =>
      some { w with
        main := { l with
          parentDiffs := l.parentDiffs.set l.idx (getDuration l.tstart l.tParentEnd)
          childDiffs := l.childDiffs.set l.idx (getDuration l.tstart w.tChildEnd)
          idx := l.idx + 1 }.timedLoop iterCnt }
  | .allocResult, .memory granted =>
      some { w with main := if granted then { l with childCollected := some l.childDiffs }.cleanup else l.err }
  | _, _ => none

/-- A step of the main thread, or of a thread in `t_func`. -/
def step (iterCnt : Nat) (w : World) : Label → Option World
  | .main r => mainStep iterCnt w r
  | .stamp thread t =>
      match w.threads[thread]? with
      | some ⟨.stopTimer, joined⟩ =>
          some { w with threads := w.threads.set thread ⟨.exit, joined⟩, tChildEnd := t }
      | _ => none
  | .exit thread =>
      match w.threads[thread]? with
      | some ⟨.exit, joined⟩ => some { w with threads := w.threads.set thread ⟨.ended, joined⟩ }
      | _ => none

end Oreo.Bench.Threads
