import Oreo.LeBench
import Oreo.Posix.World
import Oreo.Utils.Timer
import Mathlib.Tactic.Simps.Basic

namespace Oreo.Bench.Socket

open Oreo.Posix Oreo.Utils

/-! # What `send_test` and `recv_test` share

Up to the `fork`, and from the label `cleanup` on, the two functions are the same text.
-/

/-- `msg_size`. -/
def msgSize : TestInputSize → Nat
  | .test => 1
  | .small => 1
  | .medium => 4800
  | .large => 96000

inductive Setup where
  | allocDiffs
  | allocBuf
  | pipe1
  | pipe2
  | remove
  | fork
deriving DecidableEq, Repr

inductive Release where
  | close (fd : Fd) (pending : List Fd)
  | remove
  | returned
deriving DecidableEq, Repr

/-- The variables of a test whose calls are numbered by `Pc`. Each branch declares its
own `fd_server`, `fd_connect` or `fd_client`, which hides the outer variable of that
name: the fields below are the inner ones. -/
structure Locals (Pc : Type) where
  pc : Pc
  errno : Errno
  ret : Bool
  fds1 : Fd × Fd
  fds2 : Fd × Fd
  pid : Int
  errored : Bool
  fdServer : Fd
  fdConnect : Fd
  fdClient : Fd
  idx : Nat
  size : Int
  tstart : UInt64
  tend : UInt64
  diffs : List Nat
  /-- The samples handed to `collect_results`. -/
  collected : Option (List Nat)
deriving DecidableEq

variable {Pc : Type}

/-- The locals on entry, with the `errno` left by earlier calls. The parent's branch
initializes `errored`; the child may see any value in it. -/
def Locals.entry (pc : Pc) (errno : Errno) (errored : Bool) : Locals Pc where
  pc
  errno
  ret := false
  fds1 := (none, none)
  fds2 := (none, none)
  pid := 0
  errored
  fdServer := none
  fdConnect := none
  fdClient := none
  idx := 0
  size := 0
  tstart := 0
  tend := 0
  diffs := []
  collected := none

/-- A failed call sets `errno` before the code goes on. -/
@[simps]
def Locals.observe (l : Locals Pc) (r : Reply) : Locals Pc := { l with errno := r.errno l.errno }

/-- `get_duration(diffs[idx], &tstart, &tend)`. -/
def Locals.store (l : Locals Pc) : Locals Pc :=
  { l with diffs := l.diffs.set l.idx (getDuration l.tstart l.tend) }

def Setup.request : Setup → Call
  | .allocDiffs => .allocate
  | .allocBuf => .allocate
  | .pipe1 => .pipe 0
  | .pipe2 => .pipe 1
  | .remove => .remove
  | .fork => .fork

def Release.request : Release → Option Call
  | .close fd _ => some (.close fd)
  | .remove => some .remove
  | .returned => none

/-- The `close` calls that are left, and what follows them. -/
def Locals.closing (release : Release → Pc) (l : Locals Pc) : List Fd → Locals Pc
  | [] => { l with pc := release .remove }
  | fd :: pending => { l with pc := release (.close fd pending) }

/-- The label `cleanup`. Its `fd_client`, `fd_connect` and `fd_server` are the outer
variables, which still hold `-1`. -/
def Locals.cleanup (release : Release → Pc) (l : Locals Pc) : Locals Pc :=
  l.closing release [l.fds1.1, l.fds1.2, l.fds2.1, l.fds2.2, none, none, none]

def Locals.err (release : Release → Pc) (l : Locals Pc) : Locals Pc :=
  { l with ret := true }.cleanup release

def Locals.prepare (setup : Setup → Pc) (release : Release → Pc) (iterCnt : Nat)
    (forked : Locals Pc → Locals Pc) (l : Locals Pc) (r : Reply) : Setup → Locals Pc
  | .allocDiffs =>
      if r.failed then l.err release else { l with pc := setup .allocBuf, diffs := initDiffArray iterCnt }
  | .allocBuf => if r.failed then l.err release else { l with pc := setup .pipe1 }
  | .pipe1 => if r.failed then l.err release else { l with pc := setup .pipe2, fds1 := Fd.ends 0 }
  | .pipe2 => if r.failed then l.err release else { l with pc := setup .remove, fds2 := Fd.ends 1 }
  | .remove => { l with pc := setup .fork }
  | .fork => forked { l with pid := r.child }

def Locals.finish (release : Release → Pc) (l : Locals Pc) : Release → Locals Pc
  | .close _ pending => l.closing release pending
  | .remove => { l with pc := release .returned }
  | .returned => l

end Oreo.Bench.Socket
