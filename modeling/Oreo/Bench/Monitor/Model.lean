import Oreo.LeBench
import Oreo.Posix.Host
import Oreo.Utils.Timer

namespace Oreo.Bench

open Oreo.Posix Oreo.Posix.Action Oreo.Transition.Effect Oreo.Utils

/-! # The tests that wait for sockets: `select_test`, `poll_test` and `epoll_test`

What a call of the kernel returns is an outcome. The sockets are only numbers here.
-/

def fdCount : TestInputSize → Nat
  | .test => 1
  | .small => 10
  | .medium => 100
  | .large => 1000

/-- What the three tests do once their memory is there: they open the sockets, measure, and hand
over the samples. The results are `ret` and the variables at the label `cleanup`. -/
def measure {L : Type} (openSocket timed : Nat → L → Action (Bool × L)) (diffs : L → Pointer Nat) (fdCount iterCnt : Nat)
    (l : L) : Action (Bool × L) := do
  let (opened, l) ← loop openSocket fdCount 0 l
  if !opened then pure (true, l)
  else
    let (measured, l) ← loop timed iterCnt 0 l
    if !measured then pure (true, l)
    else
      collectResults (diffs l)
      pure (false, l)

namespace Select

structure Outcomes where
  /-- Whether `malloc` and `init_diff_array` return memory. -/
  fds : Bool
  diffs : Bool
  /-- What is in `max_fd`, which is not initialized. -/
  maxFd : Int32
  socket : Nat → Int32
  /-- The descriptors that `select` finds ready, `none` if it fails. -/
  ready : Nat → Option (Int32 → Bool)
  tstart : Nat → UInt64
  tend : Nat → UInt64

structure Locals where
  fds : Pointer Int32
  diffs : Pointer Nat
  maxFd : Int32
  /-- The members of the `fd_set`. -/
  monitored : List Int32

def openSocket (o : Outcomes) (idx : Nat) (l : Locals) : Action (Bool × Locals) := do
  let fd := o.socket idx
  if 0 ≤ fd then
    modify (Host.record (.fdSet fd))
    let fds ← store l.fds idx fd
    pure (true, { l with monitored := l.monitored ++ [fd], fds, maxFd := if l.maxFd < fd then fd else l.maxFd })
  else pure (false, l)

def timedSelect (o : Outcomes) (idy : Nat) (l : Locals) : Action (Bool × Locals) := do
  modify (Host.record (.select (l.maxFd + 1) l.monitored))
  match o.ready idy with
  | some ready => do
      let diffs ← store l.diffs idy (getDuration (o.tstart idy) (o.tend idy))
      pure (true, { l with monitored := l.monitored.filter ready, diffs })
  | none => pure (false, l)

def body (o : Outcomes) (fdCount iterCnt : Nat) (l : Locals) : Action (Bool × Locals) := do
  if l.diffs.isNone then pure (true, l)
  else measure (openSocket o) (timedSelect o) Locals.diffs fdCount iterCnt l

def run (o : Outcomes) (fdCount iterCnt : Nat) : Action Bool := do
  let fds ← allocate o.fds (List.replicate fdCount 0)
  if fds.isNone then pure true
  else
    let fds ← memset fds (-1)
    let diffs ← allocate o.diffs (initDiffArray iterCnt)
    let (ret, l) ← body o fdCount iterCnt ⟨fds, diffs, o.maxFd, []⟩
    closeAll l.fds
    pure ret

def selectTest (config : BenchConfig) (o : Outcomes) : Action Bool := run o (fdCount config.iSize) config.iter

end Select

/-- A `struct pollfd`, or the `struct epoll_event` of a descriptor. -/
structure Interest where
  fd : Int32
  events : UInt32
deriving DecidableEq, Repr

/-- `POLLIN` and `EPOLLIN`. -/
def pollin : UInt32 := 1

namespace Poll

structure Outcomes where
  fds : Bool
  pfds : Bool
  diffs : Bool
  socket : Nat → Int32
  poll : Nat → Int32
  tstart : Nat → UInt64
  tend : Nat → UInt64

structure Locals where
  fds : Pointer Int32
  pfds : Pointer Interest
  diffs : Pointer Nat

def openSocket (o : Outcomes) (i : Nat) (l : Locals) : Action (Bool × Locals) := do
  let fd := o.socket i
  if fd < 0 then pure (false, l)
  else
    let pfds ← store l.pfds i ⟨fd, pollin⟩
    let fds ← store l.fds i fd
    pure (true, { l with pfds, fds })

/-- The number that `poll` returns becomes a `size_t`. -/
def timedPoll (o : Outcomes) (fdCount idy : Nat) (l : Locals) : Action (Bool × Locals) := do
  if (o.poll idy).toInt ≠ fdCount then pure (false, l)
  else
    let diffs ← store l.diffs idy (getDuration (o.tstart idy) (o.tend idy))
    pure (true, { l with diffs })

def body (o : Outcomes) (fdCount iterCnt : Nat) (l : Locals) : Action (Bool × Locals) := do
  if l.pfds.isNone || l.diffs.isNone then pure (true, l)
  else measure (openSocket o) (timedPoll o fdCount) Locals.diffs fdCount iterCnt l

def run (o : Outcomes) (fdCount iterCnt : Nat) : Action Bool := do
  let fds ← allocate o.fds (List.replicate fdCount 0)
  if fds.isNone then pure true
  else
    let fds ← memset fds (-1)
    let pfds ← allocate o.pfds (List.replicate fdCount ⟨0, 0⟩)
    let diffs ← allocate o.diffs (initDiffArray iterCnt)
    let (ret, l) ← body o fdCount iterCnt ⟨fds, pfds, diffs⟩
    closeAll l.fds
    pure ret

def pollTest (config : BenchConfig) (o : Outcomes) : Action Bool := run o (fdCount config.iSize) config.iter

end Poll

namespace Epoll

structure Outcomes where
  fds : Bool
  /-- What `epoll_create` returns. -/
  epfd : Int32
  events : Bool
  diffs : Bool
  socket : Nat → Int32
  /-- What `epoll_ctl` returns. -/
  ctl : Nat → Int32
  wait : Nat → Int32
  tstart : Nat → UInt64
  tend : Nat → UInt64

/-- The kernel fills in `events`, and the test does not look at it. -/
structure Locals where
  fds : Pointer Int32
  events : Pointer Interest
  diffs : Pointer Nat

def openSocket (o : Outcomes) (i : Nat) (l : Locals) : Action (Bool × Locals) := do
  let fd := o.socket i
  if fd < 0 then pure (false, l)
  else
    let fds ← store l.fds i fd
    if o.ctl i ≠ 0 then pure (false, { l with fds }) else pure (true, { l with fds })

def timedWait (o : Outcomes) (fdCount idy : Nat) (l : Locals) : Action (Bool × Locals) := do
  if (o.wait idy).toInt ≠ fdCount then pure (false, l)
  else
    let diffs ← store l.diffs idy (getDuration (o.tstart idy) (o.tend idy))
    pure (true, { l with diffs })

def body (o : Outcomes) (fdCount iterCnt : Nat) (l : Locals) : Action (Bool × Locals) := do
  if o.epfd < 0 then pure (true, l)
  else
    let events ← allocate o.events (List.replicate fdCount ⟨0, 0⟩)
    let diffs ← allocate o.diffs (initDiffArray iterCnt)
    if diffs.isNone || events.isNone then pure (true, { l with events, diffs })
    else measure (openSocket o) (timedWait o fdCount) Locals.diffs fdCount iterCnt { l with events, diffs }

def run (o : Outcomes) (fdCount iterCnt : Nat) : Action Bool := do
  let fds ← allocate o.fds (List.replicate fdCount 0)
  if fds.isNone then pure true
  else
    let fds ← memset fds (-1)
    let (ret, l) ← body o fdCount iterCnt ⟨fds, none, none⟩
    closeAll l.fds
    modify (Host.record (.close o.epfd))
    pure ret

def epollTest (config : BenchConfig) (o : Outcomes) : Action Bool := run o (fdCount config.iSize) config.iter

end Epoll

end Oreo.Bench
