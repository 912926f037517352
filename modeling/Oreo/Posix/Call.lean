namespace Oreo.Posix

/-! # System calls of processes that share pipes and one stream socket -/

inductive Errno where
  | eagain
  | other (code : Nat)
deriving DecidableEq, Repr

inductive Role where
  | listening
  | accepted
  | client
deriving DecidableEq, Repr

/-- An open file description; a descriptor and the copy a child inherits refer to
the same one. -/
inductive Handle where
  | readEnd (pipe : Nat)
  | writeEnd (pipe : Nat)
  | socket (role : Role)
deriving DecidableEq, Repr

/-- The contents of a descriptor variable, `none` being `-1`. -/
abbrev Fd := Option Handle

/-- The array that `pipe` fills in. -/
def Fd.ends (pipe : Nat) : Fd × Fd := (some (.readEnd pipe), some (.writeEnd pipe))

/-- The comparison `fd < bound`. Descriptors are never negative, so only `-1` can be
below a bound that is zero or less. -/
def Fd.below (fd : Fd) (bound : Int) : Bool :=
  match fd with
  | none => decide (-1 < bound)
  | some _ => false

/-- A call a process makes, with the arguments its outcome depends on. -/
inductive Call where
  /-- `malloc`, `calloc` and `mmap`. -/
  | allocate
  | pipe (id : Nat)
  | close (fd : Fd)
  | remove
  | fork
  | getPriority
  | getAffinity
  | setPriority (priority : Int)
  | setAffinity (cores : List Nat)
  | clock
  /-- Reading the timer into a page shared between the processes. -/
  | stampShared
  | loadShared
  /-- `read` and `write` of one byte. -/
  | read (fd : Fd)
  | write (fd : Fd)
  | socket (role : Role)
  | bind (fd : Fd)
  | listen (fd : Fd)
  | accept (fd : Fd)
  | connect (fd : Fd)
  /-- `send` and `recv` with `MSG_DONTWAIT`. -/
  | send (fd : Fd) (size : Nat)
  | recv (fd : Fd) (size : Nat)
  /-- `kill(getpid(), SIGINT)`. -/
  | killSelf
  | kill (pid : Int)
  | wait
deriving DecidableEq, Repr

inductive Reply where
  | ok
  /-- `-1` (or `NULL`, or `MAP_FAILED`) with the value `errno` is set to. -/
  | fail (errno : Errno)
  | size (n : Nat)
  | pid (n : Int)
  | handle (h : Handle)
  | time (t : UInt64)
  | priority (n : Int)
  | cores (set : List Nat)
deriving DecidableEq, Repr

def Reply.failed : Reply → Bool
  | .fail _ => true
  | _ => false

def Reply.fd : Reply → Fd
  | .handle h => some h
  | _ => none

def Reply.count : Reply → Int
  | .size n => n
  | _ => -1

def Reply.stamp : Reply → UInt64
  | .time t => t
  | _ => 0

def Reply.child : Reply → Int
  | .pid n => n
  | _ => -1

def Reply.prio : Reply → Int
  | .priority n => n
  | _ => -1

def Reply.cpuset (before : List Nat) : Reply → List Nat
  | .cores set => set
  | _ => before

/-- `errno` after a call: a successful call leaves it unchanged. -/
def Reply.errno (before : Errno) : Reply → Errno
  | .fail e => e
  | _ => before

@[simp] theorem Reply.failed_fail (e : Errno) : (Reply.fail e).failed = true := rfl
@[simp] theorem Reply.failed_ok : Reply.ok.failed = false := rfl
@[simp] theorem Reply.fd_handle (h : Handle) : (Reply.handle h).fd = some h := rfl
@[simp] theorem Reply.fd_fail (e : Errno) : (Reply.fail e).fd = none := rfl
@[simp] theorem Reply.count_size (n : Nat) : (Reply.size n).count = n := rfl
@[simp] theorem Reply.count_fail (e : Errno) : (Reply.fail e).count = -1 := rfl
@[simp] theorem Reply.child_pid (n : Int) : (Reply.pid n).child = n := rfl
@[simp] theorem Reply.child_fail (e : Errno) : (Reply.fail e).child = -1 := rfl
@[simp] theorem Fd.ends_fst (pipe : Nat) : (Fd.ends pipe).1 = some (.readEnd pipe) := rfl
@[simp] theorem Fd.ends_snd (pipe : Nat) : (Fd.ends pipe).2 = some (.writeEnd pipe) := rfl
@[simp] theorem Fd.below_some (h : Handle) (bound : Int) : Fd.below (some h) bound = false := rfl
@[simp] theorem Fd.below_none (bound : Int) : Fd.below none bound = decide (-1 < bound) := rfl

/-- Calls that can fail for reasons outside the processes. Timer reads and memory
accesses are not system calls. -/
def Call.fallible : Call → Bool
  | .clock | .stampShared | .loadShared => false
  | _ => true

def Call.signals : Call → Bool
  | .killSelf | .kill _ | .wait => true
  | _ => false

end Oreo.Posix
