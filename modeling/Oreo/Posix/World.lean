import Oreo.Posix.Call
import Oreo.Transition.Run

namespace Oreo.Posix

/-! # Processes and the kernel objects they share

A process is a program that asks for one call at a time and continues with the
reply. The world answers the calls: every interleaving of the processes and every
outcome of their calls is a choice of labels.
-/

/-- A program over local states `L`: the call it makes next (`none` once the function
under test has returned), and how it goes on with a reply. -/
structure Program (L : Type u) where
  request : L → Option Call
  resume : L → Reply → L

/-- A process whose function has returned leaves `main` and exits on its own. -/
inductive Status where
  | running
  | killed
  | reaped
deriving DecidableEq, Repr

def Status.kill : Status → Status
  | .running => .killed
  | s => s

/-- What a process has done so far: the bytes it moved, for each pipe and for the
connection, and its successful calls of `listen`, `connect` and `accept`. -/
structure Tally where
  wrote : Nat → Nat
  took : Nat → Nat
  sent : Nat
  received : Nat
  listens : Nat
  connects : Nat
  accepts : Nat

def Tally.zero : Tally := ⟨fun _ => 0, fun _ => 0, 0, 0, 0, 0, 0⟩

structure Proc (L : Type u) where
  locals : L
  id : Int
  status : Status
  handles : List Handle
  tally : Tally
  priority : Int
  cores : List Nat

structure World (L : Type u) where
  procs : List (Proc L)
  /-- The number of bytes in each pipe. -/
  pipe : Nat → Nat
  listening : Bool
  /-- Connections not accepted yet. -/
  backlog : Nat
  /-- The number of bytes on their way from the client to the server. -/
  queue : Nat
  shared : UInt64
  /-- Whether the processes inherited `SIG_IGN` for `SIGINT`. -/
  sigintIgnored : Bool

/-- What the first process inherits when it is started. -/
structure Machine where
  id : Int
  positive : 0 < id
  priority : Int
  cores : List Nat
  shared : UInt64
  sigintIgnored : Bool

/-- A single process with local state `locals`, and nothing open yet. -/
def World.boot (machine : Machine) (locals : L) : World L where
  procs := [⟨locals, machine.id, .running, [], .zero, machine.priority, machine.cores⟩]
  pipe := fun _ => 0
  listening := false
  backlog := 0
  queue := 0
  shared := machine.shared
  sigintIgnored := machine.sigintIgnored

/-- The reply of the call that process `proc` is making. -/
structure Label where
  proc : Nat
  reply : Reply
deriving DecidableEq, Repr

def pipeCapacity : Nat := 65536

variable {L : Type u}

def bump (counts : Nat → Nat) (index amount : Nat) : Nat → Nat :=
  fun other => if other = index then counts other + amount else counts other

def drain (counts : Nat → Nat) (index amount : Nat) : Nat → Nat :=
  fun other => if other = index then counts other - amount else counts other

/-- Killed, or back from its function. -/
def Proc.finished (prog : Program L) (p : Proc L) : Bool :=
  p.status != .running || (prog.request p.locals).isNone

/-- Descriptors are closed when a process exits. -/
def Proc.holds (prog : Program L) (p : Proc L) (h : Handle) : Bool :=
  !p.finished prog && p.handles.contains h

def World.held (prog : Program L) (w : World L) (h : Handle) : Bool :=
  w.procs.any fun p => p.holds prog h

/-- A child that a `wait` can collect. The tests fork from process 0 only. -/
def World.zombie? (prog : Program L) (w : World L) : Option Nat :=
  (List.range w.procs.length).find? fun index =>
    match w.procs[index]? with
    | some p => decide (0 < index) && p.status != .reaped && p.finished prog
    | none => false

/-- The replies the kernel gives when nothing fails for outside reasons. -/
def World.natural (prog : Program L) (w : World L) (p : Proc L) (call : Call) (r : Reply) : Bool :=
  match call with
  | .allocate | .pipe _ | .setPriority _ | .setAffinity _ | .killSelf | .kill _ => r == .ok
  | .close fd =>
      match fd, r with
      | some h, .ok => p.handles.contains h
      | some h, .fail _ => !p.handles.contains h
      | none, .fail _ => true
      | _, _ => false
  | .remove =>
      match r with
      | .ok | .fail _ => true
      | _ => false
  | .fork =>
      match r with
      | .pid n => decide (0 < n) && w.procs.all fun q => q.id != n
      | _ => false
  | .getPriority => r == .priority p.priority
  | .getAffinity => r == .cores p.cores
  | .clock | .stampShared =>
      match r with
      | .time _ => true
      | _ => false
  | .loadShared => r == .time w.shared
  | .read fd =>
      match fd, r with
      | some (.readEnd pipe), .size n =>
          p.handles.contains (.readEnd pipe) &&
            if 0 < w.pipe pipe then n == 1 else n == 0 && !w.held prog (.writeEnd pipe)
      | some (.readEnd pipe), .fail _ => !p.handles.contains (.readEnd pipe)
      | none, .fail _ => true
      | _, _ => false
  | .write fd =>
      match fd, r with
      | some (.writeEnd pipe), .size n =>
          p.handles.contains (.writeEnd pipe) && n == 1 && decide (w.pipe pipe < pipeCapacity)
      | some (.writeEnd pipe), .fail _ => !p.handles.contains (.writeEnd pipe)
      | none, .fail _ => true
      | _, _ => false
  | .socket role => r == .handle (.socket role)
  | .bind fd | .listen fd => if fd.isSome then r == .ok else r.failed
  | .accept fd =>
      if fd.isSome then r == .handle (.socket .accepted) && decide (0 < w.backlog) else r.failed
  | .connect fd => if fd.isSome && w.listening then r == .ok else r.failed
  | .send fd size =>
      match fd, r with
      | some _, .size n => decide (0 < n) && decide (n ≤ size)
      | some _, .fail e => e == .eagain
      | none, .fail _ => true
      | _, _ => false
  | .recv fd size =>
      match fd, r with
      | some _, .size n =>
          if 0 < w.queue then n == min size w.queue else n == 0 && !w.held prog (.socket .client)
      | some _, .fail e => e == .eagain && w.queue == 0 && w.held prog (.socket .client)
      | none, .fail _ => true
      | _, _ => false
  | .wait => r == .ok && (w.zombie? prog).isSome

/-- A reply the kernel can give at all: a natural one, or a failure. -/
def World.possible (prog : Program L) (w : World L) (p : Proc L) (call : Call) (r : Reply) : Bool :=
  w.natural prog p call r || (call.fallible && r.failed)

def Tally.charge (t : Tally) : Call → Reply → Tally
  | .read (some (.readEnd pipe)), .size n => { t with took := bump t.took pipe n }
  | .write (some (.writeEnd pipe)), .size n => { t with wrote := bump t.wrote pipe n }
  | .listen _, .ok => { t with listens := t.listens + 1 }
  | .connect _, .ok => { t with connects := t.connects + 1 }
  | .accept _, .handle _ => { t with accepts := t.accepts + 1 }
  | .send _ _, .size n => { t with sent := t.sent + n }
  | .recv _ _, .size n => { t with received := t.received + n }
  | _, _ => t

def chargeHandles (handles : List Handle) : Call → Reply → List Handle
  | .pipe id, .ok => .readEnd id :: .writeEnd id :: handles
  | .close (some h), .ok => handles.erase h
  | .socket _, .handle h => h :: handles
  | .accept _, .handle h => h :: handles
  | _, _ => handles

def chargePriority (priority : Int) : Call → Reply → Int
  | .setPriority priority, .ok => priority
  | _, _ => priority

def chargeCores (cores : List Nat) : Call → Reply → List Nat
  | .setAffinity cores, .ok => cores
  | _, _ => cores

def Proc.advance (prog : Program L) (p : Proc L) (call : Call) (r : Reply) : Proc L :=
  { p with
    locals := prog.resume p.locals r
    handles := chargeHandles p.handles call r
    tally := p.tally.charge call r
    priority := chargePriority p.priority call r
    cores := chargeCores p.cores call r }

/-- The process `fork` creates: a copy that sees the reply `0`. -/
def Proc.spawn (prog : Program L) (p : Proc L) (id : Int) : Proc L :=
  { p with locals := prog.resume p.locals (.pid 0), id, status := .running, tally := .zero }

/-- The status of process `q` at `index` after a call of process `actor`: signals end
running processes, `wait` collects the exit status of a child. -/
def World.fate (prog : Program L) (w : World L) (actor index : Nat) (q : Proc L) : Call → Reply → Status
  | .killSelf, .ok => if !w.sigintIgnored && index == actor then q.status.kill else q.status
  | .kill target, .ok =>
      if !w.sigintIgnored && (target == 0 || q.id == target) then q.status.kill else q.status
  | .wait, .ok => if w.zombie? prog = some index then .reaped else q.status
  | _, _ => q.status

def World.signalled (prog : Program L) (w : World L) (actor : Nat) (call : Call) (r : Reply) : List (Proc L) :=
  w.procs.mapIdx fun index q => { q with status := w.fate prog actor index q call r }

def Proc.offspring (prog : Program L) (p : Proc L) : Call → Reply → List (Proc L)
  | .fork, .pid n => [p.spawn prog n]
  | _, _ => []

/-- What a call changes in the objects the processes share. -/
def World.account (w : World L) : Call → Reply → World L
  | .read (some (.readEnd pipe)), .size n => { w with pipe := drain w.pipe pipe n }
  | .write (some (.writeEnd pipe)), .size n => { w with pipe := bump w.pipe pipe n }
  | .listen _, .ok => { w with listening := true }
  | .accept _, .handle _ => { w with backlog := w.backlog - 1 }
  | .connect _, .ok => { w with backlog := w.backlog + 1 }
  | .send _ _, .size n => { w with queue := w.queue + n }
  | .recv _ _, .size n => { w with queue := w.queue - n }
  | .stampShared, .time t => { w with shared := t }
  | _, _ => w

/-- Process `p` at `index` receives the reply `r` to `call`. -/
def World.answer (prog : Program L) (w : World L) (index : Nat) (p : Proc L) (call : Call) (r : Reply) :
    World L :=
  { w.account call r with
    procs := (w.signalled prog index call r).modify index (fun q => q.advance prog call r) ++
      p.offspring prog call r }

/-- One step: a running process gets a reply to its call. `none` if there is no such
process or the kernel does not give that reply, as when the call blocks. -/
def step (prog : Program L) (w : World L) (label : Label) : Option (World L) :=
  match w.procs[label.proc]? with
  | none => none
  | some p =>
      if p.status = .running then
        match prog.request p.locals with
        | none => none
        | some call =>
            if w.possible prog p call label.reply then
              some (w.answer prog label.proc p call label.reply)
            else none
      else none

end Oreo.Posix
