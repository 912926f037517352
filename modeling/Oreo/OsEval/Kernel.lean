import Oreo.OsEval.Sessions
import Oreo.Transition.Run

namespace Oreo.OsEval

open Oreo.Posix (Status bump drain pipeCapacity)
open Oreo.Transition

/-! # Descriptors, pipes and sockets of a session

`World` lets every call but `wait` return at any time, and leaves open what the calls on
descriptors return. Here they return what the kernel has them return, and a call that waits returns
when it can. Descriptors and processes do not run out and `SIGINT` is not ignored, so `pipe`,
`fork`, `socket` and `kill` succeed.
-/

inductive Resource where
  | readEnd (pipe : Nat)
  | writeEnd (pipe : Nat)
  | socket (index : Nat)
  /-- What the program has open before: the terminal and the file with the results. -/
  | file
deriving DecidableEq, Repr

inductive SocketState where
  | fresh
  | bound
  /-- `backlog` connections have not been accepted yet. -/
  | listening (backlog : Nat)
  | connected
deriving DecidableEq, Repr

/-- The descriptors of a process. -/
structure Table where
  entries : List (Int × Resource)
deriving DecidableEq, Repr

namespace Table

variable (t : Table)

def find (fd : Int) : Option Resource := t.entries.lookup fd

def install (fd : Int) (h : Resource) : Table := ⟨(fd, h) :: t.entries⟩

def close (fd : Int) : Table := ⟨t.entries.filter fun entry => entry.1 != fd⟩

def free (fd : Int) : Bool := decide (0 ≤ fd) && (t.find fd).isNone

def holds (h : Resource) : Bool := t.entries.any fun entry => t.find entry.1 == some h

section Lemmas

variable {t} {fd fd' : Int} {h : Resource}

@[simp] theorem find_install : (t.install fd h).find fd' = if fd' = fd then some h else t.find fd' := by
  simp only [find, install, List.lookup_cons]
  split <;> simp_all

@[simp] theorem find_close : (t.close fd).find fd' = if fd' = fd then none else t.find fd' := by
  obtain ⟨entries⟩ := t
  induction entries with
  | nil => simp [find, close]
  | cons entry entries ih =>
      simp only [find, close] at ih ⊢
      by_cases same : entry.1 = fd
      · rw [List.filter_cons_of_neg (by simpa using same), ih, List.lookup_cons, same]
        by_cases here : fd' = fd <;> simp [here, beq_false_of_ne]
      · rw [List.filter_cons_of_pos (by simpa using same), List.lookup_cons, ih, List.lookup_cons]
        split <;> simp_all

theorem of_close (found : (t.close fd).find fd' = some h) : t.find fd' = some h := by
  rw [find_close] at found
  split at found
  · contradiction
  · exact found

theorem free_iff : t.free fd = true ↔ 0 ≤ fd ∧ t.find fd = none := by simp [free]

theorem holds_iff : t.holds h = true ↔ ∃ fd, t.find fd = some h := by
  simp only [holds, List.any_eq_true, beq_iff_eq]
  constructor
  · rintro ⟨entry, -, found⟩
    exact ⟨entry.1, found⟩
  · rintro ⟨fd, found⟩
    obtain ⟨front, back, split, -⟩ := List.lookup_eq_some_iff.mp found
    exact ⟨(fd, h), by rw [split]; simp, found⟩

theorem exists_free (t : Table) : ∃ fd, t.free fd = true := by
  have above : ∃ fd : Int, 0 ≤ fd ∧ ∀ entry ∈ t.entries, entry.1 < fd := by
    obtain ⟨entries⟩ := t
    induction entries with
    | nil => exact ⟨0, Int.le_refl _, by simp⟩
    | cons entry entries ih =>
        obtain ⟨fd, nonneg, above⟩ := ih
        refine ⟨max fd (entry.1 + 1), by omega, fun other member => ?_⟩
        rcases List.mem_cons.mp member with rfl | member
        · omega
        · have below := above other member
          omega
  obtain ⟨fd, nonneg, above⟩ := above
  refine ⟨fd, free_iff.mpr ⟨nonneg, List.lookup_eq_none_iff.mpr fun entry member => ?_⟩⟩
  have below := above entry member
  exact bne_iff_ne.mpr (Int.ne_of_gt below)

end Lemmas

end Table

/-- What processes share through their descriptors. -/
structure Objects where
  /-- The number of bytes in each pipe. -/
  pipes : Nat → Nat
  pipeCount : Nat
  sockets : Nat → SocketState
  socketCount : Nat
  /-- The sockets that have been bound to paths, the last one first. -/
  names : List (String × Nat)

namespace Objects

variable (o : Objects)

def set (s : Nat) (state : SocketState) : Objects :=
  { o with sockets := fun other => if other = s then state else o.sockets other }

def create (state : SocketState) : Objects := { o.set o.socketCount state with socketCount := o.socketCount + 1 }

section Lemmas

variable (s other : Nat) (state : SocketState)

@[simp, grind =] theorem sockets_set : (o.set s state).sockets other = if other = s then state else o.sockets other := rfl
@[simp, grind =] theorem names_set : (o.set s state).names = o.names := rfl
@[simp, grind =] theorem socketCount_set : (o.set s state).socketCount = o.socketCount := rfl
@[simp, grind =] theorem sockets_create :
    (o.create state).sockets other = if other = o.socketCount then state else o.sockets other := rfl
@[simp, grind =] theorem names_create : (o.create state).names = o.names := rfl
@[simp, grind =] theorem socketCount_create : (o.create state).socketCount = o.socketCount + 1 := rfl

end Lemmas

def backlog (s : Nat) : Nat :=
  match o.sockets s with
  | .listening backlog => backlog
  | _ => 0

/-- What a call changes, made by a process with descriptors `t`. -/
def answer (t : Table) (r : Reply) : Call → Objects
  | .pipe => { o with pipes := fun pipe => if pipe = o.pipeCount then 0 else o.pipes pipe, pipeCount := o.pipeCount + 1 }
  | .write fd =>
      match t.find fd with
      | some (.writeEnd pipe) => { o with pipes := bump o.pipes pipe r.value.toNat }
      | _ => o
  | .read fd =>
      match t.find fd with
      | some (.readEnd pipe) => { o with pipes := drain o.pipes pipe r.value.toNat }
      | _ => o
  | .socket => o.create .fresh
  | .bind fd path =>
      match t.find fd with
      | some (.socket s) => if r.value = 0 then { o.set s .bound with names := (path, s) :: o.names } else o
      | _ => o
  | .listen fd =>
      match t.find fd with
      | some (.socket s) => if r.value = 0 then o.set s (.listening (o.backlog s)) else o
      | _ => o
  | .accept fd =>
      match t.find fd with
      | some (.socket s) => if 0 ≤ r.value then (o.set s (.listening (o.backlog s - 1))).create .connected else o
      | _ => o
  | .connect fd path =>
      match t.find fd, o.names.lookup path with
      | some (.socket s), some peer =>
          if r.value = 0 then (o.set peer (.listening (o.backlog peer + 1))).set s .connected else o
      | _, _ => o
  | _ => o

end Objects

def Table.answer (t : Table) (o : Objects) (r : Reply) : Call → Table
  | .pipe => (t.install r.ends.1 (.readEnd o.pipeCount)).install r.ends.2 (.writeEnd o.pipeCount)
  | .close fd => t.close fd
  | .socket => t.install r.value (.socket o.socketCount)
  | .accept _ => if 0 ≤ r.value then t.install r.value (.socket o.socketCount) else t
  | _ => t

structure Kernel where
  world : World
  /-- The descriptors of each process. -/
  tables : List Table
  objects : Objects

namespace Kernel

/-- The second argument of `listen`. -/
def maxBacklog : Nat := 10

def start (sequence : List Invocation) (paths : List String) (files : List Nat) : Kernel where
  world := .start sequence paths
  tables := [⟨files.map fun (fd : Nat) => ((fd : Int), .file)⟩]
  objects := ⟨fun _ => 0, 0, fun _ => .fresh, 0, []⟩

variable (k : Kernel)

def table (index : Nat) : Table := k.tables[index]?.getD ⟨[]⟩

/-- A process that has ended has no descriptors any more. -/
def held (h : Resource) : Bool :=
  (List.range k.tables.length).any fun index => (k.world.request index).isSome && (k.table index).holds h

def state? (index : Nat) (fd : Int) : Option SocketState :=
  match (k.table index).find fd with
  | some (.socket s) => some (k.objects.sockets s)
  | _ => none

/-- The backlog of the socket that listens at `path`, if one does. -/
def backlog? (path : String) : Option Nat :=
  if path ∈ k.world.paths then
    match k.objects.names.lookup path with
    | some s =>
        match k.objects.sockets s with
        | .listening backlog => if k.held (.socket s) then some backlog else none
        | _ => none
    | none => none
  else none

/-- Whether `wait` has a child to wait for. -/
def childless (index : Nat) : Bool := k.world.procs.all fun p => p.parent != some index || p.status == .reaped

/-- What the calls return. A `write` to a pipe that nobody can read from kills the process; it has
no reply here. Transfers on a connection return without waiting, and how much they transfer is open. -/
def permits (index : Nat) (c : Call) (r : Reply) : Bool :=
  let t := k.table index
  match c with
  | .pipe => r.value == 0 && t.free r.ends.1 && t.free r.ends.2 && r.ends.1 != r.ends.2
  | .fork => decide (0 < r.value)
  | .close fd => r.value == if (t.find fd).isSome then 0 else -1
  | .socket => t.free r.value
  | .bind fd _ => r.value == -1 || k.state? index fd == some .fresh
  | .listen fd =>
      match k.state? index fd with
      | some .bound | some (.listening _) => r.value == 0
      | _ => r.value == -1
  | .accept fd =>
      match k.state? index fd with
      | some (.listening 0) => false
      | some (.listening (_ + 1)) => t.free r.value
      | _ => r.value == -1
  | .connect fd path =>
      match k.state? index fd, k.backlog? path with
      | some .fresh, some backlog | some .bound, some backlog => r.value == 0 && decide (backlog ≤ maxBacklog)
      | _, _ => r.value == -1
  | .write fd =>
      match t.find fd with
      | some (.writeEnd pipe) => r.value == 1 && k.held (.readEnd pipe) && decide (k.objects.pipes pipe < pipeCapacity)
      | some (.readEnd _) | none => r.value == -1
      | _ => true
  | .read fd =>
      match t.find fd with
      | some (.readEnd pipe) =>
          if 0 < k.objects.pipes pipe then r.value == 1 else r.value == 0 && !k.held (.writeEnd pipe)
      | some (.writeEnd _) | none => r.value == -1
      | _ => true
  | .send fd size | .recv fd size =>
      r.value == -1 || k.state? index fd == some .connected && decide (0 ≤ r.value) && decide (r.value ≤ size)
  | .clockGettime | .killSelf => r.value == 0
  | .remove _ => true
  | .outside _ => false
  | .wait => if (k.world.zombie? index).isSome then decide (0 < r.value) else r.value == -1 && k.childless index

def answer (index : Nat) (c : Call) (r : Reply) (w : World) : Kernel where
  world := w
  tables := k.tables.set index ((k.table index).answer k.objects r c) ++ if c = .fork then [k.table index] else []
  objects := k.objects.answer (k.table index) r c

/-- A step of the world, with a reply that the kernel permits. -/
def step (k : Kernel) (label : Label) : Option Kernel :=
  match k.world.request label.proc with
  | none => none
  | some (c, _) =>
      if k.permits label.proc c label.reply then
        (OsEval.step k.world label).map (k.answer label.proc c label.reply)
      else none

section Lemmas

variable {k} {index : Nat} {h : Resource}

theorem held_iff : k.held h = true ↔
    ∃ index < k.tables.length, (k.world.request index).isSome = true ∧ ∃ fd, (k.table index).find fd = some h := by
  simp [held, Table.holds_iff]

theorem step_eq_some {next : Kernel} {label : Label} :
    k.step label = some next ↔ ∃ c after, k.world.request label.proc = some (c, after) ∧
      k.permits label.proc c label.reply = true ∧ k.world.possible label.proc c label.reply.value = true ∧
        next = k.answer label.proc c label.reply (k.world.answer label.proc c after label.reply) := by
  unfold step
  cases asked : k.world.request label.proc with
  | none => simp
  | some request =>
      obtain ⟨c, after⟩ := request
      simp only [Option.ite_none_right_eq_some, Option.map_eq_some_iff, OsEval.step_eq_some, asked, Option.some.injEq,
        Prod.mk.injEq]
      constructor
      · rintro ⟨permitted, w, ⟨c', after', ⟨rfl, rfl⟩, possible, rfl⟩, rfl⟩
        exact ⟨c, after, ⟨rfl, rfl⟩, permitted, possible, rfl⟩
      · rintro ⟨c', after', ⟨rfl, rfl⟩, permitted, possible, rfl⟩
        exact ⟨permitted, _, ⟨c, after, ⟨rfl, rfl⟩, possible, rfl⟩, rfl⟩

theorem world_step {next : Kernel} {label : Label} (stepped : k.step label = some next) :
    OsEval.step k.world label = some next.world := by
  obtain ⟨c, after, asked, -, possible, rfl⟩ := step_eq_some.mp stepped
  exact OsEval.step_eq_some.mpr ⟨c, after, asked, possible, rfl⟩

/-- What the processes do here they can do where the kernel answers as it likes. -/
theorem world_run {next : Kernel} {trace : List (Kernel × Label)} {allowed : Kernel → Label → Prop}
    (run : Run Kernel.step allowed k trace next) :
    Run OsEval.step (fun _ _ => True) k.world (trace.map fun event => (event.1.world, event.2)) next.world := by
  induction run with
  | nil => exact .nil
  | snoc _ _ stepped ih =>
      rw [List.map_append]
      exact ih.snoc trivial (world_step stepped)

end Lemmas

end Kernel

end Oreo.OsEval
