import Oreo.OsEval.SocketTests
import Oreo.Posix.World

namespace Oreo.OsEval

open Oreo.Posix (Status)
open Oreo.Transition Interaction

/-! # One invocation of a socket test after the other

The processes and the paths of the file system, under every interleaving. `bind` fails exactly
when its path exists, and `remove` exactly when its path does not. Calls that block are answered at
any time, `wait` apart, so there are more runs here than the kernel has.
-/

/-- A call of `send_test` or `recv_test`. Each has its own variables here, so those that one call
hands on to the next in the loop of `one_line_test_v2` are among them. -/
structure Invocation where
  job : Job
  vars : Vars
  /-- `one_line_test_v2` passes the number of runs on that it has made the array for. -/
  fits : job.runs ≤ vars.timeArray.length

def invokeAll : List Invocation → Code Unit
  | [] => return
  | invocation :: sequence => do
      let _ ← socketTest invocation.job invocation.vars
      invokeAll sequence

structure Proc where
  code : Code Unit
  /-- The index of the process that forked this one. -/
  parent : Option Nat
  status : Status

structure World where
  procs : List Proc
  /-- The paths that exist. -/
  paths : List String

structure Label where
  proc : Nat
  reply : Reply
deriving DecidableEq, Repr

def World.start (sequence : List Invocation) (paths : List String) : World :=
  ⟨[⟨invokeAll sequence, none, .running⟩], paths⟩

/-- The call that a process is in, and how it goes on with the reply. -/
def Proc.request (p : Proc) : Option (Call × (Reply → Code Unit)) :=
  match p.status, p.code with
  | .running, .call c k => some (c, k)
  | _, _ => none

def World.request (w : World) (index : Nat) : Option (Call × (Reply → Code Unit)) :=
  w.procs[index]?.bind Proc.request

/-- Every process has been killed or has returned from its last invocation. -/
def World.Ended (w : World) : Prop := ∀ p ∈ w.procs, p.request = none

/-- A child of process `index` that a `wait` can collect. -/
def World.zombie? (w : World) (index : Nat) : Option Nat :=
  w.procs.findIdx? fun p => p.parent == some index && p.status != .reaped && p.request.isNone

def World.possible (w : World) (index : Nat) (c : Call) (value : Int) : Bool :=
  match c with
  | .bind _ path => value == if path ∈ w.paths then -1 else 0
  | .remove path => value == if path ∈ w.paths then 0 else -1
  | .fork => value != 0
  | .killSelf => decide (value ≤ 0)
  | .wait => decide (value < 0) || (w.zombie? index).isSome
  | .outside _ => false
  | _ => true

def World.linked (w : World) (c : Call) (value : Int) : List String :=
  match c with
  | .bind _ path => if value = 0 then path :: w.paths else w.paths
  | .remove path => if value = 0 then w.paths.filter (· != path) else w.paths
  | _ => w.paths

def Proc.resume (p : Proc) (c : Call) (k : Reply → Code Unit) (reply : Reply) : Proc :=
  { p with
    code := k reply
    status := if c = .killSelf ∧ reply.value = 0 then .killed else p.status }

/-- The process that `fork` makes is a copy that sees the value `0`. -/
def Proc.spawn (k : Reply → Code Unit) (reply : Reply) (parent : Nat) : Proc :=
  ⟨k { reply with value := 0 }, some parent, .running⟩

def World.collect (w : World) (index : Nat) : List Proc :=
  match w.zombie? index with
  | some child => w.procs.modify child fun p => { p with status := .reaped }
  | none => w.procs

def World.answer (w : World) (index : Nat) (c : Call) (k : Reply → Code Unit) (reply : Reply) : World where
  procs :=
    let procs := if c = .wait ∧ 0 ≤ reply.value then w.collect index else w.procs
    procs.modify index (fun p => p.resume c k reply) ++
      if c = .fork ∧ 0 < reply.value then [Proc.spawn k reply index] else []
  paths := w.linked c reply.value

def step (w : World) (label : Label) : Option World :=
  match w.request label.proc with
  | none => none
  | some (c, k) =>
      if w.possible label.proc c label.reply.value then some (w.answer label.proc c k label.reply)
      else none

/-- The calls that may be required to succeed: all but `bind` and `remove`. -/
def Call.other : Call → Bool
  | .bind _ _ | .remove _ => false
  | _ => true

def OthersSucceed (w : World) (label : Label) : Prop :=
  ∀ c k, w.request label.proc = some (c, k) → c.other = true → 0 ≤ label.reply.value

/-- What a call adds to the results of `bind`. -/
def Call.bindReply (c : Call) (value : Int) : List Int :=
  match c with
  | .bind _ _ => [value]
  | _ => []

/-- The values that the calls of `bind` in a run have returned. -/
def bindReplies (trace : List (World × Label)) : List Int :=
  trace.flatMap fun (w, label) =>
    match w.request label.proc with
    | some (c, _) => c.bindReply label.reply.value
    | none => []

/-! ## How often a process binds -/

/-- As long as the calls other than `bind` and `remove` succeed, the process and the ones it forks
make `due` calls of `bind`, all of the path of the server, which they never remove. -/
def Binds : Code Unit → Nat → Prop
  | .ret _, due => due = 0
  | .call c k, due =>
      match c with
      | .bind _ path => path = serverPath ∧ ∃ later, due = later + 1 ∧ ∀ r, Binds (k r) later
      | .remove path => path ≠ serverPath ∧ ∀ r, Binds (k r) due
      | .fork => ∃ forked own, due = forked + own ∧
          (∀ r, r.value = 0 → Binds (k r) forked) ∧ ∀ r, 0 < r.value → Binds (k r) own
      | .killSelf => due = 0
      | _ => ∀ r, Binds (k r) due

theorem Binds.quiet {α : Type} {p : Code α} {f : α → Code Unit} {due : Nat} (quiet : Calls Quiet p)
    (rest : ∀ a, Binds (f a) due) : Binds (p >>= f) due := by
  induction p with
  | ret a => exact rest a
  | call c k ih =>
      have after : ∀ r, Binds (k r >>= f) due := fun r => ih r (quiet.2 r)
      cases c <;> first | exact after | exact quiet.1.elim

section Tests

variable {fds1 fds2 : Int × Int} {job : Job} {vars : Vars} {due : Nat}

theorem Binds.bind {fd : Int} {f : Int → Code Unit} (rest : ∀ bound, Binds (f bound) due) :
    Binds (call (.bind fd serverPath) >>= f) (due + 1) :=
  ⟨rfl, due, rfl, fun r => rest r.value⟩

theorem Binds.remove {f : Int → Code Unit} (rest : ∀ removed, Binds (f removed) due) :
    Binds (call (.remove sock) >>= f) due :=
  ⟨by decide, fun r => rest r.value⟩

theorem Binds.wait {f : Int → Code Unit} (rest : ∀ waited, Binds (f waited) due) : Binds (call .wait >>= f) due :=
  fun r => rest r.value

/-- Nothing that comes after the signal matters. -/
theorem Binds.killSelf {f : Int → Code Unit} : Binds (call .killSelf >>= f) 0 := rfl

theorem Binds.fork {f : Int → Code Unit} {forked own : Nat} (child : Binds (f 0) forked)
    (parent : ∀ id, 0 < id → Binds (f id) own) : Binds (call .fork >>= f) (forked + own) := by
  refine ⟨forked, own, rfl, fun r inChild => ?_, fun r inParent => parent r.value inParent⟩
  change Binds (f r.value) forked
  rwa [inChild]

theorem Binds.serve {f : Int × Int → Code Unit} (rest : ∀ fds, Binds (f fds) due) :
    Binds (OsEval.serve fds1 fds2 >>= f) (due + 1) := by
  simp only [OsEval.serve, bind_assoc]
  refine .quiet (quiet_closeAll _) fun _ => .quiet (calls_call trivial) fun fdServer => .bind fun _ => ?_
  refine .quiet (calls_call trivial) fun _ => .quiet (calls_call trivial) fun _ => ?_
  exact .quiet (calls_call trivial) fun fdConnect => .quiet (calls_call trivial) fun _ => rest _

def SocketTest.parentBinds : SocketTest → Nat
  | .send => 0
  | .recv => 1

def SocketTest.childBinds : SocketTest → Nat
  | .send => 1
  | .recv => 0

theorem Binds.parent {f : Vars → Code Unit} (rest : ∀ vars, Binds (f vars) due) :
    Binds (OsEval.parent job fds1 fds2 vars >>= f) (due + job.test.parentBinds) := by
  unfold OsEval.parent
  split
  · next test =>
      simp only [SendTest.parent, bind_assoc, test]
      refine .quiet (quiet_contact _ _) fun fdClient => .quiet (calls_call trivial) fun _ => ?_
      refine .quiet (quiet_timedLoop (by trivial)) fun vars => .quiet (calls_call trivial) fun _ => ?_
      exact .quiet (quiet_closeAll _) fun _ => .wait fun _ => rest vars
  · next test =>
      simp only [RecvTest.parent, bind_assoc, test]
      refine .serve fun fds => .quiet (calls_call trivial) fun _ => ?_
      refine .quiet (quiet_timedLoop (by trivial)) fun vars => .quiet (calls_call trivial) fun _ => ?_
      exact .remove fun _ => .quiet (quiet_closeAll _) fun _ => .wait fun _ => rest vars

theorem Binds.child {f : Vars → Code Unit} : Binds (OsEval.child job fds1 fds2 vars >>= f) job.test.childBinds := by
  unfold OsEval.child
  split
  · next test =>
      simp only [SendTest.child, bind_assoc, test]
      exact .serve fun fds => .remove fun _ => .quiet (quiet_closeAll _) fun _ => .killSelf
  · next test =>
      simp only [RecvTest.child, bind_assoc, test]
      refine .quiet (quiet_contact _ _) fun fdClient => .quiet (quiet_sendLoop _ _ _ _) fun vars => ?_
      refine .quiet (calls_call trivial) fun _ => .quiet (calls_call trivial) fun _ => ?_
      exact .quiet (quiet_closeAll _) fun _ => .killSelf

theorem quiet_pipe : Calls Quiet pipe := .bind (.perform trivial) fun _ => .pure _

/-- One of the two processes of an invocation binds, and it binds once. -/
theorem Binds.socketTest {f : Vars → Code Unit} (rest : ∀ vars, Binds (f vars) due) :
    Binds (OsEval.socketTest job vars >>= f) (due + 1) := by
  simp only [OsEval.socketTest, bind_assoc]
  refine .quiet quiet_pipe fun fds1 => .quiet quiet_pipe fun fds2 => ?_
  have shared : due + 1 = job.test.childBinds + (due + job.test.parentBinds) := by
    cases job.test <;> simp [SocketTest.childBinds, SocketTest.parentBinds, Nat.add_comm]
  rw [shared]
  refine .fork .child fun id positive => ?_
  rw [if_neg (Int.not_lt.mpr (Int.le_of_lt positive)), if_neg (Int.ne_of_gt positive)]
  exact .parent rest

theorem binds_invokeAll (sequence : List Invocation) : Binds (invokeAll sequence) sequence.length := by
  induction sequence with
  | nil => rfl
  | cons invocation sequence ih => exact .socketTest fun _ => ih

end Tests

/-! ## How often all of them bind -/

def Owes (p : Proc) (due : Nat) : Prop :=
  match p.status with
  | .running => Binds p.code due
  | _ => due = 0

/-- What the processes owe together. -/
inductive Owed : List Proc → Nat → Prop where
  | nil : Owed [] 0
  | cons {p procs own rest} : Owes p own → Owed procs rest → Owed (p :: procs) (own + rest)

section Accounts

variable {procs : List Proc} {p : Proc} {index due : Nat} {c : Call} {k : Reply → Code Unit} {w : World} {reply : Reply}

theorem Proc.request_eq_some : p.request = some (c, k) ↔ p.status = .running ∧ p.code = .call c k := by
  unfold Proc.request
  split
  · next running code => simp [running, code]
  · next other =>
      refine ⟨fun none => by contradiction, fun both => ?_⟩
      exact (other c k both.1 both.2).elim

theorem owes_request (request : p.request = some (c, k)) : Owes p due ↔ Binds (.call c k) due := by
  obtain ⟨running, code⟩ := Proc.request_eq_some.mp request
  simp only [Owes, running, code]

theorem owes_ended (ended : p.request = none) : Owes p due ↔ due = 0 := by
  unfold Owes
  split
  · next running =>
      cases code : p.code with
      | ret a => rfl
      | call c k => simp [Proc.request, running, code] at ended
  · rfl

theorem Owed.modify (owed : Owed procs due) (found : procs[index]? = some p) :
    ∃ own rest, Owes p own ∧ due = own + rest ∧
      ∀ own' (f : Proc → Proc), Owes (f p) own' → Owed (procs.modify index f) (own' + rest) := by
  induction owed generalizing index with
  | nil => simp at found
  | @cons q procs own rest head tail ih =>
      cases index with
      | zero =>
          obtain rfl : q = p := by simpa using found
          exact ⟨own, rest, head, rfl, fun own' f changed => .cons changed tail⟩
      | succ index =>
          obtain ⟨own₁, rest₁, owes, split, change⟩ := ih (by simpa using found)
          refine ⟨own₁, own + rest₁, owes, by omega, fun own' f changed => ?_⟩
          rw [Nat.add_left_comm]
          exact .cons head (change own' f changed)

theorem Owed.snoc {own : Nat} (owed : Owed procs due) (last : Owes p own) : Owed (procs ++ [p]) (due + own) := by
  induction owed with
  | nil => simpa using Owed.cons last .nil
  | cons head tail ih => simpa [Nat.add_assoc] using Owed.cons head ih

theorem Owed.ended (owed : Owed procs due) (ended : ∀ p ∈ procs, p.request = none) : due = 0 := by
  induction owed with
  | nil => rfl
  | cons head tail ih =>
      rw [List.forall_mem_cons] at ended
      rw [(owes_ended ended.1).mp head, ih ended.2]

/-- A child that is collected owes nothing. -/
theorem Owed.collect (owed : Owed w.procs due) (found : w.procs[index]? = some p) (request : p.request = some (c, k)) :
    Owed (w.collect index) due ∧ (w.collect index)[index]? = some p := by
  unfold World.collect
  split
  · next child zombie =>
      obtain ⟨bound, ended, -⟩ := List.findIdx?_eq_some_iff_getElem.mp zombie
      have gone : (w.procs[child]).request = none := by simp at ended; exact ended.2
      obtain ⟨own, rest, owes, split, change⟩ := owed.modify (List.getElem?_eq_getElem bound)
      obtain rfl := (owes_ended gone).mp owes
      have other : child ≠ index := by
        rintro rfl
        obtain rfl := Option.some_inj.mp ((List.getElem?_eq_getElem bound).symm.trans found)
        rw [request] at gone
        contradiction
      rw [split]
      exact ⟨change 0 _ rfl, by simp [other, found]⟩
  · exact ⟨owed, found⟩

theorem step_eq_some {next : World} {label : Label} :
    step w label = some next ↔ ∃ c k, w.request label.proc = some (c, k) ∧
      w.possible label.proc c label.reply.value = true ∧ next = w.answer label.proc c k label.reply := by
  unfold step
  split
  · next none => simp [none]
  · next c k request =>
      rw [Option.ite_none_right_eq_some, Option.some_inj]
      constructor
      · rintro ⟨possible, rfl⟩
        exact ⟨c, k, request, possible, rfl⟩
      · rintro ⟨c', k', request', possible, rfl⟩
        obtain ⟨rfl, rfl⟩ := Prod.mk.inj (Option.some_inj.mp (request.symm.trans request'))
        exact ⟨possible, rfl⟩

/-- A call of `bind` pays off one, a `fork` shares with the child, and any other call keeps the debt. -/
theorem Binds.resume {own : Nat} (binds : Binds (.call c k) own) (running : p.status = .running)
    (possible : w.possible index c reply.value = true) (succeeds : c.other = true → 0 ≤ reply.value) :
    ∃ forked later, own = forked + later + (c.bindReply reply.value).length ∧ Owes (p.resume c k reply) later ∧
      if c = .fork ∧ 0 < reply.value then Owes (.spawn k reply index) forked else forked = 0 := by
  have survives : ∀ later, c ≠ .killSelf → Binds (k reply) later → Owes (p.resume c k reply) later := by
    intro later notKilled after
    simpa [Owes, Proc.resume, notKilled, running] using after
  cases c with
  | bind fd path =>
      obtain ⟨-, later, rfl, after⟩ := binds
      exact ⟨0, later, by simp [Call.bindReply], survives later (by simp) (after reply), by simp⟩
  | remove path => exact ⟨0, own, by simp [Call.bindReply], survives own (by simp) (binds.2 reply), by simp⟩
  | fork =>
      obtain ⟨forked, later, rfl, child, parent⟩ := binds
      have created : reply.value ≠ 0 := by simpa [World.possible] using possible
      have positive : 0 < reply.value := by
        have nonneg := succeeds rfl
        omega
      refine ⟨forked, later, rfl, survives later (by simp) (parent reply positive), ?_⟩
      rw [if_pos ⟨rfl, positive⟩]
      exact child _ rfl
  | killSelf =>
      have killed : reply.value = 0 := Int.le_antisymm (by simpa [World.possible] using possible) (succeeds rfl)
      exact ⟨0, 0, binds, by simp [Owes, Proc.resume, killed], by simp⟩
  | _ => exact ⟨0, own, by simp [Call.bindReply], survives own (by simp) (binds reply), by simp⟩

theorem owed_answer (owed : Owed w.procs due) (request : w.request index = some (c, k))
    (possible : w.possible index c reply.value = true) (succeeds : c.other = true → 0 ≤ reply.value) :
    ∃ later, Owed (w.answer index c k reply).procs later ∧ due = later + (c.bindReply reply.value).length := by
  obtain ⟨p, found, request⟩ := Option.bind_eq_some_iff.mp request
  obtain ⟨procs, same, owed, found⟩ : ∃ procs, procs = (if c = .wait ∧ 0 ≤ reply.value then w.collect index else w.procs) ∧
      Owed procs due ∧ procs[index]? = some p := by
    refine ⟨_, rfl, ?_⟩
    split
    · exact owed.collect found request
    · exact ⟨owed, found⟩
  obtain ⟨own, rest, owes, rfl, change⟩ := owed.modify found
  obtain ⟨forked, later, rfl, resumed, shared⟩ :=
    ((owes_request request).mp owes).resume (Proc.request_eq_some.mp request).1 possible succeeds
  have passed := change later (fun p => p.resume c k reply) resumed
  simp only [World.answer, ← same]
  split
  · next created =>
      rw [if_pos created] at shared
      exact ⟨_, passed.snoc shared, by omega⟩
  · next alone =>
      rw [if_neg alone] at shared
      exact ⟨_, by rwa [List.append_nil], by omega⟩

end Accounts

end Oreo.OsEval
