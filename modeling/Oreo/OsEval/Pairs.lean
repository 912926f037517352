import Oreo.OsEval.Conduct

namespace Oreo.OsEval

open Oreo.Transition Interaction
open Oreo.Posix (bump drain pipeCapacity)

/-! # The two processes of a socket test, whatever the order of their steps -/

/-! ## What a step changes -/

section Steps

variable {w : World} {index other : Nat} {c : Call} {k : Reply → Code Unit} {r : Reply} {p : Proc}

theorem World.zombie_ended (zombie : w.zombie? index = some other) : ∃ q, w.procs[other]? = some q ∧ q.request = none := by
  obtain ⟨inside, ended, -⟩ := List.findIdx?_eq_some_iff_getElem.mp zombie
  refine ⟨_, List.getElem?_eq_getElem inside, ?_⟩
  simp only [Bool.and_eq_true, Option.isNone_iff_eq_none] at ended
  exact ended.2

theorem World.collect_self (found : w.procs[index]? = some p) (asked : p.request = some (c, k)) :
    (w.collect index)[index]? = some p := by
  unfold World.collect
  split
  · next child zombie =>
      obtain ⟨q, there, ended⟩ := World.zombie_ended zombie
      have different : child ≠ index := by
        rintro rfl
        obtain rfl := Option.some_inj.mp (there.symm.trans found)
        rw [ended] at asked
        contradiction
      rw [List.getElem?_modify_ne _ _ different, found]
  · exact found

theorem World.length_collect : (w.collect index).length = w.procs.length := by
  unfold World.collect
  split <;> simp

theorem World.procs_answer_self (found : w.procs[index]? = some p) (asked : p.request = some (c, k)) :
    (w.answer index c k r).procs[index]? = some (p.resume c k r) := by
  have inside : index < w.procs.length := (List.getElem?_eq_some_iff.mp found).1
  obtain ⟨procs, same, there, length⟩ : ∃ procs, procs = (if c = .wait ∧ 0 ≤ r.value then w.collect index else w.procs) ∧
      procs[index]? = some p ∧ procs.length = w.procs.length := by
    refine ⟨_, rfl, ?_⟩
    split
    · exact ⟨World.collect_self found asked, World.length_collect⟩
    · exact ⟨found, rfl⟩
  simp only [World.answer, ← same]
  rw [List.getElem?_append_left (by simpa [length] using inside), List.getElem?_modify_eq, there]
  rfl

theorem World.procs_answer_other (different : other ≠ index) (inside : other < w.procs.length) (notWait : c ≠ .wait) :
    (w.answer index c k r).procs[other]? = w.procs[other]? := by
  simp only [World.answer, notWait, false_and, if_false]
  rw [List.getElem?_append_left (by simpa using inside), List.getElem?_modify_ne _ _ different.symm]

theorem World.length_answer (notFork : c ≠ .fork) : (w.answer index c k r).procs.length = w.procs.length := by
  simp only [World.answer, notFork, false_and, if_false, List.append_nil, List.length_modify]
  split
  · exact World.length_collect
  · rfl

variable {kernel : Kernel} {t : Table}

theorem Kernel.table_answer_self (found : kernel.tables[index]? = some t) :
    (kernel.answer index c r w).tables[index]? = some (t.answer kernel.objects r c) := by
  have inside : index < kernel.tables.length := (List.getElem?_eq_some_iff.mp found).1
  simp only [Kernel.answer, Kernel.table, found, Option.getD_some]
  rw [List.getElem?_append_left (by simpa using inside)]
  simp [inside]

theorem Kernel.table_answer_other (different : other ≠ index) (inside : other < kernel.tables.length) :
    (kernel.answer index c r w).tables[other]? = kernel.tables[other]? := by
  simp only [Kernel.answer]
  rw [List.getElem?_append_left (by simpa using inside), List.getElem?_set_ne different.symm]

end Steps

/-! ## A process that keeps to its steps -/

/-- Process `index` is running, with what it needs, and is going to follow the steps from `v` on. -/
structure Doing (base : Table) (k : Kernel) (index : Nat) (v : View) : Prop where
  running : ∃ p, k.world.procs[index]? = some p ∧ p.status = .running ∧ Follows (Acts base) p.code Returned v
  table : k.tables[index]? = some v.table
  equipped : ∀ h, v.stage.Needs h → ∃ fd, v.table.find fd = some h

section Doing

variable {base : Table} {k : Kernel} {index other : Nat} {v v' : View} {c : Call} {cont : Reply → Code Unit} {r : Reply}
  {after : Reply → View → Prop}

theorem Doing.inside (doing : Doing base k index v) : index < k.world.procs.length := by
  obtain ⟨p, found, -⟩ := doing.running
  exact (List.getElem?_eq_some_iff.mp found).1

theorem Doing.table_eq (doing : Doing base k index v) : k.table index = v.table := by
  rw [Kernel.table, doing.table]
  rfl

theorem Doing.asks (doing : Doing base k index v) (asked : k.world.request index = some (c, cont)) :
    ∃ after, Acts base v c after ∧ ∀ r v', after r v' → Follows (Acts base) (cont r) Returned v' := by
  obtain ⟨p, found, running, follows⟩ := doing.running
  obtain ⟨q, there, asked⟩ := Option.bind_eq_some_iff.mp asked
  obtain rfl := Option.some_inj.mp (found.symm.trans there)
  rw [(Proc.request_eq_some.mp asked).2] at follows
  exact follows

/-- It has not come to its end unless there are no more invocations. -/
theorem Doing.request (doing : Doing base k index v) :
    v.stage = .idle [] ∧ k.world.request index = none ∨ ∃ c cont, k.world.request index = some (c, cont) := by
  obtain ⟨p, found, running, follows⟩ := doing.running
  have asks : k.world.request index = p.request := by rw [World.request, found]; rfl
  rw [asks]
  cases code : p.code with
  | ret a =>
      rw [code] at follows
      exact .inl ⟨follows, by simp [Proc.request, running, code]⟩
  | call c cont => exact .inr ⟨c, cont, Proc.request_eq_some.mpr ⟨running, code⟩⟩

theorem Doing.next (doing : Doing base k index v) (asked : k.world.request index = some (c, cont)) (survives : c ≠ .killSelf)
    (rest : Follows (Acts base) (cont r) Returned v') (table : v'.table = v.table.answer k.objects r c)
    (equipped : ∀ h, v'.stage.Needs h → ∃ fd, v'.table.find fd = some h) :
    Doing base (k.answer index c r (k.world.answer index c cont r)) index v' := by
  obtain ⟨p, found, running, -⟩ := doing.running
  obtain ⟨q, there, asked⟩ := Option.bind_eq_some_iff.mp asked
  obtain rfl := Option.some_inj.mp (found.symm.trans there)
  refine ⟨⟨_, World.procs_answer_self found asked, ?_, rest⟩, ?_, equipped⟩
  · simp [Proc.resume, survives, running]
  · rw [table]
    exact Kernel.table_answer_self doing.table

theorem Doing.kept (doing : Doing base k other v) (different : other ≠ index) (notWait : c ≠ .wait) :
    Doing base (k.answer index c r (k.world.answer index c cont r)) other v := by
  have inside := (List.getElem?_eq_some_iff.mp doing.table).1
  obtain ⟨p, found, running⟩ := doing.running
  refine ⟨⟨p, (World.procs_answer_other different doing.inside notWait).trans found, running⟩, ?_, doing.equipped⟩
  exact (Kernel.table_answer_other different inside).trans doing.table

/-- It has what it needs, and has not ended. -/
theorem Doing.held {h : Resource} (doing : Doing base k index v) (busy : v.stage ≠ .idle []) (needs : v.stage.Needs h) :
    k.held h = true := by
  obtain ⟨fd, found⟩ := doing.equipped h needs
  refine Kernel.held_iff.mpr ⟨index, (List.getElem?_eq_some_iff.mp doing.table).1, ?_, fd, ?_⟩
  · rcases doing.request with ⟨returned, -⟩ | ⟨c, cont, asked⟩
    · exact absurd returned busy
    · rw [asked]
      rfl
  · rw [doing.table_eq]
    exact found

end Doing

/-! ## The two processes of an invocation -/

/-- The steps that the two processes have taken, their sockets and their descriptors. -/
structure Pairing where
  link : Link
  /-- The index of the process that `fork` made. -/
  child : Nat
  /-- The number of sockets before it. -/
  old : Nat
  n : Nat
  s : Nat
  ts : Table
  m : Nat
  c : Nat
  tc : Table

namespace Pairing

variable (g : Pairing)

def serverAt : Nat :=
  match g.link.test with
  | .send => g.child
  | .recv => 0

def clientAt : Nat :=
  match g.link.test with
  | .send => 0
  | .recv => g.child

section Lemmas

variable {g}

theorem serverAt_send (test : g.link.test = .send) : g.serverAt = g.child := by rw [serverAt, test]
theorem serverAt_recv (test : g.link.test = .recv) : g.serverAt = 0 := by rw [serverAt, test]
theorem clientAt_send (test : g.link.test = .send) : g.clientAt = 0 := by rw [clientAt, test]
theorem clientAt_recv (test : g.link.test = .recv) : g.clientAt = g.child := by rw [clientAt, test]

end Lemmas

/-- Only a child leaves. -/
def ServerLeft : Prop := g.link.test = .send ∧ g.n = 7

def ClientLeft : Prop := g.link.test = .recv ∧ g.m = 6

end Pairing

/-- No process is ahead of what it waits for. -/
structure Ordered (test : SocketTest) (n m : Nat) : Prop where
  greeted : 1 ≤ m → 4 ≤ n
  answered : 6 ≤ n → 4 ≤ m
  parted : test = .recv → 5 ≤ m → 7 ≤ n
  serverEnd : n ≤ 7
  clientEnd : m ≤ 6
  sendEnd : test = .send → m ≤ 4

/-- A byte is in a pipe from the step that writes it to the step that reads it. -/
structure Bytes (o : Objects) (link : Link) (n m : Nat) : Prop where
  apart : link.pipe1 ≠ link.pipe2
  send : link.test = .send → o.pipes link.pipe1 + min 1 m = min 1 (n - 3)
  recv : link.test = .recv → o.pipes link.pipe1 + min 1 m + min 1 (m - 4) = min 1 (n - 3) + min 1 (n - 6)
  second : o.pipes link.pipe2 + min 1 (n - 5) = min 1 (m - 3)

/-- The path does not exist at first, and the two processes make a connection. -/
structure Connecting (initial : List String) (k : Kernel) (n s m c : Nat) : Prop where
  first : k.world.procs.length = 2 ∧ serverPath ∉ initial
  accepted : 5 ≤ n → 3 ≤ m
  absent : n ≤ 1 → serverPath ∉ k.world.paths
  present : 2 ≤ n → serverPath ∈ k.world.paths ∧ k.objects.names.lookup serverPath = some s
  unbound : n = 1 → k.objects.sockets s = .fresh
  bound : n = 2 → k.objects.sockets s = .bound
  listening : 3 ≤ n → n ≤ 4 → k.objects.sockets s = .listening (min 1 (m - 2))
  ready : m = 2 → k.objects.sockets c = .fresh
  serverBelow : 1 ≤ n → s < k.objects.socketCount
  clientBelow : m = 2 → c < k.objects.socketCount
  distinct : 1 ≤ n → m = 2 → s ≠ c

/-- The sockets of a table are new and have never been used. -/
def Unused (o : Objects) (old : Nat) (t : Table) : Prop :=
  ∀ fd x, t.find fd = some (.socket x) → old ≤ x ∧ x < o.socketCount ∧ o.sockets x = .fresh

/-- The path is there from an earlier invocation, whose socket nobody has any more. -/
structure Refused (k : Kernel) (old : Nat) (ts tc : Table) : Prop where
  present : serverPath ∈ k.world.paths
  stale : ∀ x, k.objects.names.lookup serverPath = some x → x < old
  recent : old ≤ k.objects.socketCount
  server : Unused k.objects old ts
  client : Unused k.objects old tc

structure Pairing.Holds (g : Pairing) (base : Table) (initial : List String) (k : Kernel) : Prop where
  server : ¬ g.ServerLeft → Doing base k g.serverAt ⟨g.ts, .server g.link g.n g.s⟩
  client : ¬ g.ClientLeft → Doing base k g.clientAt ⟨g.tc, .client g.link g.m g.c⟩
  left : g.ServerLeft ∨ g.ClientLeft → ∃ p, k.world.procs[g.child]? = some p ∧ p.status = .killed
  positive : 1 ≤ g.child
  last : k.world.procs.length = g.child + 1
  parent : ∀ p, k.world.procs[g.child]? = some p → p.parent = some 0
  earlier : ∀ index p, 1 ≤ index → index < g.child → k.world.procs[index]? = some p → p.status = .reaped
  ordered : Ordered g.link.test g.n g.m
  bytes : Bytes k.objects g.link g.n g.m
  sockets : Connecting initial k g.n g.s g.m g.c ∨ Refused k g.old g.ts g.tc

/-- What is left of the kernel once the call of a process has returned. -/
def Kernel.next (k : Kernel) (index : Nat) (c : Call) (cont : Reply → Code Unit) (r : Reply) : Kernel :=
  k.answer index c r (k.world.answer index c cont r)

/-- A call that neither makes nor ends a process. -/
def Call.Plain (c : Call) : Prop := c ≠ .killSelf ∧ c ≠ .wait ∧ c ≠ .fork

namespace Pairing.Holds

variable {base : Table} {initial : List String} {k : Kernel} {g : Pairing} {index : Nat} {c : Call}
  {cont : Reply → Code Unit} {r : Reply}

theorem serverAt_cases (g : Pairing) : g.link.test = .send ∧ g.serverAt = g.child ∧ g.clientAt = 0 ∨
    g.link.test = .recv ∧ g.serverAt = 0 ∧ g.clientAt = g.child := by
  cases test : g.link.test with
  | send => exact .inl ⟨rfl, serverAt_send test, clientAt_send test⟩
  | recv => exact .inr ⟨rfl, serverAt_recv test, clientAt_recv test⟩

theorem apart (holds : g.Holds base initial k) : g.serverAt ≠ g.clientAt := by
  have positive := holds.positive
  rcases serverAt_cases g with ⟨-, server, client⟩ | ⟨-, server, client⟩ <;> omega

/-- The processes that have nothing to do with a call. -/
theorem frame (holds : g.Holds base initial k) (asked : k.world.request index = some (c, cont)) (notWait : c ≠ .wait)
    (notFork : c ≠ .fork) (here : index = 0 ∨ index = g.child) :
    (k.next index c cont r).world.procs.length = g.child + 1 ∧
      (∀ p, (k.next index c cont r).world.procs[g.child]? = some p → p.parent = some 0) ∧
        (∀ other p, 1 ≤ other → other < g.child → (k.next index c cont r).world.procs[other]? = some p → p.status = .reaped) ∧
          (g.child ≠ index → (k.next index c cont r).world.procs[g.child]? = k.world.procs[g.child]?) := by
  have last := holds.last
  have other (other : Nat) (inside : other < k.world.procs.length) (different : other ≠ index) :
      (k.next index c cont r).world.procs[other]? = k.world.procs[other]? :=
    World.procs_answer_other different inside notWait
  refine ⟨(World.length_answer notFork).trans last, fun p found => ?_, fun index' p positive earlier found => ?_,
    fun different => other _ (by omega) different⟩
  · by_cases same : g.child = index
    · rw [same] at found
      obtain ⟨q, there, asks⟩ := Option.bind_eq_some_iff.mp asked
      have moved : (k.next index c cont r).world.procs[index]? = some (q.resume c cont r) := World.procs_answer_self there asks
      obtain rfl := Option.some_inj.mp (moved.symm.trans found)
      exact holds.parent q (by rw [same, there])
    · rw [other _ (by omega) same] at found
      exact holds.parent p found
  · rw [other _ (by omega) (by omega)] at found
    exact holds.earlier index' p positive earlier found

section Next

variable {n s m cs : Nat} {ts tc : Table} (holds : g.Holds base initial k) (plain : c.Plain)

include holds plain

theorem server_next (asked : k.world.request g.serverAt = some (c, cont)) (here : ¬ g.ServerLeft)
    (rest : Follows (Acts base) (cont r) Returned ⟨ts, .server g.link n s⟩) (table : ts = g.ts.answer k.objects r c)
    (equipped : ∀ h, Stage.Needs (.server g.link n s) h → ∃ fd, ts.find fd = some h)
    (stays : ¬ (g.link.test = .send ∧ n = 7)) (ordered : Ordered g.link.test n g.m)
    (bytes : Bytes (k.objects.answer g.ts r c) g.link n g.m)
    (sockets : Connecting initial (k.next g.serverAt c cont r) n s g.m g.c ∨
      Refused (k.next g.serverAt c cont r) g.old ts g.tc) :
    Holds { g with n, s, ts } base initial (k.next g.serverAt c cont r) := by
  have doing := holds.server here
  have at' : g.serverAt = 0 ∨ g.serverAt = g.child := by
    rcases serverAt_cases g with ⟨-, server, -⟩ | ⟨-, server, -⟩ <;> simp [server]
  obtain ⟨last, parent, earlier, other⟩ := @frame base initial k g _ c cont r holds asked plain.2.1 plain.2.2 at'
  refine ⟨fun _ => doing.next asked plain.1 rest table equipped, fun still => (holds.client still).kept holds.apart.symm plain.2.1,
    ?_, holds.positive, last, parent, earlier, ordered, ?_, sockets⟩
  · rintro (left | left)
    · exact (stays left).elim
    · obtain ⟨p, found, killed⟩ := holds.left (.inr left)
      have positive := holds.positive
      have different : g.child ≠ g.serverAt := by
        rcases serverAt_cases g with ⟨send, -⟩ | ⟨-, server, -⟩
        · exact absurd (send.symm.trans left.1) (by decide)
        · omega
      exact ⟨p, (other different).trans found, killed⟩
  · change Bytes (k.objects.answer (k.table g.serverAt) r c) _ _ _
    rw [doing.table_eq]
    exact bytes

theorem client_next (asked : k.world.request g.clientAt = some (c, cont)) (here : ¬ g.ClientLeft)
    (rest : Follows (Acts base) (cont r) Returned ⟨tc, .client g.link m cs⟩) (table : tc = g.tc.answer k.objects r c)
    (equipped : ∀ h, Stage.Needs (.client g.link m cs) h → ∃ fd, tc.find fd = some h)
    (stays : ¬ (g.link.test = .recv ∧ m = 6)) (ordered : Ordered g.link.test g.n m)
    (bytes : Bytes (k.objects.answer g.tc r c) g.link g.n m)
    (sockets : Connecting initial (k.next g.clientAt c cont r) g.n g.s m cs ∨
      Refused (k.next g.clientAt c cont r) g.old g.ts tc) :
    Holds { g with m, c := cs, tc } base initial (k.next g.clientAt c cont r) := by
  have doing := holds.client here
  have at' : g.clientAt = 0 ∨ g.clientAt = g.child := by
    rcases serverAt_cases g with ⟨-, -, client⟩ | ⟨-, -, client⟩ <;> simp [client]
  obtain ⟨last, parent, earlier, other⟩ := @frame base initial k g _ c cont r holds asked plain.2.1 plain.2.2 at'
  refine ⟨fun still => (holds.server still).kept holds.apart plain.2.1, fun _ => doing.next asked plain.1 rest table equipped,
    ?_, holds.positive, last, parent, earlier, ordered, ?_, sockets⟩
  · rintro (left | left)
    · obtain ⟨p, found, killed⟩ := holds.left (.inl left)
      have positive := holds.positive
      have different : g.child ≠ g.clientAt := by
        rcases serverAt_cases g with ⟨-, -, client⟩ | ⟨recv, -⟩
        · omega
        · exact absurd (recv.symm.trans left.1) (by decide)
      exact ⟨p, (other different).trans found, killed⟩
    · exact (stays left).elim
  · change Bytes (k.objects.answer (k.table g.clientAt) r c) _ _ _
    rw [doing.table_eq]
    exact bytes

end Next

end Pairing.Holds

/-! ## Calls that leave the sockets alone -/

def Call.Still : Call → Prop
  | .remove path => path ≠ serverPath
  | .close _ | .write _ | .read _ | .clockGettime | .send _ _ | .recv _ _ | .killSelf => True
  | _ => False

structure Kept (k k' : Kernel) : Prop where
  sockets : k'.objects.sockets = k.objects.sockets
  count : k'.objects.socketCount = k.objects.socketCount
  names : k'.objects.names = k.objects.names
  path : serverPath ∈ k'.world.paths ↔ serverPath ∈ k.world.paths
  procs : k'.world.procs.length = k.world.procs.length

theorem Kernel.path_next {k : Kernel} {index : Nat} {c : Call} {cont : Reply → Code Unit} {r : Reply} (other : c.other = true) :
    serverPath ∈ (k.next index c cont r).world.paths ↔ serverPath ∈ k.world.paths := by
  change serverPath ∈ k.world.linked c r.value ↔ _
  cases c <;> first | contradiction | rfl

theorem Call.Still.kept {k : Kernel} {index : Nat} {c : Call} {cont : Reply → Code Unit} {r : Reply} (still : c.Still) :
    Kept k (k.next index c cont r) := by
  have objects : (k.next index c cont r).objects.sockets = k.objects.sockets ∧
      (k.next index c cont r).objects.socketCount = k.objects.socketCount ∧
        (k.next index c cont r).objects.names = k.objects.names := by
    simp only [Kernel.next, Kernel.answer]
    cases c <;> first | exact still.elim | (simp only [Objects.answer]; try split) <;> simp
  refine ⟨objects.1, objects.2.1, objects.2.2, ?_, World.length_answer fun fork => by rw [fork] at still; exact still⟩
  change serverPath ∈ k.world.linked c r.value ↔ _
  cases c with
  | remove path =>
      rw [World.linked]
      split
      · simp [Ne.symm still]
      · rfl
  | _ => first | exact still.elim | rfl

section Keep

variable {k k' : Kernel} {initial : List String} {n n' s m m' c old : Nat} {ts ts' tc tc' : Table}

theorem Connecting.keep (connecting : Connecting initial k n s m c) (kept : Kept k k')
    (server : n' = n ∨ n' = n + 1 ∧ 3 ≤ n ∧ n ≠ 4) (client : m' = m ∨ m' = m + 1 ∧ m ≠ 1 ∧ m ≠ 2) :
    Connecting initial k' n' s m' c where
  first := by rw [kept.procs]; exact connecting.first
  accepted := by have before := connecting.accepted; omega
  absent start := by rw [kept.path]; exact connecting.absent (by omega)
  present bound := by rw [kept.path, kept.names]; exact connecting.present (by omega)
  unbound step := by rw [kept.sockets]; exact connecting.unbound (by omega)
  bound step := by rw [kept.sockets]; exact connecting.bound (by omega)
  listening lower upper := by
    have same : min 1 (m' - 2) = min 1 (m - 2) := by omega
    rw [kept.sockets, same]
    exact connecting.listening (by omega) (by omega)
  ready step := by rw [kept.sockets]; exact connecting.ready (by omega)
  serverBelow opened := by rw [kept.count]; exact connecting.serverBelow (by omega)
  clientBelow step := by rw [kept.count]; exact connecting.clientBelow (by omega)
  distinct opened step := connecting.distinct (by omega) (by omega)

/-- The tables may have lost descriptors. -/
theorem Refused.keep (refused : Refused k old ts tc) (kept : Kept k k')
    (server : ∀ fd h, ts'.find fd = some h → ts.find fd = some h)
    (client : ∀ fd h, tc'.find fd = some h → tc.find fd = some h) : Refused k' old ts' tc' where
  present := kept.path.mpr refused.present
  stale x found := refused.stale x (by rw [← kept.names]; exact found)
  recent := by rw [kept.count]; exact refused.recent
  server fd x found := by
    rw [kept.count, kept.sockets]
    exact refused.server fd x (server fd _ found)
  client fd x found := by
    rw [kept.count, kept.sockets]
    exact refused.client fd x (client fd _ found)

theorem Call.Still.sockets {index : Nat} {call : Call} {cont : Reply → Code Unit} {r : Reply} (still : call.Still)
    (server : n' = n ∨ n' = n + 1 ∧ 3 ≤ n ∧ n ≠ 4) (client : m' = m ∨ m' = m + 1 ∧ m ≠ 1 ∧ m ≠ 2)
    (sockets : Connecting initial k n s m c ∨ Refused k old ts tc) :
    Connecting initial (k.next index call cont r) n' s m' c ∨ Refused (k.next index call cont r) old ts tc :=
  sockets.imp (·.keep still.kept server client) (·.keep still.kept (fun _ _ => id) fun _ _ => id)

variable (path : serverPath ∈ k'.world.paths ↔ serverPath ∈ k.world.paths)
  (procs : k'.world.procs.length = k.world.procs.length)

theorem Kept.of_objects (objects : k'.objects = k.objects) (path : serverPath ∈ k'.world.paths ↔ serverPath ∈ k.world.paths)
    (procs : k'.world.procs.length = k.world.procs.length) : Kept k k' :=
  ⟨by rw [objects], by rw [objects], by rw [objects], path, procs⟩

namespace Connecting

include path procs

theorem openServer (connecting : Connecting initial k 0 s m c) (objects : k'.objects = k.objects.create .fresh) :
    Connecting initial k' 1 k.objects.socketCount m c := by
  obtain ⟨first, accepted, absent, present, unbound, bound, listening, ready, serverBelow, clientBelow, distinct⟩ := connecting
  constructor <;> grind

theorem openClient (connecting : Connecting initial k n s 1 c) (objects : k'.objects = k.objects.create .fresh) :
    Connecting initial k' n s 2 k.objects.socketCount := by
  obtain ⟨first, accepted, absent, present, unbound, bound, listening, ready, serverBelow, clientBelow, distinct⟩ := connecting
  constructor <;> grind

omit path in
theorem bind (connecting : Connecting initial k 1 s m c) (early : m = 0) (path : serverPath ∈ k'.world.paths)
    (objects : k'.objects = { k.objects.set s .bound with names := (serverPath, s) :: k.objects.names }) :
    Connecting initial k' 2 s m c := by
  obtain ⟨first, accepted, absent, present, unbound, bound, listening, ready, serverBelow, clientBelow, distinct⟩ := connecting
  have sockets : k'.objects.sockets s = .bound := by rw [objects]; simp [Objects.set]
  have names : k'.objects.names.lookup serverPath = some s := by rw [objects]; simp
  have count : k'.objects.socketCount = k.objects.socketCount := by rw [objects]; rfl
  constructor <;> grind

theorem listen (connecting : Connecting initial k 2 s m c) (early : m = 0)
    (objects : k'.objects = k.objects.set s (.listening 0)) : Connecting initial k' 3 s m c := by
  obtain ⟨first, accepted, absent, present, unbound, bound, listening, ready, serverBelow, clientBelow, distinct⟩ := connecting
  constructor <;> grind

theorem accept (connecting : Connecting initial k 4 s m c) (late : 3 ≤ m)
    (objects : k'.objects = (k.objects.set s (.listening 0)).create .connected) : Connecting initial k' 5 s m c := by
  obtain ⟨first, accepted, absent, present, unbound, bound, listening, ready, serverBelow, clientBelow, distinct⟩ := connecting
  constructor <;> grind

theorem connect (connecting : Connecting initial k 4 s 2 c)
    (objects : k'.objects = (k.objects.set s (.listening 1)).set c .connected) : Connecting initial k' 4 s 3 c := by
  obtain ⟨first, accepted, absent, present, unbound, bound, listening, ready, serverBelow, clientBelow, distinct⟩ := connecting
  constructor <;> grind

end Connecting

omit procs in
include path in
theorem Refused.opens (refused : Refused k old ts tc) (objects : k'.objects = k.objects.create .fresh)
    (server : ∀ fd h, ts'.find fd = some h → h = .socket k.objects.socketCount ∨ ts.find fd = some h)
    (client : ∀ fd h, tc'.find fd = some h → h = .socket k.objects.socketCount ∨ tc.find fd = some h) :
    Refused k' old ts' tc' := by
  obtain ⟨present, stale, recent, unusedServer, unusedClient⟩ := refused
  constructor <;> grind [Unused]

end Keep

section Permits

variable {k : Kernel} {index : Nat} {fd : Int} {r : Reply} {pipe : Nat}

theorem Kernel.permits_write (found : (k.table index).find fd = some (.writeEnd pipe))
    (permitted : k.permits index (.write fd) r = true) :
    k.objects.answer (k.table index) r (.write fd) = { k.objects with pipes := bump k.objects.pipes pipe 1 } := by
  simp only [Kernel.permits, found, Bool.and_eq_true, beq_iff_eq] at permitted
  simp [Objects.answer, found, permitted.1.1]

theorem Kernel.permits_read (found : (k.table index).find fd = some (.readEnd pipe))
    (permitted : k.permits index (.read fd) r = true) (held : k.objects.pipes pipe = 0 → k.held (.writeEnd pipe) = true) :
    0 < k.objects.pipes pipe ∧
      k.objects.answer (k.table index) r (.read fd) = { k.objects with pipes := drain k.objects.pipes pipe 1 } := by
  simp only [Kernel.permits, found] at permitted
  split at permitted
  · next some =>
      rw [beq_iff_eq] at permitted
      exact ⟨some, by simp [Objects.answer, found, permitted]⟩
  · next none =>
      rw [held (by omega)] at permitted
      simp at permitted

variable {s : Nat}

theorem Kernel.state_of_find (found : (k.table index).find fd = some (.socket s)) :
    k.state? index fd = some (k.objects.sockets s) := by
  simp [Kernel.state?, found]

theorem Kernel.possible_bind_absent {path : String} (found : (k.table index).find fd = some (.socket s))
    (absent : path ∉ k.world.paths) (possible : k.world.possible index (.bind fd path) r.value = true) :
    k.objects.answer (k.table index) r (.bind fd path) = { k.objects.set s .bound with names := (path, s) :: k.objects.names } ∧
      k.world.linked (.bind fd path) r.value = path :: k.world.paths := by
  simp only [World.possible, absent, if_false, beq_iff_eq] at possible
  simp [Objects.answer, World.linked, found, possible]

theorem Kernel.possible_bind_present {path : String} (found : (k.table index).find fd = some (.socket s))
    (present : path ∈ k.world.paths) (possible : k.world.possible index (.bind fd path) r.value = true) :
    k.objects.answer (k.table index) r (.bind fd path) = k.objects ∧
      k.world.linked (.bind fd path) r.value = k.world.paths := by
  simp only [World.possible, present, if_true, beq_iff_eq] at possible
  simp [Objects.answer, World.linked, found, possible]

theorem Kernel.permits_listen_bound (found : (k.table index).find fd = some (.socket s)) (bound : k.objects.sockets s = .bound)
    (permitted : k.permits index (.listen fd) r = true) :
    k.objects.answer (k.table index) r (.listen fd) = k.objects.set s (.listening 0) := by
  simp only [Kernel.permits, Kernel.state_of_find found, bound, beq_iff_eq] at permitted
  simp [Objects.answer, Objects.backlog, found, bound, permitted]

theorem Kernel.permits_listen_fresh (found : (k.table index).find fd = some (.socket s)) (fresh : k.objects.sockets s = .fresh)
    (permitted : k.permits index (.listen fd) r = true) :
    k.objects.answer (k.table index) r (.listen fd) = k.objects := by
  simp only [Kernel.permits, Kernel.state_of_find found, fresh, beq_iff_eq] at permitted
  simp [Objects.answer, found, permitted]

theorem Kernel.permits_accept_listening {backlog : Nat} (found : (k.table index).find fd = some (.socket s))
    (listening : k.objects.sockets s = .listening backlog) (permitted : k.permits index (.accept fd) r = true) :
    0 < backlog ∧ (k.table index).free r.value = true ∧
      k.objects.answer (k.table index) r (.accept fd) = (k.objects.set s (.listening (backlog - 1))).create .connected := by
  cases backlog with
  | zero => simp [Kernel.permits, Kernel.state_of_find found, listening] at permitted
  | succ backlog =>
      simp only [Kernel.permits, Kernel.state_of_find found, listening] at permitted
      have nonneg := (Table.free_iff.mp permitted).1
      exact ⟨Nat.succ_pos backlog, permitted, by simp [Objects.answer, Objects.backlog, found, listening, nonneg]⟩

theorem Kernel.permits_accept_fresh (found : (k.table index).find fd = some (.socket s)) (fresh : k.objects.sockets s = .fresh)
    (permitted : k.permits index (.accept fd) r = true) :
    r.value = -1 ∧ k.objects.answer (k.table index) r (.accept fd) = k.objects := by
  simp only [Kernel.permits, Kernel.state_of_find found, fresh, beq_iff_eq] at permitted
  exact ⟨permitted, by simp [Objects.answer, found, permitted]⟩

theorem Kernel.permits_connect_listening {path : String} {peer backlog : Nat} (found : (k.table index).find fd = some (.socket s))
    (fresh : k.objects.sockets s = .fresh) (named : k.objects.names.lookup path = some peer) (present : path ∈ k.world.paths)
    (listening : k.objects.sockets peer = .listening backlog) (held : k.held (.socket peer) = true)
    (permitted : k.permits index (.connect fd path) r = true) :
    k.objects.answer (k.table index) r (.connect fd path) =
      (k.objects.set peer (.listening (backlog + 1))).set s .connected := by
  have waits : k.backlog? path = some backlog := by simp [Kernel.backlog?, present, named, listening, held]
  simp only [Kernel.permits, Kernel.state_of_find found, fresh, waits, Bool.and_eq_true, beq_iff_eq] at permitted
  simp [Objects.answer, Objects.backlog, found, named, listening, permitted.1]

theorem Kernel.backlog?_unheld {path : String}
    (nobody : ∀ x, k.objects.names.lookup path = some x → k.held (.socket x) = false) : k.backlog? path = none := by
  unfold Kernel.backlog?
  cases named : k.objects.names.lookup path with
  | none => simp
  | some x =>
      cases state : k.objects.sockets x <;> simp [nobody x named, state]

theorem Kernel.permits_connect_refused {path : String} (found : (k.table index).find fd = some (.socket s))
    (nobody : ∀ x, k.objects.names.lookup path = some x → k.held (.socket x) = false)
    (permitted : k.permits index (.connect fd path) r = true) :
    k.objects.answer (k.table index) r (.connect fd path) = k.objects := by
  have refused := Kernel.backlog?_unheld nobody
  have failed : r.value = -1 := by
    cases state : k.objects.sockets s <;>
      simpa [Kernel.permits, refused, Kernel.state_of_find found, state] using permitted
  cases named : k.objects.names.lookup path <;> simp [Objects.answer, found, named, failed]

end Permits

section Numbers

variable {o : Objects} {link : Link} {n m s : Nat} {h : Resource}

theorem needs_server_succ (opened : 1 ≤ n) (needs : Stage.Needs (.server link (n + 1) s) h) : Stage.Needs (.server link n s) h := by
  simp only [Stage.Needs] at needs ⊢
  rcases needs with ⟨same, needs⟩ | ⟨same, needs⟩ | ⟨same, needs⟩
  · exact .inl ⟨same, needs.imp (by omega) fun late => ⟨by omega, late.2⟩⟩
  · exact .inr (.inl ⟨same, by omega⟩)
  · exact .inr (.inr ⟨same, by omega⟩)

theorem needs_client_succ (needs : Stage.Needs (.client link (m + 1) s) h) : Stage.Needs (.client link m s) h := by
  simp only [Stage.Needs] at needs ⊢
  rcases needs with ⟨same, needs⟩ | ⟨same, needs⟩
  · exact .inl ⟨same, needs.elim (by omega) fun late => .inr ⟨by omega, late.2⟩⟩
  · exact .inr ⟨same, by omega⟩

theorem needs_server_open {s' : Nat} (needs : Stage.Needs (.server link 1 s') h) :
    h = .socket s' ∨ Stage.Needs (.server link 0 s) h := by
  simp only [Stage.Needs] at needs ⊢
  rcases needs with ⟨same, -⟩ | ⟨same, -⟩ | ⟨same, -⟩
  · exact .inr (.inl ⟨same, by omega⟩)
  · exact .inr (.inr (.inl ⟨same, by omega⟩))
  · exact .inl same

theorem Table.has_install {t : Table} {fd : Int} {h' : Resource} (free : t.free fd = true) (has : ∃ fd, t.find fd = some h) :
    ∃ other, (t.install fd h').find other = some h := by
  obtain ⟨other, found⟩ := has
  exact ⟨other, Table.find_install_of_free h' free found⟩

theorem Table.has_close {t : Table} {fd : Int} (spare : t.find fd ≠ some h) (has : ∃ fd, t.find fd = some h) :
    ∃ other, (t.close fd).find other = some h := by
  obtain ⟨other, found⟩ := has
  refine ⟨other, ?_⟩
  rw [Table.find_close, if_neg, found]
  rintro rfl
  exact spare found

theorem Table.of_install {t : Table} {fd other : Int} {h' : Resource} (found : (t.install fd h').find other = some h) :
    h = h' ∨ t.find other = some h := by
  rw [Table.find_install] at found
  split at found
  · exact .inl (Option.some_inj.mp found).symm
  · exact .inr found

theorem Ordered.server_succ {test : SocketTest} (ordered : Ordered test n m) (answered : n = 5 → 4 ≤ m) (inside : n < 7) :
    Ordered test (n + 1) m := by
  obtain ⟨greeted, answered', parted, serverEnd, clientEnd, sendEnd⟩ := ordered
  exact ⟨by omega, by omega, fun recv late => by have := parted recv late; omega, by omega, clientEnd, sendEnd⟩

theorem Ordered.client_succ {test : SocketTest} (ordered : Ordered test n m) (greeted : m = 0 → 4 ≤ n)
    (parted : m = 4 → 7 ≤ n) (inside : m < 6) (send : test = .send → m < 4) : Ordered test n (m + 1) := by
  obtain ⟨greeted', answered, parted', serverEnd, clientEnd, sendEnd⟩ := ordered
  refine ⟨by omega, by omega, fun recv late => ?_, serverEnd, by omega, send⟩
  by_cases now : m = 4
  · exact parted now
  · exact parted' recv (by omega)

def Call.OnSocket : Call → Prop
  | .socket | .bind _ _ | .listen _ | .accept _ | .connect _ _ => True
  | _ => False

theorem Objects.pipes_answer {c : Call} {t : Table} {r : Reply} (onSocket : c.OnSocket) : (o.answer t r c).pipes = o.pipes := by
  cases c <;> first | exact onSocket.elim | (simp only [Objects.answer]; first | rfl | (split <;> first | rfl | (split <;> rfl)))

namespace Bytes

/-- Between the steps that use the pipes. -/
theorem server_succ {o' : Objects} (bytes : Bytes o link n m) (pipes : o'.pipes = o.pipes) (local' : n ≠ 3 ∧ n ≠ 5 ∧ n ≠ 6) :
    Bytes o' link (n + 1) m := by
  obtain ⟨apart, send, recv, second⟩ := bytes
  refine ⟨apart, fun test => ?_, fun test => ?_, ?_⟩
  · have before := send test
    rw [pipes]
    omega
  · have before := recv test
    rw [pipes]
    omega
  · rw [pipes]
    omega

theorem client_succ {o' : Objects} (bytes : Bytes o link n m) (pipes : o'.pipes = o.pipes) (local' : m = 1 ∨ m = 2) :
    Bytes o' link n (m + 1) := by
  obtain ⟨apart, send, recv, second⟩ := bytes
  refine ⟨apart, fun test => ?_, fun test => ?_, ?_⟩
  · have before := send test
    rw [pipes]
    omega
  · have before := recv test
    rw [pipes]
    omega
  · rw [pipes]
    omega

theorem greet (bytes : Bytes o link 3 m) : Bytes { o with pipes := bump o.pipes link.pipe1 1 } link 4 m := by
  obtain ⟨apart, send, recv, second⟩ := bytes
  exact ⟨apart, by grind [bump], by grind [bump], by grind [bump]⟩

theorem await (bytes : Bytes o link 5 m) (some : 0 < o.pipes link.pipe2) :
    Bytes { o with pipes := drain o.pipes link.pipe2 1 } link 6 m := by
  obtain ⟨apart, send, recv, second⟩ := bytes
  exact ⟨apart, by grind [drain], by grind [drain], by grind [drain]⟩

theorem part (bytes : Bytes o link 6 m) (test : link.test = .recv) :
    Bytes { o with pipes := bump o.pipes link.pipe1 1 } link 7 m := by
  obtain ⟨apart, send, recv, second⟩ := bytes
  exact ⟨apart, by grind, by grind [bump], by grind [bump]⟩

theorem hear (bytes : Bytes o link n 0) (some : 0 < o.pipes link.pipe1) :
    Bytes { o with pipes := drain o.pipes link.pipe1 1 } link n 1 := by
  obtain ⟨apart, send, recv, second⟩ := bytes
  exact ⟨apart, by grind [drain], by grind [drain], by grind [drain]⟩

theorem answer (bytes : Bytes o link n 3) : Bytes { o with pipes := bump o.pipes link.pipe2 1 } link n 4 := by
  obtain ⟨apart, send, recv, second⟩ := bytes
  exact ⟨apart, by grind [bump], by grind [bump], by grind [bump]⟩

theorem heed (bytes : Bytes o link n 4) (test : link.test = .recv) (some : 0 < o.pipes link.pipe1) :
    Bytes { o with pipes := drain o.pipes link.pipe1 1 } link n 5 := by
  obtain ⟨apart, send, recv, second⟩ := bytes
  exact ⟨apart, by grind, by grind [drain], by grind [drain]⟩

theorem hear_iff (bytes : Bytes o link n 0) : 0 < o.pipes link.pipe1 ↔ 4 ≤ n := by
  cases test : link.test with
  | send =>
      have sum := bytes.send test
      omega
  | recv =>
      have sum := bytes.recv test
      omega

theorem await_iff (bytes : Bytes o link 5 m) : 0 < o.pipes link.pipe2 ↔ 4 ≤ m := by
  have sum := bytes.second
  omega

theorem heed_iff (bytes : Bytes o link n 4) (test : link.test = .recv) (greeted : 4 ≤ n) :
    0 < o.pipes link.pipe1 ↔ 7 ≤ n := by
  have sum := bytes.recv test
  omega

end Bytes

end Numbers

theorem Idles.still {c : Call} (idles : Idles c) : c.Still := by
  cases c <;> first | exact idles.elim | exact idles

theorem Idles.nothing {c : Call} (idles : Idles c) (o : Objects) (t : Table) (r : Reply) :
    o.answer t r c = o ∧ t.answer o r c = t := by
  cases c <;> first | exact idles.elim | exact ⟨rfl, rfl⟩

namespace Pairing.Holds

variable {base : Table} {initial : List String} {k : Kernel} {c : Call} {cont : Reply → Code Unit} {r : Reply}
  {link : Link} {child old n s m cs : Nat} {ts tc : Table}

theorem server_step (holds : Holds ⟨link, child, old, n, s, ts, m, cs, tc⟩ base initial k)
    (asked : k.world.request (serverAt ⟨link, child, old, n, s, ts, m, cs, tc⟩) = some (c, cont))
    (here : ¬ (link.test = .send ∧ n = 7))
    (permitted : k.permits (serverAt ⟨link, child, old, n, s, ts, m, cs, tc⟩) c r = true)
    (possible : k.world.possible (serverAt ⟨link, child, old, n, s, ts, m, cs, tc⟩) c r.value = true) (plain : c.Plain) :
    ∃ n' s' ts', Holds ⟨link, child, old, n', s', ts', m, cs, tc⟩ base initial
      (k.next (serverAt ⟨link, child, old, n, s, ts, m, cs, tc⟩) c cont r) := by
  have doing := holds.server here
  have table := doing.table_eq
  have ordered : Ordered link.test n m := holds.ordered
  have bytes : Bytes k.objects link n m := holds.bytes
  have sockets : Connecting initial k n s m cs ∨ Refused k old ts tc := holds.sockets
  have procs : (k.next (serverAt ⟨link, child, old, n, s, ts, m, cs, tc⟩) c cont r).world.procs.length = k.world.procs.length :=
    World.length_answer plain.2.2
  dsimp only at doing table
  obtain ⟨after, acts, rest⟩ := doing.asks asked
  cases acts with
  | idle idles =>
      refine ⟨n, s, ts, holds.server_next plain asked here (rest r _ rfl) (idles.nothing _ _ _).2.symm doing.equipped here
        ordered ?_ ?_⟩
      · rw [(idles.nothing _ _ _).1]
        exact bytes
      · exact idles.still.sockets (.inl rfl) (.inl rfl) sockets
  | @close _ _ fd _ spare =>
      have still : Call.Still (.close fd) := trivial
      refine ⟨n, s, ts.close fd, holds.server_next plain asked here (rest r _ rfl) rfl ?_ here ordered bytes ?_⟩
      · exact fun h needs => Table.has_close (fun found => spare h found needs) (doing.equipped h needs)
      · exact sockets.imp (·.keep still.kept (.inl rfl) (.inl rfl)) (·.keep still.kept (fun _ _ => Table.of_close) fun _ _ => id)
  | openServer =>
      have free : ts.free r.value = true := by simpa [Kernel.permits, table] using permitted
      refine ⟨1, k.objects.socketCount, _, holds.server_next plain asked here (rest r _ ⟨free, _, rfl⟩) rfl ?_ ?_ ?_ ?_ ?_⟩
      · intro h needs
        rcases @needs_server_open link s h _ needs with rfl | needs
        · exact ⟨r.value, by simp⟩
        · exact Table.has_install free (doing.equipped h needs)
      · omega
      · exact ordered.server_succ (by omega) (by omega)
      · obtain ⟨apart, send, recv, second⟩ := bytes
        exact ⟨apart, send, recv, second⟩
      · exact sockets.imp (·.openServer (Kernel.path_next rfl) procs rfl)
          (·.opens (Kernel.path_next rfl) rfl (fun _ _ => Table.of_install) fun _ _ => .inr)
  | @bind _ _ _ fd found =>
      have early : m = 0 := by have greeted := ordered.greeted; omega
      rw [← table] at found
      refine ⟨2, s, ts, holds.server_next plain asked here (rest r _ rfl) rfl ?_ ?_ ?_ ?_ ?_⟩
      · exact fun h needs => doing.equipped h (needs_server_succ (by decide) needs)
      · omega
      · exact ordered.server_succ (by omega) (by omega)
      · exact bytes.server_succ (Objects.pipes_answer trivial) (by decide)
      · rcases sockets with connecting | refused
        · obtain ⟨objects, paths⟩ := Kernel.possible_bind_absent found (connecting.absent (Nat.le_refl 1)) possible
          have present : serverPath ∈ k.world.linked (.bind fd serverPath) r.value := by
            rw [paths]
            exact List.mem_cons_self
          exact .inl (connecting.bind procs early present objects)
        · obtain ⟨objects, paths⟩ := Kernel.possible_bind_present found refused.present possible
          have same : (k.next (serverAt ⟨link, child, old, 1, s, ts, m, cs, tc⟩) (.bind fd serverPath) cont r).world.paths =
            k.world.paths := paths
          exact .inr (refused.keep (.of_objects objects (by rw [same]) procs) (fun _ _ => id) fun _ _ => id)
  | @listen _ _ _ fd found =>
      have early : m = 0 := by have greeted := ordered.greeted; omega
      rw [← table] at found
      refine ⟨3, s, ts, holds.server_next plain asked here (rest r _ rfl) rfl ?_ ?_ ?_ ?_ ?_⟩
      · exact fun h needs => doing.equipped h (needs_server_succ (by decide) needs)
      · omega
      · exact ordered.server_succ (by omega) (by omega)
      · exact bytes.server_succ (Objects.pipes_answer trivial) (by decide)
      · rcases sockets with connecting | refused
        · exact .inl (connecting.listen (Kernel.path_next rfl) procs early
            (Kernel.permits_listen_bound found (connecting.bound rfl) permitted))
        · have fresh := (refused.server fd s (by rw [← table]; exact found)).2.2
          have objects := Kernel.permits_listen_fresh found fresh permitted
          exact .inr (refused.keep (.of_objects objects (Kernel.path_next rfl) procs) (fun _ _ => id) fun _ _ => id)
  | @greet _ _ _ fd found =>
      have still : Call.Still (.write fd) := trivial
      rw [← table] at found
      refine ⟨4, s, ts, holds.server_next plain asked here (rest r _ rfl) rfl ?_ ?_ ?_ ?_ ?_⟩
      · exact fun h needs => doing.equipped h (needs_server_succ (by decide) needs)
      · omega
      · exact ordered.server_succ (by omega) (by omega)
      · rw [← table, Kernel.permits_write found permitted]
        exact bytes.greet
      · exact still.sockets (.inr (by decide)) (.inl rfl) sockets
  | @accept _ _ _ fd found =>
      rw [← table] at found
      rcases sockets with connecting | refused
      · obtain ⟨waiting, free, objects⟩ :=
          Kernel.permits_accept_listening found (connecting.listening (by decide) (Nat.le_refl 4)) permitted
        rw [table] at free objects
        have nonneg := (Table.free_iff.mp free).1
        refine ⟨5, s, ts.install r.value (.socket k.objects.socketCount),
          holds.server_next plain asked here (rest r _ (.inr ⟨free, _, rfl⟩)) (by simp [Table.answer, nonneg]) ?_ ?_ ?_ ?_ ?_⟩
        · exact fun h needs => Table.has_install free (doing.equipped h (needs_server_succ (by decide) needs))
        · omega
        · exact ordered.server_succ (by omega) (by omega)
        · exact bytes.server_succ (Objects.pipes_answer trivial) (by decide)
        · have late : 3 ≤ m := by omega
          have backlog : min 1 (m - 2) = 1 := by omega
          rw [backlog, ← table] at objects
          exact .inl (connecting.accept (Kernel.path_next rfl) procs late objects)
      · have fresh := (refused.server fd s (by rw [← table]; exact found)).2.2
        obtain ⟨failed, objects⟩ := Kernel.permits_accept_fresh found fresh permitted
        refine ⟨5, s, ts, holds.server_next plain asked here (rest r _ (.inl ⟨failed, rfl⟩)) (by simp [Table.answer, failed])
          ?_ ?_ ?_ ?_ ?_⟩
        · exact fun h needs => doing.equipped h (needs_server_succ (by decide) needs)
        · omega
        · exact ordered.server_succ (by omega) (by omega)
        · exact bytes.server_succ (Objects.pipes_answer trivial) (by decide)
        · exact .inr (refused.keep (.of_objects objects (Kernel.path_next rfl) procs) (fun _ _ => id) fun _ _ => id)
  | @await _ _ _ fd found =>
      have still : Call.Still (.read fd) := trivial
      rw [← table] at found
      obtain ⟨some, objects⟩ := Kernel.permits_read found permitted fun empty => by
        have early : m ≤ 3 := by have full := bytes.await_iff; omega
        exact (holds.client fun left => absurd left.2 (by change ¬ m = 6; omega)).held (by simp) (.inr ⟨rfl, early⟩)
      refine ⟨6, s, ts, holds.server_next plain asked here (rest r _ rfl) rfl ?_ ?_ ?_ ?_ ?_⟩
      · exact fun h needs => doing.equipped h (needs_server_succ (by decide) needs)
      · omega
      · exact ordered.server_succ (fun _ => bytes.await_iff.mp some) (by omega)
      · rw [← table, objects]
        exact bytes.await some
      · exact still.sockets (.inr (by decide)) (.inl rfl) sockets
  | @part _ _ _ fd recv found =>
      have still : Call.Still (.write fd) := trivial
      rw [← table] at found
      refine ⟨7, s, ts, holds.server_next plain asked here (rest r _ rfl) rfl ?_ ?_ ?_ ?_ ?_⟩
      · exact fun h needs => doing.equipped h (needs_server_succ (by decide) needs)
      · rintro ⟨send, -⟩
        exact absurd (send.symm.trans recv) (by decide)
      · exact ordered.server_succ (by omega) (by omega)
      · rw [← table, Kernel.permits_write found permitted]
        exact bytes.part recv
      · exact still.sockets (.inr (by decide)) (.inl rfl) sockets
  | leaveServer => exact (plain.1 rfl).elim
  | collectClient => exact (plain.2.1 rfl).elim

/-- The processes that have descriptors. -/
theorem active {g : Pairing} (holds : g.Holds base initial k) {index : Nat} (asks : (k.world.request index).isSome = true) :
    index = g.serverAt ∧ ¬ g.ServerLeft ∨ index = g.clientAt ∧ ¬ g.ClientLeft := by
  obtain ⟨request, asked⟩ := Option.isSome_iff_exists.mp asks
  obtain ⟨p, found, asked⟩ := Option.bind_eq_some_iff.mp asked
  have running := (Proc.request_eq_some.mp asked).1
  have inside := (List.getElem?_eq_some_iff.mp found).1
  have last := holds.last
  have stays : index = g.child → ¬ g.ServerLeft ∧ ¬ g.ClientLeft := by
    rintro rfl
    refine not_or.mp fun left => ?_
    obtain ⟨q, there, killed⟩ := holds.left left
    obtain rfl := Option.some_inj.mp (there.symm.trans found)
    rw [running] at killed
    contradiction
  by_cases parent : index = 0
  · rcases serverAt_cases g with ⟨send, -, client⟩ | ⟨recv, server, -⟩
    · exact .inr ⟨by omega, fun left => absurd (send.symm.trans left.1) (by decide)⟩
    · exact .inl ⟨by omega, fun left => absurd (recv.symm.trans left.1) (by decide)⟩
  · by_cases child : index = g.child
    · rcases serverAt_cases g with ⟨-, server, -⟩ | ⟨-, -, client⟩
      · exact .inl ⟨by omega, (stays child).1⟩
      · exact .inr ⟨by omega, (stays child).2⟩
    · have reaped := holds.earlier index p (by omega) (by omega) found
      rw [running] at reaped
      contradiction

/-- Nobody holds a socket of an earlier invocation. -/
theorem not_held_stale {g : Pairing} (holds : g.Holds base initial k) (refused : Refused k g.old g.ts g.tc) {x : Nat}
    (named : k.objects.names.lookup serverPath = some x) : k.held (.socket x) = false := by
  rw [← Bool.not_eq_true]
  intro held
  obtain ⟨index, -, asks, fd, found⟩ := Kernel.held_iff.mp held
  have stale := refused.stale x named
  rcases holds.active asks with ⟨rfl, stays⟩ | ⟨rfl, stays⟩
  · rw [(holds.server stays).table_eq] at found
    have recent := (refused.server fd x found).1
    omega
  · rw [(holds.client stays).table_eq] at found
    have recent := (refused.client fd x found).1
    omega

theorem client_step (holds : Holds ⟨link, child, old, n, s, ts, m, cs, tc⟩ base initial k)
    (asked : k.world.request (clientAt ⟨link, child, old, n, s, ts, m, cs, tc⟩) = some (c, cont))
    (here : ¬ (link.test = .recv ∧ m = 6))
    (permitted : k.permits (clientAt ⟨link, child, old, n, s, ts, m, cs, tc⟩) c r = true) (plain : c.Plain) :
    ∃ m' cs' tc', Holds ⟨link, child, old, n, s, ts, m', cs', tc'⟩ base initial
      (k.next (clientAt ⟨link, child, old, n, s, ts, m, cs, tc⟩) c cont r) := by
  have doing := holds.client here
  have table := doing.table_eq
  have ordered : Ordered link.test n m := holds.ordered
  have bytes : Bytes k.objects link n m := holds.bytes
  have sockets : Connecting initial k n s m cs ∨ Refused k old ts tc := holds.sockets
  have procs : (k.next (clientAt ⟨link, child, old, n, s, ts, m, cs, tc⟩) c cont r).world.procs.length = k.world.procs.length :=
    World.length_answer plain.2.2
  dsimp only at doing table
  obtain ⟨after, acts, rest⟩ := doing.asks asked
  cases acts with
  | idle idles =>
      refine ⟨m, cs, tc, holds.client_next plain asked here (rest r _ rfl) (idles.nothing _ _ _).2.symm doing.equipped here
        ordered ?_ ?_⟩
      · rw [(idles.nothing _ _ _).1]
        exact bytes
      · exact idles.still.sockets (.inl rfl) (.inl rfl) sockets
  | @close _ _ fd _ spare =>
      have still : Call.Still (.close fd) := trivial
      refine ⟨m, cs, tc.close fd, holds.client_next plain asked here (rest r _ rfl) rfl ?_ here ordered bytes ?_⟩
      · exact fun h needs => Table.has_close (fun found => spare h found needs) (doing.equipped h needs)
      · exact sockets.imp (·.keep still.kept (.inl rfl) (.inl rfl)) (·.keep still.kept (fun _ _ => id) fun _ _ => Table.of_close)
  | @hear _ _ _ fd found =>
      have still : Call.Still (.read fd) := trivial
      rw [← table] at found
      obtain ⟨some, objects⟩ := Kernel.permits_read found permitted fun empty => by
        have early : n ≤ 3 := by have full := bytes.hear_iff; omega
        exact (holds.server fun left => absurd left.2 (by change ¬ n = 7; omega)).held (by simp) (.inl ⟨rfl, .inl early⟩)
      refine ⟨1, cs, tc, holds.client_next plain asked here (rest r _ rfl) rfl ?_ ?_ ?_ ?_ ?_⟩
      · exact fun h needs => doing.equipped h (needs_client_succ needs)
      · omega
      · exact ordered.client_succ (fun _ => bytes.hear_iff.mp some) (by omega) (by omega) (by omega)
      · rw [← table, objects]
        exact bytes.hear some
      · exact still.sockets (.inl rfl) (.inr (by decide)) sockets
  | openClient =>
      have free : tc.free r.value = true := by simpa [Kernel.permits, table] using permitted
      refine ⟨2, k.objects.socketCount, _, holds.client_next plain asked here (rest r _ ⟨free, _, rfl⟩) rfl ?_ ?_ ?_ ?_ ?_⟩
      · exact fun h needs => Table.has_install free (doing.equipped h (needs_client_succ needs))
      · omega
      · exact ordered.client_succ (by omega) (by omega) (by omega) (by omega)
      · exact bytes.client_succ (Objects.pipes_answer trivial) (by decide)
      · exact sockets.imp (·.openClient (Kernel.path_next rfl) procs rfl)
          (·.opens (Kernel.path_next rfl) rfl (fun _ _ => .inr) fun _ _ => Table.of_install)
  | @connect _ _ _ fd found =>
      rw [← table] at found
      refine ⟨3, cs, tc, holds.client_next plain asked here (rest r _ rfl) rfl ?_ ?_ ?_ ?_ ?_⟩
      · exact fun h needs => doing.equipped h (needs_client_succ needs)
      · omega
      · exact ordered.client_succ (by omega) (by omega) (by omega) (by omega)
      · exact bytes.client_succ (Objects.pipes_answer trivial) (by decide)
      · rcases sockets with connecting | refused
        · obtain rfl : n = 4 := by
            have greeted := ordered.greeted (by decide)
            have accepted := connecting.accepted
            omega
          obtain ⟨present, named⟩ := connecting.present (by decide)
          have held : k.held (.socket s) = true := (holds.server fun left => absurd left.2 (by simp)).held (by simp)
            (.inr (.inr ⟨rfl, by simp, by simp⟩))
          exact .inl (connecting.connect (Kernel.path_next rfl) procs (Kernel.permits_connect_listening found
            (connecting.ready rfl) named present (connecting.listening (by decide) (by decide)) held permitted))
        · have objects := Kernel.permits_connect_refused found (fun x => holds.not_held_stale refused) permitted
          exact .inr (refused.keep (.of_objects objects (Kernel.path_next rfl) procs) (fun _ _ => id) fun _ _ => id)
  | @answer _ _ _ fd found =>
      have still : Call.Still (.write fd) := trivial
      rw [← table] at found
      refine ⟨4, cs, tc, holds.client_next plain asked here (rest r _ rfl) rfl ?_ ?_ ?_ ?_ ?_⟩
      · exact fun h needs => doing.equipped h (needs_client_succ needs)
      · omega
      · exact ordered.client_succ (by omega) (by omega) (by omega) (by omega)
      · rw [← table, Kernel.permits_write found permitted]
        exact bytes.answer
      · exact still.sockets (.inl rfl) (.inr (by decide)) sockets
  | @heed _ _ _ fd recv found =>
      have still : Call.Still (.read fd) := trivial
      rw [← table] at found
      have greeted : 4 ≤ n := ordered.greeted (by decide)
      obtain ⟨some, objects⟩ := Kernel.permits_read found permitted fun empty => by
        have early : n ≤ 6 := by have full := bytes.heed_iff recv greeted; omega
        exact (holds.server fun left => absurd left.2 (by change ¬ n = 7; omega)).held (by simp) (.inl ⟨rfl, .inr ⟨early, recv⟩⟩)
      refine ⟨5, cs, tc, holds.client_next plain asked here (rest r _ rfl) rfl ?_ ?_ ?_ ?_ ?_⟩
      · exact fun h needs => doing.equipped h (needs_client_succ needs)
      · omega
      · exact ordered.client_succ (by omega) (fun _ => (bytes.heed_iff recv greeted).mp some) (by omega)
          fun send => absurd (send.symm.trans recv) (by decide)
      · rw [← table, objects]
        exact bytes.heed recv some
      · exact still.sockets (.inl rfl) (.inr (by decide)) sockets
  | leaveClient => exact (plain.1 rfl).elim
  | collectServer => exact (plain.2.1 rfl).elim

/-- The child of `send_test` kills itself. -/
theorem server_leaves (holds : Holds ⟨link, child, old, 6, s, ts, m, cs, tc⟩ base initial k) (test : link.test = .send)
    (asked : k.world.request child = some (.killSelf, cont)) (killed : r.value = 0) :
    Holds ⟨link, child, old, 7, s, ts, m, cs, tc⟩ base initial (k.next child .killSelf cont r) := by
  have still : Call.Still .killSelf := trivial
  obtain ⟨p, found, asks⟩ := Option.bind_eq_some_iff.mp asked
  obtain ⟨last, parent, earlier, -⟩ := @frame base initial k _ _ _ cont r holds asked (by simp) (by simp) (.inr rfl)
  have ordered : Ordered link.test 6 m := holds.ordered
  have apart : clientAt ⟨link, child, old, 6, s, ts, m, cs, tc⟩ ≠ child := by
    have positive : 1 ≤ child := holds.positive
    simp only [clientAt, test]
    omega
  refine ⟨fun stays => (stays ⟨test, rfl⟩).elim, fun still => (holds.client still).kept apart (by simp), fun _ => ?_,
    holds.positive, last, parent, earlier, ordered.server_succ (by omega) (by omega), ?_, ?_⟩
  · exact ⟨_, World.procs_answer_self found asks, by simp [Proc.resume, killed]⟩
  · obtain ⟨apart, send, recv, second⟩ := holds.bytes
    exact ⟨apart, send, fun recv => absurd (test.symm.trans recv) (by decide), second⟩
  · exact still.sockets (.inr (by simp)) (.inl rfl) holds.sockets

/-- The child of `recv_test` does. -/
theorem client_leaves (holds : Holds ⟨link, child, old, n, s, ts, 5, cs, tc⟩ base initial k) (test : link.test = .recv)
    (asked : k.world.request child = some (.killSelf, cont)) (killed : r.value = 0) :
    Holds ⟨link, child, old, n, s, ts, 6, cs, tc⟩ base initial (k.next child .killSelf cont r) := by
  have still : Call.Still .killSelf := trivial
  obtain ⟨p, found, asks⟩ := Option.bind_eq_some_iff.mp asked
  obtain ⟨last, parent, earlier, -⟩ := @frame base initial k _ _ _ cont r holds asked (by simp) (by simp) (.inr rfl)
  have ordered : Ordered link.test n 5 := holds.ordered
  have apart : serverAt ⟨link, child, old, n, s, ts, 5, cs, tc⟩ ≠ child := by
    have positive : 1 ≤ child := holds.positive
    simp only [serverAt, test]
    omega
  refine ⟨fun still => (holds.server still).kept apart (by simp), fun stays => (stays ⟨test, rfl⟩).elim, fun _ => ?_,
    holds.positive, last, parent, earlier, ?_, ?_, ?_⟩
  · exact ⟨_, World.procs_answer_self found asks, by simp [Proc.resume, killed]⟩
  · exact ordered.client_succ (by omega) (by omega) (by omega) fun send => absurd (send.symm.trans test) (by decide)
  · obtain ⟨apart, send, recv, second⟩ := holds.bytes
    exact ⟨apart, fun send => absurd (send.symm.trans test) (by decide), recv, second⟩
  · exact still.sockets (.inl rfl) (.inr (by simp)) holds.sockets

end Pairing.Holds

end Oreo.OsEval
