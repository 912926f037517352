import Oreo.OsEval.Kernel
import Oreo.Transition.Typestate

namespace Oreo.OsEval

open Oreo.Transition Interaction

/-! # How the processes of a socket test conduct themselves

The process that listens opens its socket (0), binds it (1), listens (2), writes to `fds1` (3), accepts
(4) and reads from `fds2` (5). The one that connects reads from `fds1` (0), opens its socket (1), connects
(2) and writes to `fds2` (3). In `recv_test` the first then writes to `fds1` (6), and the second reads
from it (4). The child kills itself in the end, and the parent waits for it.
-/

/-- An invocation whose pipes are open, with the tests that come after it. -/
structure Link where
  test : SocketTest
  pipe1 : Nat
  pipe2 : Nat
  todo : List SocketTest

inductive Stage where
  | idle (todo : List SocketTest)
  | onePipe (test : SocketTest) (pipe1 : Nat) (todo : List SocketTest)
  | twoPipes (link : Link)
  /-- How many of its steps the process has taken, and its socket. -/
  | server (link : Link) (n : Nat) (socket : Nat)
  | client (link : Link) (n : Nat) (socket : Nat)

def Link.child (link : Link) : Stage :=
  match link.test with
  | .send => .server link 0 0
  | .recv => .client link 0 0

def Link.parent (link : Link) : Stage :=
  match link.test with
  | .send => .client link 0 0
  | .recv => .server link 0 0

/-- The process is one of the two of an invocation. -/
def Stage.Paired : Stage → Prop
  | .server _ _ _ | .client _ _ _ => True
  | _ => False

/-- What the process is going to use, or the other one relies on. -/
def Stage.Needs : Stage → Resource → Prop
  | .idle _, _ => False
  | .onePipe _ pipe1 _, h => h = .readEnd pipe1 ∨ h = .writeEnd pipe1
  | .twoPipes link, h =>
      h = .readEnd link.pipe1 ∨ h = .writeEnd link.pipe1 ∨ h = .readEnd link.pipe2 ∨ h = .writeEnd link.pipe2
  | .server link n socket, h =>
      h = .writeEnd link.pipe1 ∧ (n ≤ 3 ∨ n ≤ 6 ∧ link.test = .recv) ∨ h = .readEnd link.pipe2 ∧ n ≤ 5 ∨
        h = .socket socket ∧ 1 ≤ n ∧ n ≤ 4
  | .client link n _, h =>
      h = .readEnd link.pipe1 ∧ (n = 0 ∨ n ≤ 4 ∧ link.test = .recv) ∨ h = .writeEnd link.pipe2 ∧ n ≤ 3

/-- Where a process is, with its descriptors. -/
structure View where
  table : Table
  stage : Stage

/-- The calls that touch no descriptor, and those that leave everything as it is. -/
def Idles : Call → Prop
  | .clockGettime | .send _ _ | .recv _ _ => True
  | .remove path => path ≠ serverPath
  | _ => False

def Piped (t : Table) (r : Reply) (pipe : Nat) (t' : Table) : Prop :=
  t.free r.ends.1 = true ∧ t.free r.ends.2 = true ∧ r.ends.1 ≠ r.ends.2 ∧
    t' = (t.install r.ends.1 (.readEnd pipe)).install r.ends.2 (.writeEnd pipe)

/-- Each call of a process in the order of the steps, with what can be seen of it. The descriptors of
`base` are open before the first invocation. -/
inductive Acts (base : Table) : Protocol View Call Reply where
  | idle {v c} : Idles c → Acts base v c fun _ v' => v' = v
  | close {t st fd} : st.Paired → (∀ h, t.find fd = some h → ¬ st.Needs h) →
      Acts base ⟨t, st⟩ (.close fd) fun _ v => v = ⟨t.close fd, st⟩
  | pipe1 {t test todo} :
      Acts base ⟨t, .idle (test :: todo)⟩ .pipe fun r v => ∃ pipe t', Piped t r pipe t' ∧ v = ⟨t', .onePipe test pipe todo⟩
  | pipe2 {t test todo pipe1} :
      Acts base ⟨t, .onePipe test pipe1 todo⟩ .pipe fun r v =>
        ∃ pipe t', pipe1 ≠ pipe ∧ Piped t r pipe t' ∧ v = ⟨t', .twoPipes ⟨test, pipe1, pipe, todo⟩⟩
  | fork {t link} :
      Acts base ⟨t, .twoPipes link⟩ .fork fun r v =>
        r.value = 0 ∧ v = ⟨t, link.child⟩ ∨ 0 < r.value ∧ v = ⟨t, link.parent⟩
  | openServer {t link s} :
      Acts base ⟨t, .server link 0 s⟩ .socket fun r v =>
        t.free r.value = true ∧ ∃ s', v = ⟨t.install r.value (.socket s'), .server link 1 s'⟩
  | bind {t link s fd} : t.find fd = some (.socket s) →
      Acts base ⟨t, .server link 1 s⟩ (.bind fd serverPath) fun _ v => v = ⟨t, .server link 2 s⟩
  | listen {t link s fd} : t.find fd = some (.socket s) →
      Acts base ⟨t, .server link 2 s⟩ (.listen fd) fun _ v => v = ⟨t, .server link 3 s⟩
  | greet {t link s fd} : t.find fd = some (.writeEnd link.pipe1) →
      Acts base ⟨t, .server link 3 s⟩ (.write fd) fun _ v => v = ⟨t, .server link 4 s⟩
  | accept {t link s fd} : t.find fd = some (.socket s) →
      Acts base ⟨t, .server link 4 s⟩ (.accept fd) fun r v =>
        r.value = -1 ∧ v = ⟨t, .server link 5 s⟩ ∨
          t.free r.value = true ∧ ∃ s', v = ⟨t.install r.value (.socket s'), .server link 5 s⟩
  | await {t link s fd} : t.find fd = some (.readEnd link.pipe2) →
      Acts base ⟨t, .server link 5 s⟩ (.read fd) fun _ v => v = ⟨t, .server link 6 s⟩
  | part {t link s fd} : link.test = .recv → t.find fd = some (.writeEnd link.pipe1) →
      Acts base ⟨t, .server link 6 s⟩ (.write fd) fun _ v => v = ⟨t, .server link 7 s⟩
  | hear {t link s fd} : t.find fd = some (.readEnd link.pipe1) →
      Acts base ⟨t, .client link 0 s⟩ (.read fd) fun _ v => v = ⟨t, .client link 1 s⟩
  | openClient {t link s} :
      Acts base ⟨t, .client link 1 s⟩ .socket fun r v =>
        t.free r.value = true ∧ ∃ s', v = ⟨t.install r.value (.socket s'), .client link 2 s'⟩
  | connect {t link s fd} : t.find fd = some (.socket s) →
      Acts base ⟨t, .client link 2 s⟩ (.connect fd serverPath) fun _ v => v = ⟨t, .client link 3 s⟩
  | answer {t link s fd} : t.find fd = some (.writeEnd link.pipe2) →
      Acts base ⟨t, .client link 3 s⟩ (.write fd) fun _ v => v = ⟨t, .client link 4 s⟩
  | heed {t link s fd} : link.test = .recv → t.find fd = some (.readEnd link.pipe1) →
      Acts base ⟨t, .client link 4 s⟩ (.read fd) fun _ v => v = ⟨t, .client link 5 s⟩
  | leaveServer {t link s} : link.test = .send → Acts base ⟨t, .server link 6 s⟩ .killSelf fun _ _ => False
  | leaveClient {t link s} : link.test = .recv → Acts base ⟨t, .client link 5 s⟩ .killSelf fun _ _ => False
  | collectClient {t link s} : link.test = .recv → (∀ fd, t.find fd = base.find fd) →
      Acts base ⟨t, .server link 7 s⟩ .wait fun _ v => v = ⟨t, .idle link.todo⟩
  | collectServer {t link s} : link.test = .send → (∀ fd, t.find fd = base.find fd) →
      Acts base ⟨t, .client link 4 s⟩ .wait fun _ v => v = ⟨t, .idle link.todo⟩

/-! ## What a process has opened since -/

section Tables

variable {base t : Table} {opened : List Int} {fd : Int} {h : Resource}

def Table.closeAll (t : Table) (fds : List Int) : Table := fds.foldl Table.close t

@[simp] theorem Table.find_closeAll {fds : List Int} : (t.closeAll fds).find fd = if fd ∈ fds then none else t.find fd := by
  induction fds generalizing t with
  | nil => simp [Table.closeAll]
  | cons other fds ih =>
      change ((t.close other).closeAll fds).find fd = _
      rw [ih, Table.find_close]
      by_cases same : fd = other <;> simp [same]

theorem Table.find_install_of_free {other : Int} {h' : Resource} (h : Resource) (free : t.free fd = true)
    (found : t.find other = some h') : (t.install fd h).find other = some h' := by
  rw [find_install, if_neg, found]
  rintro rfl
  rw [(free_iff.mp free).2] at found
  contradiction

/-- `t` differs from `base` in descriptors among `opened` only, which are not open in `base`. -/
structure Table.Over (base t : Table) (opened : List Int) : Prop where
  outside : ∀ fd, fd ∉ opened → t.find fd = base.find fd
  inside : ∀ fd ∈ opened, base.find fd = none

namespace Table.Over

theorem absent (grown : Over base t opened) (missing : t.find fd = none) : base.find fd = none := by
  by_cases inside : fd ∈ opened
  · exact grown.inside fd inside
  · rw [← grown.outside fd inside, missing]

theorem install (grown : Over base t opened) (free : t.free fd = true) : Over base (t.install fd h) (fd :: opened) where
  outside other out := by
    obtain ⟨different, out⟩ := not_or.mp (mt List.mem_cons.mpr out)
    rw [find_install, if_neg different, grown.outside other out]
  inside other inside := by
    rcases List.mem_cons.mp inside with rfl | inside
    · exact grown.absent (free_iff.mp free).2
    · exact grown.inside other inside

theorem closeAll {fds : List Int} (grown : Over base t opened) (absent : ∀ fd ∈ fds, base.find fd = none) :
    Over base (t.closeAll fds) opened where
  outside fd out := by
    rw [find_closeAll]
    split
    · next closed => exact (absent fd closed).symm
    · exact grown.outside fd out
  inside := grown.inside

/-- Once all of them are closed. -/
theorem restored (grown : Over base t opened) (closed : ∀ fd ∈ opened, t.find fd = none) (fd : Int) :
    t.find fd = base.find fd := by
  by_cases inside : fd ∈ opened
  · rw [closed fd inside, grown.inside fd inside]
  · exact grown.outside fd inside

end Table.Over

end Tables

/-! ## The code follows the steps -/

section Rules

variable {base t : Table} {st : Stage} {v : View} {c : Call} {after : Reply → View → Prop} {β : Type} {last : β → View → Prop}

theorem follows_call {f : Int → Code β} (allowed : Acts base v c after)
    (rest : ∀ r v', after r v' → Follows (Acts base) (f r.value) last v') : Follows (Acts base) (call c >>= f) last v :=
  .call allowed rest

theorem follows_pipe {f : Int × Int → Code β} (allowed : Acts base v .pipe after)
    (rest : ∀ r v', after r v' → Follows (Acts base) (f r.ends) last v') : Follows (Acts base) (pipe >>= f) last v :=
  .call allowed rest

theorem follows_idle {α : Type} {p : Code α} {f : α → Code β} (idles : Calls Idles p)
    (rest : ∀ a, Follows (Acts base) (f a) last v) : Follows (Acts base) (p >>= f) last v := by
  refine (Follows.of_calls (fun _ => .idle) idles).bind ?_
  rintro a _ rfl
  exact rest a

theorem follows_closeAll {fds : List Int} {f : Unit → Code β} (paired : st.Paired)
    (spare : ∀ fd ∈ fds, ∀ h, t.find fd = some h → ¬ st.Needs h)
    (rest : Follows (Acts base) (f ()) last ⟨t.closeAll fds, st⟩) : Follows (Acts base) (closeAll fds >>= f) last ⟨t, st⟩ := by
  induction fds generalizing t with
  | nil => exact rest
  | cons fd fds ih =>
      simp only [closeAll, bind_assoc]
      refine follows_call (.close paired (spare fd List.mem_cons_self)) ?_
      rintro r _ rfl
      exact ih (fun other member h found => spare other (List.mem_cons_of_mem fd member) h (Table.of_close found)) rest

theorem idles_remove : Idles (.remove sock) := by
  change sock ≠ serverPath
  decide

theorem idles_timedLoop {transfer : Call} (idles : Idles transfer) {iter remaining : Nat} {vars : Vars}
    (fits : iter ≤ vars.timeArray.length) : Calls Idles (timedLoop transfer iter remaining vars) := by
  induction remaining generalizing vars with
  | zero => exact .pure _
  | succ remaining ih =>
      have clock : Calls Idles clockGettime := .bind (.perform trivial) fun _ => .pure _
      unfold timedLoop
      split
      · next room =>
          refine .bind clock fun startTime => .bind (calls_call idles) fun _ => .bind clock fun endTime => ?_
          rw [Vars.addDiff_eq (List.getElem?_eq_getElem (Nat.lt_of_lt_of_le room fits)), pure_bind]
          exact ih (by simpa using fits)
      · exact .pure _

theorem idles_sendLoop (fdClient msgSize : Int) (remaining : Nat) (vars : Vars) :
    Calls Idles (sendLoop fdClient msgSize remaining vars) := by
  induction remaining generalizing vars with
  | zero => exact .pure _
  | succ remaining ih => exact .bind (calls_call trivial) fun _ => ih _

end Rules

/-- The process has opened the two pipes. -/
structure Opened (base t : Table) (fds1 fds2 : Int × Int) (link : Link) : Prop where
  grown : Table.Over base t [fds2.2, fds2.1, fds1.2, fds1.1]
  distinct : [fds2.2, fds2.1, fds1.2, fds1.1].Nodup
  others : link.pipe1 ≠ link.pipe2
  read1 : t.find fds1.1 = some (.readEnd link.pipe1)
  write1 : t.find fds1.2 = some (.writeEnd link.pipe1)
  read2 : t.find fds2.1 = some (.readEnd link.pipe2)
  write2 : t.find fds2.2 = some (.writeEnd link.pipe2)

section Pipes

variable {base t t1 t2 : Table} {r r1 r2 : Reply} {pipe : Nat} {opened : List Int}

theorem Piped.grown (piped : Piped t r pipe t1) (grown : Table.Over base t opened) :
    Table.Over base t1 (r.ends.2 :: r.ends.1 :: opened) := by
  obtain ⟨free1, free2, different, rfl⟩ := piped
  refine (grown.install free1).install ?_
  simpa [Table.free_iff, different.symm] using free2

theorem Piped.found (piped : Piped t r pipe t1) :
    t1.find r.ends.1 = some (.readEnd pipe) ∧ t1.find r.ends.2 = some (.writeEnd pipe) := by
  obtain ⟨-, -, different, rfl⟩ := piped
  simp [different]

theorem Piped.keeps (piped : Piped t r pipe t1) {fd : Int} {h : Resource} (found : t.find fd = some h) :
    t1.find fd = some h ∧ fd ≠ r.ends.1 ∧ fd ≠ r.ends.2 := by
  obtain ⟨free1, free2, -, rfl⟩ := piped
  have other {fd' : Int} (free : t.free fd' = true) : fd ≠ fd' := by
    rintro rfl
    simp [Table.free_iff, found] at free
  simp [other free1, other free2, found]

theorem Piped.both {link : Link} (piped1 : Piped t r1 link.pipe1 t1) (piped2 : Piped t1 r2 link.pipe2 t2)
    (kept : ∀ fd, t.find fd = base.find fd) (others : link.pipe1 ≠ link.pipe2) : Opened base t2 r1.ends r2.ends link where
  grown := piped2.grown (piped1.grown ⟨fun fd _ => kept fd, by simp⟩)
  distinct := by
    have read := piped2.keeps piped1.found.1
    have write := piped2.keeps piped1.found.2
    have first := piped1.2.2.1
    have second := piped2.2.2.1
    grind
  others := others
  read1 := (piped2.keeps piped1.found.1).1
  write1 := (piped2.keeps piped1.found.2).1
  read2 := piped2.found.1
  write2 := piped2.found.2

end Pipes

section Processes

variable {base t : Table} {fds1 fds2 : Int × Int} {link : Link} {β : Type} {last : β → View → Prop} {s : Nat}

theorem follows_serve {f : Int × Int → Code β} (failed : base.find (-1) = none) (opened : Opened base t fds1 fds2 link)
    (rest : ∀ t' s fdServer fdConnect, t'.find fds1.2 = some (.writeEnd link.pipe1) →
      (∀ fd, (t'.closeAll [fdServer, fdConnect, fds1.2, fds2.1]).find fd = base.find fd) →
        Follows (Acts base) (f (fdServer, fdConnect)) last ⟨t', .server link 6 s⟩) :
    Follows (Acts base) (serve fds1 fds2 >>= f) last ⟨t, .server link 0 s⟩ := by
  obtain ⟨grown, distinct, others, read1, write1, read2, write2⟩ := opened
  obtain ⟨a, b⟩ := fds1
  obtain ⟨c, d⟩ := fds2
  dsimp only at grown distinct read1 write1 read2 write2 rest
  have other : b ≠ a ∧ b ≠ d ∧ c ≠ a ∧ c ≠ d := by grind
  have grown : Table.Over base (t.closeAll [a, d]) [d, c, b, a] :=
    grown.closeAll fun fd member => grown.inside fd (by simp at member ⊢; omega)
  have closed : ∀ fd ∈ [a, d], (t.closeAll [a, d]).find fd = none := fun fd member => by rw [Table.find_closeAll, if_pos member]
  have write : (t.closeAll [a, d]).find b = some (.writeEnd link.pipe1) := by simpa [other] using write1
  have read : (t.closeAll [a, d]).find c = some (.readEnd link.pipe2) := by simpa [other] using read2
  simp only [serve, bind_assoc]
  refine follows_closeAll trivial ?_ ?_
  · intro fd member h found
    simp only [List.mem_cons, List.not_mem_nil, or_false] at member
    rcases member with rfl | rfl
    · obtain rfl := Option.some_inj.mp (read1.symm.trans found)
      simp [Stage.Needs, others]
    · obtain rfl := Option.some_inj.mp (write2.symm.trans found)
      simp [Stage.Needs, others.symm]
  generalize t.closeAll [a, d] = t at grown closed write read ⊢
  refine follows_call .openServer ?_
  rintro ⟨fdServer, _, _⟩ _ ⟨free, s', rfl⟩
  have grown := @Table.Over.install base _ _ _ (.socket s') grown free
  have write := Table.find_install_of_free (.socket s') free write
  have read := Table.find_install_of_free (.socket s') free read
  refine follows_call (.bind (by simp)) ?_
  rintro _ _ rfl
  refine follows_call (.listen (by simp)) ?_
  rintro _ _ rfl
  refine follows_call (.greet write) ?_
  rintro _ _ rfl
  refine follows_call (.accept (by simp)) ?_
  rintro ⟨fdConnect, _, _⟩ _ (⟨rfl, rfl⟩ | ⟨free', s'', rfl⟩)
  · refine follows_call (.await read) ?_
    rintro _ _ rfl
    refine rest _ s' fdServer (-1) write ((grown.closeAll ?_).restored ?_)
    · simp only [List.forall_mem_cons]
      exact ⟨grown.inside fdServer (by simp), failed, grown.inside b (by simp), grown.inside c (by simp), by simp⟩
    · intro fd member
      have shut := closed fd
      simp only [Table.find_closeAll, Table.find_install, List.mem_cons, List.not_mem_nil, or_false] at member shut ⊢
      grind
  · have grown := @Table.Over.install base _ _ _ (.socket s'') grown free'
    have write := Table.find_install_of_free (.socket s'') free' write
    have read := Table.find_install_of_free (.socket s'') free' read
    refine follows_call (.await read) ?_
    rintro _ _ rfl
    refine rest _ s' fdServer fdConnect write ((grown.closeAll ?_).restored ?_)
    · simp only [List.forall_mem_cons]
      exact ⟨grown.inside fdServer (by simp), grown.inside fdConnect (by simp), grown.inside b (by simp), grown.inside c (by simp),
        by simp⟩
    · intro fd member
      have shut := closed fd
      simp only [Table.find_closeAll, Table.find_install, List.mem_cons, List.not_mem_nil, or_false] at member shut ⊢
      grind

theorem follows_contact {f : Int → Code β} (opened : Opened base t fds1 fds2 link)
    (rest : ∀ t' s fdClient, t'.find fds1.1 = some (.readEnd link.pipe1) → t'.find fds2.2 = some (.writeEnd link.pipe2) →
      (∀ fd, (t'.closeAll [fdClient, fds1.1, fds2.2]).find fd = base.find fd) →
        Follows (Acts base) (f fdClient) last ⟨t', .client link 3 s⟩) :
    Follows (Acts base) (contact fds1 fds2 >>= f) last ⟨t, .client link 0 s⟩ := by
  obtain ⟨grown, distinct, others, read1, write1, read2, write2⟩ := opened
  obtain ⟨a, b⟩ := fds1
  obtain ⟨c, d⟩ := fds2
  dsimp only at grown distinct read1 write1 read2 write2 rest
  have other : a ≠ b ∧ a ≠ c ∧ d ≠ b ∧ d ≠ c := by grind
  have grown : Table.Over base (t.closeAll [b, c]) [d, c, b, a] :=
    grown.closeAll fun fd member => grown.inside fd (by simp at member ⊢; omega)
  have closed : ∀ fd ∈ [b, c], (t.closeAll [b, c]).find fd = none := fun fd member => by rw [Table.find_closeAll, if_pos member]
  have read : (t.closeAll [b, c]).find a = some (.readEnd link.pipe1) := by simpa [other] using read1
  have write : (t.closeAll [b, c]).find d = some (.writeEnd link.pipe2) := by simpa [other] using write2
  simp only [contact, bind_assoc]
  refine follows_closeAll trivial ?_ ?_
  · intro fd member h found
    simp only [List.mem_cons, List.not_mem_nil, or_false] at member
    rcases member with rfl | rfl
    · obtain rfl := Option.some_inj.mp (write1.symm.trans found)
      simp [Stage.Needs, others]
    · obtain rfl := Option.some_inj.mp (read2.symm.trans found)
      simp [Stage.Needs, others.symm]
  generalize t.closeAll [b, c] = t at grown closed write read ⊢
  refine follows_call (.hear read) ?_
  rintro _ _ rfl
  refine follows_call .openClient ?_
  rintro ⟨fdClient, _, _⟩ _ ⟨free, s', rfl⟩
  have grown := @Table.Over.install base _ _ _ (.socket s') grown free
  have read := Table.find_install_of_free (.socket s') free read
  have write := Table.find_install_of_free (.socket s') free write
  refine follows_call (.connect (by simp)) ?_
  rintro _ _ rfl
  refine rest _ s' fdClient read write ((grown.closeAll ?_).restored ?_)
  · simp only [List.forall_mem_cons]
    exact ⟨grown.inside fdClient (by simp), grown.inside a (by simp), grown.inside d (by simp), by simp⟩
  · intro fd member
    have shut := closed fd
    simp only [Table.find_closeAll, Table.find_install, List.mem_cons, List.not_mem_nil, or_false] at member shut ⊢
    grind

variable {job : Job} {vars : Vars}

theorem follows_child {f : Vars → Code β} (failed : base.find (-1) = none) (opened : Opened base t fds1 fds2 link)
    (same : link.test = job.test) : Follows (Acts base) (child job fds1 fds2 vars >>= f) last ⟨t, link.child⟩ := by
  unfold child Link.child
  rw [same]
  cases test : job.test with
  | send =>
      simp only [SendTest.child, bind_assoc]
      refine follows_serve failed opened fun t' s fdServer fdConnect write restored => ?_
      refine follows_idle (calls_call idles_remove) fun _ => follows_closeAll trivial ?_ ?_
      · simp [Stage.Needs, same, test]
      · exact follows_call (.leaveServer (same.trans test)) fun _ _ => False.elim
  | recv =>
      simp only [RecvTest.child, bind_assoc]
      refine follows_contact opened fun t' s fdClient read write restored => ?_
      refine follows_idle (idles_sendLoop _ _ _ _) fun vars => follows_call (.answer write) ?_
      rintro _ _ rfl
      refine follows_call (.heed (same.trans test) read) ?_
      rintro _ _ rfl
      refine follows_closeAll trivial ?_ ?_
      · simp [Stage.Needs]
      · exact follows_call (.leaveClient (same.trans test)) fun _ _ => False.elim

theorem follows_parent {f : Vars → Code β} (failed : base.find (-1) = none) (opened : Opened base t fds1 fds2 link)
    (same : link.test = job.test) (fits : job.runs ≤ vars.timeArray.length)
    (rest : ∀ vars t', (∀ fd, t'.find fd = base.find fd) → Follows (Acts base) (f vars) last ⟨t', .idle link.todo⟩) :
    Follows (Acts base) (parent job fds1 fds2 vars >>= f) last ⟨t, link.parent⟩ := by
  unfold parent Link.parent
  rw [same]
  cases test : job.test with
  | send =>
      simp only [SendTest.parent, bind_assoc]
      refine follows_contact opened fun t' s fdClient read write restored => ?_
      refine follows_idle (calls_call trivial) fun _ => follows_idle (idles_timedLoop (by trivial) fits) fun vars => ?_
      refine follows_call (.answer write) ?_
      rintro _ _ rfl
      refine follows_closeAll trivial ?_ (follows_call (.collectServer (same.trans test) restored) ?_)
      · simp [Stage.Needs, same, test]
      · rintro _ _ rfl
        exact rest vars _ restored
  | recv =>
      simp only [RecvTest.parent, bind_assoc]
      refine follows_serve failed opened fun t' s fdServer fdConnect write restored => ?_
      refine follows_idle (calls_call trivial) fun _ => follows_idle (idles_timedLoop (by trivial) fits) fun vars => ?_
      refine follows_call (.part (same.trans test) write) ?_
      rintro _ _ rfl
      refine follows_idle (calls_call idles_remove) fun _ => ?_
      refine follows_closeAll trivial ?_ (follows_call (.collectClient (same.trans test) restored) ?_)
      · simp [Stage.Needs]
      · rintro _ _ rfl
        exact rest vars _ restored

/-- The program comes to its end between two invocations. -/
def Returned (_ : Unit) (v : View) : Prop := v.stage = .idle []

theorem follows_invokeAll (failed : base.find (-1) = none) {sequence : List Invocation}
    (kept : ∀ fd, t.find fd = base.find fd) :
    Follows (Acts base) (invokeAll sequence) Returned ⟨t, .idle (sequence.map fun invocation => invocation.job.test)⟩ := by
  induction sequence generalizing t with
  | nil => rfl
  | cons invocation sequence ih =>
      change Follows _ (socketTest invocation.job invocation.vars >>= fun _ => invokeAll sequence) _ _
      simp only [socketTest, bind_assoc]
      refine follows_pipe .pipe1 ?_
      rintro r1 _ ⟨pipe1, t1, piped1, rfl⟩
      refine follows_pipe .pipe2 ?_
      rintro r2 _ ⟨pipe2, t2, others, piped2, rfl⟩
      have opened := fun test todo => @Piped.both base t t1 t2 r1 r2 ⟨test, pipe1, pipe2, todo⟩ piped1 piped2 kept others
      refine follows_call .fork ?_
      rintro ⟨value, _, _⟩ _ (⟨rfl, rfl⟩ | ⟨positive, rfl⟩)
      · rw [if_neg (Int.lt_irrefl 0), if_pos rfl]
        exact follows_child failed (opened _ _) rfl
      · rw [if_neg (Int.not_lt.mpr (Int.le_of_lt positive)), if_neg (Int.ne_of_gt positive)]
        exact follows_parent failed (opened _ _) rfl invocation.fits fun _ _ restored => ih restored

end Processes

end Oreo.OsEval
