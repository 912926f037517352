import Oreo.Bench.Monitor.Arguments
import Oreo.Posix.Sockets

namespace Oreo.OsEval

open Oreo.Bench Oreo.Posix Oreo.Sampling Oreo.Transition Oreo.Transition.Effect

/-! # The tests of `os_eval` that wait for sockets

`select_test`, `poll_test` and `epoll_test`. A socket that the kernel refuses is kept as -1.
-/

/-- What a test passes to the kernel between two readings of the clock. -/
inductive Waiting where
  | select (nfds : Int32) (readfds : List Int32)
  | poll (pfds : List Interest)
  /-- `epoll_wait`, with what has been added to the instance. -/
  | epoll (epfd : Int32) (interest : List Interest) (maxevents : Nat)
deriving DecidableEq, Repr

structure Desk where
  files : Files
  waits : List Waiting

/-- The error is an index outside of an array. -/
abbrev DeskAction := Effect Nat Desk

/-! ## The name that is built for each socket, and not used -/

def put (name : List Char) (index : Nat) (c : Char) : Except Nat (List Char) :=
  if index < name.length then .ok (name.set index c) else .error index

/-- `while (j > 0)`: the digits from the last one on. -/
def putDigits (j index : Nat) (name : List Char) : Except Nat (Nat × List Char) :=
  if j = 0 then .ok (index, name)
  else do
    let name ← put name index (Char.ofNat (48 + j % 10))
    putDigits (j / 10) (index + 1) name
termination_by j
decreasing_by omega

/-- `char name[10]`, with what `poll_test` and `epoll_test` write to it in round `i`. -/
def fileName (i : Nat) : Except Nat (List Char) := do
  let name := List.replicate 10 ' '
  let name ← put name 0 'f'
  let name ← put name 1 'i'
  let name ← put name 2 'l'
  let name ← put name 3 'e'
  let (index, name) ← putDigits i 4 name
  put name index (Char.ofNat 0)

/-! ## The tests -/

namespace DeskAction

def socket (granted : Bool) : DeskAction Int32 := do
  let d ← get
  modify fun d => { d with files := (d.files.socket granted).1 }
  pure (d.files.socket granted).2

def close (fd : Int32) : DeskAction Unit := modify fun d => { d with files := d.files.closeInt fd }

def closeEach (fds : List Int32) : DeskAction Unit := fds.forM close

def wait (waiting : Waiting) : DeskAction Unit := modify fun d => { d with waits := d.waits ++ [waiting] }

def checked {α : Type} : Except Nat α → DeskAction Unit
  | .ok _ => pure ()
  | .error index => throw index

/-- The loops that open the sockets: what they do before a socket, and with it. -/
def openEach {L : Type} (prepare : Nat → Except Nat (List Char)) (granted : Nat → Bool) (store : L → Nat → Int32 → L)
    (fdCount : Nat) (l : L) : DeskAction L :=
  (List.range fdCount).foldlM (fun l i => do
    checked (prepare i)
    let fd ← socket (granted i)
    pure (store l i fd)) l

end DeskAction

open DeskAction

/-- How the calls of a test end. -/
structure WaitOutcomes where
  /-- Whether `epoll_create` and `socket` are granted a descriptor. -/
  epoll : Bool
  socket : Nat → Bool
  /-- Whether `epoll_ctl` adds a valid descriptor. -/
  ctl : Nat → Bool

/-- `rfds` holds what `FD_SET` has been called for. There is a bit for it only below `FD_SETSIZE`. -/
structure SelectLocals where
  fds : List Int32
  maxFd : Int32
  rfds : List Int32

/-- `if (fd > maxFd) maxFd = fd; FD_SET(fd, &rfds); fds[i] = fd;` -/
def SelectLocals.store (l : SelectLocals) (_ : Nat) (fd : Int32) : SelectLocals where
  fds := l.fds ++ [fd]
  maxFd := if fd > l.maxFd then fd else l.maxFd
  rfds := l.rfds ++ [fd]

def selectTest (fdCount : Nat) (o : WaitOutcomes) : DeskAction Unit := do
  let l ← openEach (fun _ => .ok []) o.socket SelectLocals.store fdCount ⟨[], -1, []⟩
  wait (.select (l.maxFd + 1) l.rfds)
  closeEach l.fds

structure PollLocals where
  fds : List Int32
  interest : List Interest

def PollLocals.store (added : Nat → Int32 → Bool) (l : PollLocals) (i : Nat) (fd : Int32) : PollLocals where
  fds := l.fds ++ [fd]
  interest := if added i fd then l.interest ++ [⟨fd, pollin⟩] else l.interest

def pollTest (fdCount : Nat) (o : WaitOutcomes) : DeskAction Unit := do
  let l ← openEach fileName o.socket (PollLocals.store fun _ _ => true) fdCount ⟨[], []⟩
  wait (.poll l.interest)
  closeEach l.fds

/-- The kernel adds no descriptor that is not there, and nothing to an instance that is not. -/
def WaitOutcomes.added (o : WaitOutcomes) (epfd : Int32) (i : Nat) (fd : Int32) : Bool := o.ctl i && 0 ≤ fd && 0 ≤ epfd

def epollTest (fdCount : Nat) (o : WaitOutcomes) : DeskAction Unit := do
  let epfd ← socket o.epoll
  let l ← openEach fileName o.socket (PollLocals.store (o.added epfd)) fdCount ⟨[], []⟩
  wait (.epoll epfd l.interest fdCount)
  close epfd
  closeEach l.fds

inductive WaitTest where
  | select
  | poll
  | epoll
deriving DecidableEq, Repr

/-- A call of a test function, with the value that `fd_count` has at the time. -/
structure WaitCall where
  test : WaitTest
  fdCount : Nat
  o : WaitOutcomes

def WaitCall.perform (c : WaitCall) : DeskAction Unit :=
  match c.test with
  | .select => selectTest c.fdCount c.o
  | .poll => pollTest c.fdCount c.o
  | .epoll => epollTest c.fdCount c.o

def performWaits (calls : List WaitCall) : DeskAction Unit := calls.forM WaitCall.perform

/-! ## The name fits up to a number of five digits -/

theorem put_eq {name : List Char} {index : Nat} (inside : index < name.length) (c : Char) :
    put name index c = .ok (name.set index c) := if_pos inside

/-- With room for as many digits as the number has. -/
theorem putDigits_fits (room : Nat) {j index : Nat} {name : List Char} (small : j < 10 ^ room)
    (fits : index + room ≤ name.length) :
    ∃ index' name', putDigits j index name = .ok (index', name') ∧ index' ≤ index + room ∧ name'.length = name.length := by
  induction room generalizing j index name with
  | zero =>
      obtain rfl : j = 0 := by omega
      exact ⟨index, name, by rw [putDigits, if_pos rfl], Nat.le_refl _, rfl⟩
  | succ room ih =>
      rw [putDigits]
      by_cases none : j = 0
      · exact ⟨index, name, if_pos none, by omega, rfl⟩
      · rw [Nat.pow_succ] at small
        have inside : index < name.length := by omega
        obtain ⟨index', name', written, bound, length⟩ := @ih (j / 10) (index + 1)
          (name.set index (Char.ofNat (48 + j % 10))) (by omega) (by rw [List.length_set]; omega)
        rw [if_neg none, put_eq inside]
        exact ⟨index', name', written, by omega, by rw [length, List.length_set]⟩

/-- The letters in front of the digits. -/
theorem fileName_eq (i : Nat) : ∃ name : List Char, name.length = 10 ∧
    fileName i = (putDigits i 4 name >>= fun r => put r.2 r.1 (Char.ofNat 0)) :=
  ⟨((((List.replicate 10 ' ').set 0 'f').set 1 'i').set 2 'l').set 3 'e', rfl, rfl⟩

theorem fileName_fits {i : Nat} (small : i < 100000) : ∃ name, fileName i = .ok name := by
  obtain ⟨start, length, same⟩ := fileName_eq i
  obtain ⟨index, name, written, bound, kept⟩ := @putDigits_fits 5 i 4 start small (by omega)
  have inside : index < name.length := by omega
  rw [same, written]
  exact ⟨_, put_eq inside _⟩

variable {L : Type} {prepare : Nat → Except Nat (List Char)} {store : L → Nat → Int32 → L} {granted : Nat → Bool} {d : Desk} {l : L}

theorem result_socket (granted : Bool) (d : Desk) :
    (DeskAction.socket granted).result d = (.ok (d.files.socket granted).2, { d with files := (d.files.socket granted).1 }) := rfl

theorem openEach_succ (count : Nat) :
    openEach prepare granted store (count + 1) l = (do
      let l ← openEach prepare granted store count l
      checked (prepare count)
      let fd ← socket (granted count)
      pure (store l count fd)) := by
  simp [openEach, List.range_succ, List.foldlM_append]

theorem result_openEach {count : Nat} (prepared : ∀ i < count, ∃ name, prepare i = .ok name) :
    (openEach prepare granted store count l).result d =
      (.ok ((List.range count).foldl (fun l i => store l i (d.files.socketReply granted i)) l),
        { d with files := d.files.afterSockets granted count }) := by
  induction count with
  | zero => rfl
  | succ count ih =>
      obtain ⟨name, ready⟩ := prepared count (Nat.lt_succ_self count)
      rw [openEach_succ, result_bind_ok (ih fun i before => prepared i (by omega)), ready, List.range_succ, List.foldl_append]
      rfl

theorem select_locals (f : Nat → Int32) (rounds : List Nat) (l : SelectLocals) :
    rounds.foldl (fun l i => l.store i (f i)) l =
      ⟨l.fds ++ rounds.map f, largest l.maxFd (rounds.map f), l.rfds ++ rounds.map f⟩ := by
  induction rounds generalizing l with
  | nil => simp [largest_nil]
  | cons i rounds ih => rw [List.foldl_cons, ih]; simp [SelectLocals.store, largest_cons]

theorem poll_locals (added : Nat → Int32 → Bool) (f : Nat → Int32) (rounds : List Nat) (l : PollLocals) :
    rounds.foldl (fun l i => l.store added i (f i)) l =
      ⟨l.fds ++ rounds.map f, l.interest ++ (rounds.filter fun i => added i (f i)).map fun i => ⟨f i, pollin⟩⟩ := by
  induction rounds generalizing l with
  | nil => simp
  | cons i rounds ih =>
      rw [List.foldl_cons, ih]
      by_cases adds : added i (f i) = true <;> simp [PollLocals.store, adds]

theorem result_closeEach (fds : List Int32) (d : Desk) :
    (DeskAction.closeEach fds).result d = (.ok ⟨⟩, { d with files := d.files.closeInts fds }) := by
  induction fds generalizing d with
  | nil => rfl
  | cons fd fds ih => exact ih { d with files := d.files.closeInt fd }

/-! ## What a test passes to the kernel, and what it leaves -/

/-- What is passed to the kernel with these descriptors in use before the test. -/
def WaitCall.waiting (fs : Files) (c : WaitCall) : Waiting :=
  match c.test with
  | .select => .select (largest (-1) (fs.replies c.o.socket c.fdCount) + 1) (fs.replies c.o.socket c.fdCount)
  | .poll => .poll ((fs.replies c.o.socket c.fdCount).map fun fd => ⟨fd, pollin⟩)
  | .epoll =>
      let epfd := (fs.socket c.o.epoll).2
      let reply := (fs.socket c.o.epoll).1.socketReply c.o.socket
      .epoll epfd (((List.range c.fdCount).filter fun i => c.o.added epfd i (reply i)).map fun i => ⟨reply i, pollin⟩) c.fdCount

/-- The test builds no name that is too long. -/
def WaitCall.Fits (c : WaitCall) : Prop := c.test = .select ∨ c.fdCount ≤ 100000

theorem WaitCall.result_perform {c : WaitCall} (fits : c.Fits) (d : Desk) :
    ∃ files, c.perform.result d = (.ok ⟨⟩, ⟨files, d.waits ++ [c.waiting d.files]⟩) ∧
      ∀ n, files.description n = d.files.description n := by
  obtain ⟨test, fdCount, o⟩ := c
  cases test with
  | select =>
      have opens := (Files.opens_nil d.files).afterSockets o.socket fdCount
      refine ⟨_, ?_, opens.restored⟩
      change (selectTest fdCount o).result d = _
      rw [selectTest, result_bind_ok (result_openEach fun _ _ => ⟨[], rfl⟩), select_locals]
      exact result_closeEach _ _
  | poll =>
      have opens := (Files.opens_nil d.files).afterSockets o.socket fdCount
      have small : fdCount ≤ 100000 := fits.resolve_left (by simp)
      refine ⟨_, ?_, opens.restored⟩
      change (pollTest fdCount o).result d = _
      rw [pollTest, result_bind_ok (result_openEach fun i inside => fileName_fits (by omega)), poll_locals]
      refine (result_closeEach _ _).trans ?_
      simp [WaitCall.waiting, Files.replies, List.map_map, Function.comp_def]
  | epoll =>
      have opens := ((Files.opens_nil d.files).socket o.epoll).afterSockets o.socket fdCount
      have small : fdCount ≤ 100000 := fits.resolve_left (by simp)
      refine ⟨_, ?_, opens.restored⟩
      change (epollTest fdCount o).result d = _
      rw [epollTest, result_bind_ok (result_socket _ _), result_bind_ok (result_openEach fun i inside => fileName_fits (by omega)),
        poll_locals]
      exact result_closeEach _ _

/-- The same numbers are free before each test. -/
theorem WaitCall.waiting_of_sameUse {fs fs' : Files} (same : Files.SameUse fs fs') (c : WaitCall) : c.waiting fs = c.waiting fs' := by
  obtain ⟨test, fdCount, o⟩ := c
  have replies : fs.replies o.socket fdCount = fs'.replies o.socket fdCount :=
    List.map_congr_left fun i _ => same.socketReply o.socket i
  cases test with
  | select => simp only [WaitCall.waiting, replies]
  | poll => simp only [WaitCall.waiting, replies]
  | epoll =>
      obtain ⟨epfd, later⟩ := same.socket o.epoll
      have reply : (fs.socket o.epoll).1.socketReply o.socket = (fs'.socket o.epoll).1.socketReply o.socket :=
        funext fun i => later.socketReply o.socket i
      simp only [WaitCall.waiting, epfd, reply]

theorem result_performWaits {calls : List WaitCall} (fit : ∀ c ∈ calls, c.Fits) (d : Desk) :
    ∃ files, (performWaits calls).result d = (.ok ⟨⟩, ⟨files, d.waits ++ calls.map (WaitCall.waiting d.files)⟩) ∧
      ∀ n, files.description n = d.files.description n := by
  induction calls generalizing d with
  | nil => exact ⟨d.files, by simp [performWaits], fun _ => rfl⟩
  | cons c calls ih =>
      obtain ⟨fits, later⟩ := List.forall_mem_cons.mp fit
      obtain ⟨between, first, restored⟩ := c.result_perform fits d
      obtain ⟨files, rest, kept⟩ := ih later ⟨between, d.waits ++ [c.waiting d.files]⟩
      have same : Files.SameUse between d.files := fun n => congrArg Option.isSome (restored n)
      have waiting : calls.map (WaitCall.waiting between) = calls.map (WaitCall.waiting d.files) :=
        List.map_congr_left fun c _ => c.waiting_of_sameUse same
      rw [waiting, List.append_assoc] at rest
      exact ⟨files, (result_bind_ok first).trans rest, fun n => (kept n).trans (restored n)⟩

/-- Each descriptor that `select_test` puts into its `fd_set` has a bit there. -/
def Waiting.InFdSet : Waiting → Prop
  | .select _ readfds => ∀ fd ∈ readfds, 0 ≤ fd ∧ fd.toInt < (Select.fdSetSize : Int)
  | _ => True

/-- The kernel refuses none of the sockets, and there is room for them below `FD_SETSIZE`. -/
def WaitCall.HasRoom (fs : Files) (c : WaitCall) : Prop :=
  c.test = .select → (∀ i < c.fdCount, c.o.socket i = true) ∧
    inUse Select.fdSetSize fs.descriptors + c.fdCount ≤ Select.fdSetSize

theorem WaitCall.inFdSet_iff (fs : Files) (c : WaitCall) : (c.waiting fs).InFdSet ↔ c.HasRoom fs := by
  obtain ⟨test, fdCount, o⟩ := c
  cases test with
  | select =>
      have below := Files.socketReplies_below_iff o.socket (show Select.fdSetSize < 2 ^ 31 by decide) fs fdCount
      simpa [WaitCall.waiting, Waiting.InFdSet, WaitCall.HasRoom, Files.replies] using below
  | poll | epoll => simp [WaitCall.waiting, Waiting.InFdSet, WaitCall.HasRoom]

/-! ## What the kernel looks at -/

/-- The descriptors that the kernel is to look at. `poll` passes over what is no descriptor. -/
def Waiting.descriptors : Waiting → List Int32
  | .select _ readfds => readfds
  | .poll pfds => (pfds.map Interest.fd).filter fun fd => 0 ≤ fd
  | .epoll _ interest _ => interest.map Interest.fd

/-- The sockets that the kernel grants to a test, in `epoll_test` those that `epoll_ctl` then adds. -/
def WaitCall.sockets (fs : Files) (c : WaitCall) : List Int32 :=
  match c.test with
  | .select | .poll => (fs.replies c.o.socket c.fdCount).filter fun fd => 0 ≤ fd
  | .epoll =>
      let (fs, epfd) := fs.socket c.o.epoll
      if 0 ≤ epfd then
        (((List.range c.fdCount).filter c.o.ctl).map (fs.socketReply c.o.socket)).filter fun fd => 0 ≤ fd
      else []

def withOpen (count : Nat) : Files := ⟨fun _ => none, fun _ => [], 1, List.replicate count (some ⟨0, 0⟩)⟩

/-- Whether the tests of a sequence stay inside of their sets can be told from the descriptors that are
open before the first of them. -/
theorem select_tests_stay_inside_fd_set_iff (calls : List WaitCall) (fs : Files) (fit : ∀ c ∈ calls, c.Fits) :
    (∀ waiting ∈ ((performWaits calls).result ⟨fs, []⟩).2.waits, waiting.InFdSet) ↔ ∀ c ∈ calls, c.HasRoom fs := by
  obtain ⟨files, ran, -⟩ := result_performWaits fit ⟨fs, []⟩
  rw [ran]
  simp only [List.nil_append, List.forall_mem_map, WaitCall.inFdSet_iff]

/-- The calls of `main`, when the kernel refuses nothing. -/
def mainWaits : List WaitCall :=
  [10, 1000].flatMap fun fdCount =>
    [WaitTest.select, .poll, .epoll].map fun test => ⟨test, fdCount, ⟨true, fun _ => true, fun _ => true⟩⟩

theorem select_tests_stay_inside_fd_set_iff_main :
    (∀ waiting ∈ ((performWaits mainWaits).result ⟨withOpen 24, []⟩).2.waits, waiting.InFdSet) ∧
      ¬ ∀ waiting ∈ ((performWaits mainWaits).result ⟨withOpen 25, []⟩).2.waits, waiting.InFdSet := by
  have fit : ∀ c ∈ mainWaits, c.Fits := by simp [mainWaits, WaitCall.Fits]
  refine ⟨(select_tests_stay_inside_fd_set_iff mainWaits (withOpen 24) fit).mpr ?_, fun inside => ?_⟩
  · have used : inUse Select.fdSetSize (withOpen 24).descriptors = 24 := by decide
    intro c member _
    have bounds : (∀ i, c.o.socket i = true) ∧ c.fdCount ≤ 1000 := by
      simp only [mainWaits, List.flatMap_cons, List.flatMap_nil, List.map_cons, List.map_nil, List.cons_append,
        List.nil_append, List.mem_cons, List.not_mem_nil, or_false] at member
      rcases member with rfl | rfl | rfl | rfl | rfl | rfl <;> simp
    refine ⟨fun i _ => bounds.1 i, ?_⟩
    rw [used]
    exact Nat.add_le_add_left bounds.2 24
  · have used : inUse Select.fdSetSize (withOpen 25).descriptors = 25 := by decide
    have room := (select_tests_stay_inside_fd_set_iff mainWaits (withOpen 25) fit).mp inside
      ⟨.select, 1000, ⟨true, fun _ => true, fun _ => true⟩⟩ (by simp [mainWaits]) rfl
    rw [used] at room
    exact absurd room.2 (by decide)

end Oreo.OsEval
