import Oreo.OsEval.Durations
import Oreo.Transition.Interaction

namespace Oreo.OsEval

open Oreo.Posix Oreo.Transition

/-! # `send_test` and `recv_test` of `os_eval`, and the loop of `one_line_test_v2` -/

/-- A descriptor is its number. The buffers of `write` and `read` hold one byte. -/
inductive Call where
  | pipe
  | fork
  | close (fd : Int)
  | socket
  | bind (fd : Int) (path : String)
  | listen (fd : Int)
  | accept (fd : Int)
  | connect (fd : Int) (path : String)
  | write (fd : Int)
  | read (fd : Int)
  /-- `send`, `sendto`, `recv` and `recvfrom` with `MSG_DONTWAIT`. -/
  | send (fd : Int) (size : Int)
  | recv (fd : Int) (size : Int)
  | clockGettime
  | remove (path : String)
  /-- `kill(getpid(), SIGINT)`. -/
  | killSelf
  | wait
  /-- An access to `timeArray[index]` that is outside of the array: an error, which nothing replies to. -/
  | outside (index : Nat)
deriving DecidableEq, Repr

/-- What a call returns, and what is in the memory it was given a pointer to: the two descriptors
of `pipe`, the time of `clock_gettime`. -/
structure Reply where
  value : Int
  ends : Int × Int
  time : Timespec Int
deriving DecidableEq, Repr

abbrev Code := Interaction Call Reply

def call (c : Call) : Code Int := do return (← Interaction.perform c).value

/-- If the call fails, the message is all there is: the array keeps what it held. -/
def pipe : Code (Int × Int) := do return (← Interaction.perform .pipe).ends

def clockGettime : Code (Timespec Int) := do return (← Interaction.perform .clockGettime).time

def closeAll : List Int → Code Unit
  | [] => return
  | fd :: fds => do
      let _ ← call (.close fd)
      closeAll fds

/-! ## The address of the socket -/

def home : String := "/home/ziruiz6/LEBench"

def sock : String := "/TEST_DIR/socket"

/-- `sizeof(server_addr.sun_path)`. -/
def sunPathSize : Nat := 108

/-- `strncpy` into a buffer of zeros, of a text that is shorter than `n`. -/
def strncpy (src : String) (n : Nat) : String := String.ofList (src.toList.take n)

def strncat (dest src : String) (n : Nat) : String := dest ++ String.ofList (src.toList.take n)

/-- `server_addr.sun_path`. -/
def serverPath : String := strncat (strncpy home (sunPathSize - 1)) sock (sunPathSize - 1)

/-! ## The tests -/

inductive SocketTest where
  | send
  | recv
deriving DecidableEq, Repr

/-- A call of `one_line_test_v2`: the test, the number of runs in its `testInfo`, and the globals
that are set before it. -/
structure Job where
  test : SocketTest
  runs : Nat
  msgSize : Int
  currIterLimit : Nat
deriving DecidableEq, Repr

/-- What a test gets pointers to, with the indices that `add_diff_to_sum` was called for. -/
structure Vars where
  i : Nat
  timeArray : List (Timespec Int)
  added : List Nat
deriving DecidableEq, Repr

/-- `add_diff_to_sum(&timeArray[*i], endTime, startTime)`. -/
def Vars.addDiff (vars : Vars) (endTime startTime : Timespec Int) : Code Vars :=
  match vars.timeArray[vars.i]? with
  | some result =>
      let result := addDiffToSum result endTime startTime
      return { vars with timeArray := vars.timeArray.set vars.i result, added := vars.added ++ [vars.i] }
  | none => do
      let _ ← call (.outside vars.i)
      return vars

/-- `for (int j = 0; *i < iter & j < curr_iter_limit; (*i) ++, j++)`, where `remaining` is
`curr_iter_limit - j`. -/
def timedLoop (transfer : Call) (iter : Nat) : Nat → Vars → Code Vars
  | 0, vars => return vars
  | remaining + 1, vars =>
      if vars.i < iter then do
        let startTime ← clockGettime
        let _ ← call transfer
        let endTime ← clockGettime
        let vars ← vars.addDiff endTime startTime
        timedLoop transfer iter remaining { vars with i := vars.i + 1 }
      else return vars

/-- `for (int j = 0; j < curr_iter_limit + 1; (*i) ++, j++)` in the child of `recv_test`. -/
def sendLoop (fdClient msgSize : Int) : Nat → Vars → Code Vars
  | 0, vars => return vars
  | remaining + 1, vars => do
      let _ ← call (.send fdClient msgSize)
      sendLoop fdClient msgSize remaining { vars with i := vars.i + 1 }

/-- The start of the process that listens: the child in `send_test`, the parent in `recv_test`.
The values are `fd_server` and `fd_connect`. -/
def serve (fds1 fds2 : Int × Int) : Code (Int × Int) := do
  closeAll [fds1.1, fds2.2]
  let fdServer ← call .socket
  let _ ← call (.bind fdServer serverPath)
  let _ ← call (.listen fdServer)
  let _ ← call (.write fds1.2)
  let fdConnect ← call (.accept fdServer)
  let _ ← call (.read fds2.1)
  return (fdServer, fdConnect)

/-- The start of the process that connects. The value is `fd_client`. -/
def contact (fds1 fds2 : Int × Int) : Code Int := do
  closeAll [fds1.2, fds2.1]
  let _ ← call (.read fds1.1)
  let fdClient ← call .socket
  let _ ← call (.connect fdClient serverPath)
  return fdClient

namespace SendTest

def child (fds1 fds2 : Int × Int) (vars : Vars) : Code Vars := do
  let (fdServer, fdConnect) ← serve fds1 fds2
  let _ ← call (.remove sock)
  closeAll [fdServer, fdConnect, fds1.2, fds2.1]
  let _ ← call .killSelf
  return vars

def parent (job : Job) (fds1 fds2 : Int × Int) (vars : Vars) : Code Vars := do
  let fdClient ← contact fds1 fds2
  let _ ← call (.send fdClient job.msgSize)
  let vars ← timedLoop (.send fdClient job.msgSize) job.runs job.currIterLimit vars
  let _ ← call (.write fds2.2)
  closeAll [fdClient, fds1.1, fds2.2]
  let _ ← call .wait
  return vars

end SendTest

namespace RecvTest

def parent (job : Job) (fds1 fds2 : Int × Int) (vars : Vars) : Code Vars := do
  let (fdServer, fdConnect) ← serve fds1 fds2
  let _ ← call (.recv fdConnect job.msgSize)
  let vars ← timedLoop (.recv fdConnect job.msgSize) job.runs job.currIterLimit vars
  let _ ← call (.write fds1.2)
  let _ ← call (.remove sock)
  closeAll [fdServer, fdConnect, fds1.2, fds2.1]
  let _ ← call .wait
  return vars

def child (job : Job) (fds1 fds2 : Int × Int) (vars : Vars) : Code Vars := do
  let fdClient ← contact fds1 fds2
  let vars ← sendLoop fdClient job.msgSize (job.currIterLimit + 1) vars
  let _ ← call (.write fds2.2)
  let _ ← call (.read fds1.1)
  closeAll [fdClient, fds1.1, fds2.2]
  let _ ← call .killSelf
  return vars

end RecvTest

/-- `fork` has returned `0` in the child. -/
def child (job : Job) (fds1 fds2 : Int × Int) (vars : Vars) : Code Vars :=
  match job.test with
  | .send => SendTest.child fds1 fds2 vars
  | .recv => RecvTest.child job fds1 fds2 vars

def parent (job : Job) (fds1 fds2 : Int × Int) (vars : Vars) : Code Vars :=
  match job.test with
  | .send => SendTest.parent job fds1 fds2 vars
  | .recv => RecvTest.parent job fds1 fds2 vars

/-- `send_test` or `recv_test`. -/
def socketTest (job : Job) (vars : Vars) : Code Vars := do
  let fds1 ← pipe
  let fds2 ← pipe
  let forkId ← call .fork
  if forkId < 0 then return vars
  else if forkId = 0 then child job fds1 fds2 vars
  else parent job fds1 fds2 vars

/-- The variables of `one_line_test_v2` when it comes to its outer loop. -/
def Vars.entry (runs : Nat) : Vars where
  i := 0
  timeArray := List.replicate runs ⟨0, 0⟩
  added := []

/-! ## The calls that the tests make -/

/-- A call that neither makes a process nor belongs to what is around a transfer. -/
def Inner : Call → Prop
  | .fork | .clockGettime | .outside _ => False
  | _ => True

/-- A call that leaves alone which processes there are, and the paths of sockets. -/
def Quiet : Call → Prop
  | .fork | .bind _ _ | .remove _ | .killSelf | .wait => False
  | _ => True

open Interaction

theorem calls_call {P : Call → Prop} {c : Call} (permitted : P c) : Calls P (call c) :=
  (Calls.perform permitted).bind fun _ => .pure _

theorem calls_closeAll {P : Call → Prop} (closes : ∀ fd, P (.close fd)) (fds : List Int) : Calls P (closeAll fds) := by
  induction fds with
  | nil => exact .pure _
  | cons fd fds ih => exact .bind (calls_call (closes fd)) fun _ => ih

theorem inner_closeAll (fds : List Int) : Calls Inner (closeAll fds) := calls_closeAll (fun _ => trivial) fds

theorem quiet_closeAll (fds : List Int) : Calls Quiet (closeAll fds) := calls_closeAll (fun _ => trivial) fds

theorem inner_contact (fds1 fds2 : Int × Int) : Calls Inner (contact fds1 fds2) := by
  refine .bind (inner_closeAll _) fun _ => .bind (calls_call trivial) fun _ => ?_
  exact .bind (calls_call trivial) fun fdClient => .bind (calls_call trivial) fun _ => .pure _

theorem inner_serve (fds1 fds2 : Int × Int) : Calls Inner (serve fds1 fds2) := by
  refine .bind (inner_closeAll _) fun _ => .bind (calls_call trivial) fun fdServer => .bind (calls_call trivial) fun _ => ?_
  refine .bind (calls_call trivial) fun _ => .bind (calls_call trivial) fun _ => ?_
  exact .bind (calls_call trivial) fun fdConnect => .bind (calls_call trivial) fun _ => .pure _

theorem quiet_contact (fds1 fds2 : Int × Int) : Calls Quiet (contact fds1 fds2) := by
  refine .bind (quiet_closeAll _) fun _ => .bind (calls_call trivial) fun _ => ?_
  exact .bind (calls_call trivial) fun fdClient => .bind (calls_call trivial) fun _ => .pure _

theorem quiet_clockGettime : Calls Quiet clockGettime := .bind (.perform trivial) fun _ => .pure _

theorem quiet_addDiff (vars : Vars) (endTime startTime : Timespec Int) : Calls Quiet (vars.addDiff endTime startTime) := by
  unfold Vars.addDiff
  split
  · exact .pure _
  · exact .bind (calls_call trivial) fun _ => .pure _

/-- With the slot inside of the array there is no error. -/
theorem Vars.addDiff_eq {vars : Vars} {result : Timespec Int} (slot : vars.timeArray[vars.i]? = some result)
    (endTime startTime : Timespec Int) : vars.addDiff endTime startTime = (pure { vars with
      timeArray := vars.timeArray.set vars.i (addDiffToSum result endTime startTime), added := vars.added ++ [vars.i] } : Code Vars) := by
  rw [addDiff, slot]

theorem quiet_timedLoop {transfer : Call} (quiet : Quiet transfer) {iter remaining : Nat} {vars : Vars} :
    Calls Quiet (timedLoop transfer iter remaining vars) := by
  induction remaining generalizing vars with
  | zero => exact .pure _
  | succ remaining ih =>
      refine .ite ?_ (.pure _)
      refine .bind quiet_clockGettime fun startTime => .bind (calls_call quiet) fun _ => ?_
      exact .bind quiet_clockGettime fun endTime => .bind (quiet_addDiff _ _ _) fun vars => ih

theorem quiet_sendLoop (fdClient msgSize : Int) (remaining : Nat) (vars : Vars) :
    Calls Quiet (sendLoop fdClient msgSize remaining vars) := by
  induction remaining generalizing vars with
  | zero => exact .pure _
  | succ remaining ih => exact .bind (calls_call trivial) fun _ => ih _

end Oreo.OsEval
