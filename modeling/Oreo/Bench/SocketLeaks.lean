import Oreo.Bench.Recv.Rounds
import Oreo.Bench.Send.Progress
import Oreo.Bench.Socket.Closing
import Oreo.Bench.Socket.Faults

/-! # The sockets that `send_test` and `recv_test` leave open -/

namespace Oreo.Bench.Send

open Oreo.Posix Oreo.Bench.Socket

variable {iterCnt msgSize : Nat}

theorem resume_leads (l : Locals) (r : Reply) (inside : Inside Pc.setup Pc.release l) :
    Leads Pc.setup Pc.release l ((program iterCnt msgSize).resume l r) := by
  rw [program_resume]
  cases pc : l.pc <;> simp only [continueAt, timedLoop, Locals.observe_pc, pc]
  case setup s => exact absurd pc (inside.setup s)
  case release s => exact absurd pc (inside.release s)
  case returned => exact ⟨rfl, rfl, .inl ⟨inside.setup, inside.release⟩⟩
  all_goals (try split_ifs) <;> first | exact ⟨rfl, rfl, .inr ⟨_, rfl⟩⟩ | exact ⟨rfl, rfl, .inl ⟨by simp, by simp⟩⟩

theorem request_inside (l : Locals) (call : Call) (inside : Inside Pc.setup Pc.release l)
    (asked : (program iterCnt msgSize).request l = some call) : call.closed = [] ∧ ∀ id, call ≠ .pipe id := by
  cases pc : l.pc <;> simp only [program_request, request, pc, Option.some.injEq, reduceCtorEq] at asked
  case setup s => exact absurd pc (inside.setup s)
  case release s => exact absurd pc (inside.release s)
  all_goals
    subst asked
    exact ⟨rfl, by simp⟩

theorem branches : Branches (program iterCnt msgSize) .setup .release forked :=
  branches_of_leads (by simp) (fun s t same => by simpa using same) (fun _ => rfl)
    (fun l place => by rcases place with pc | pc <;> constructor <;> simp [pc]) request_inside resume_leads

end Oreo.Bench.Send

namespace Oreo.Bench.Recv

open Oreo.Posix Oreo.Bench.Socket

variable {iterCnt msgSize : Nat}

theorem resume_leads (l : Locals) (r : Reply) (inside : Inside Pc.setup Pc.release l) :
    Leads Pc.setup Pc.release l ((program iterCnt msgSize).resume l r) := by
  rw [program_resume]
  cases pc : l.pc <;> simp only [continueAt, timedLoop, sendLoop, serverErr, Locals.observe_pc, pc]
  case setup s => exact absurd pc (inside.setup s)
  case release s => exact absurd pc (inside.release s)
  case returned => exact ⟨rfl, rfl, .inl ⟨inside.setup, inside.release⟩⟩
  all_goals (try split_ifs) <;> first | exact ⟨rfl, rfl, .inr ⟨_, rfl⟩⟩ | exact ⟨rfl, rfl, .inl ⟨by simp, by simp⟩⟩

theorem request_inside (l : Locals) (call : Call) (inside : Inside Pc.setup Pc.release l)
    (asked : (program iterCnt msgSize).request l = some call) : call.closed = [] ∧ ∀ id, call ≠ .pipe id := by
  cases pc : l.pc <;> simp only [program_request, request, pc, Option.some.injEq, reduceCtorEq] at asked
  case setup s => exact absurd pc (inside.setup s)
  case release s => exact absurd pc (inside.release s)
  all_goals
    subst asked
    exact ⟨rfl, by simp⟩

theorem branches : Branches (program iterCnt msgSize) .setup .release forked :=
  branches_of_leads (by simp) (fun s t same => by simpa using same) (fun _ => rfl)
    (fun l place => by rcases place with pc | pc <;> constructor <;> simp [pc]) request_inside resume_leads

end Oreo.Bench.Recv

namespace Oreo.Bench

open Oreo.Posix Oreo.Transition Oreo.Bench.Socket

/-- `close` on the four pipe ends and on `-1`, and `remove`. -/
def closingUp (ends : Reply) : List Label :=
  [⟨0, ends⟩, ⟨0, ends⟩, ⟨0, ends⟩, ⟨0, ends⟩, ⟨0, .fail (.other 9)⟩, ⟨0, .fail (.other 9)⟩, ⟨0, .fail (.other 9)⟩, ⟨0, .ok⟩]

/-- Both pipes are open when `fork` fails. -/
def noChild : List Label :=
  [⟨0, .ok⟩, ⟨0, .ok⟩, ⟨0, .ok⟩, ⟨0, .ok⟩, ⟨0, .ok⟩, ⟨0, .fail .eagain⟩] ++ closingUp .ok

/-- One iteration of `send_test` in which nothing fails. -/
def sendOnce : List Label :=
  upToFork ++ [⟨1, .handle (.socket .listening)⟩, ⟨1, .ok⟩, ⟨1, .ok⟩, ⟨1, .size 1⟩, ⟨0, .size 1⟩,
    ⟨0, .handle (.socket .client)⟩, ⟨0, .ok⟩, ⟨0, .time 0⟩, ⟨0, .size 1⟩, ⟨0, .time 1⟩, ⟨0, .ok⟩] ++ closingUp .ok

/-- One iteration of `recv_test` in which nothing fails. -/
def recvOnce : List Label := Recv.oneRound ++ [⟨1, .ok⟩, ⟨0, .ok⟩] ++ closingUp .ok

/-- The start of a test on a plain machine. -/
def atEntry {Pc : Type} (setup : Setup → Pc) : World (Locals Pc) :=
  World.boot .plain (Locals.entry (setup .allocDiffs) (.other 0) false)

/-- Whatever the calls come to, the parent has closed what it has opened exactly if it has not
opened a socket: the cleanup closes the outer variables, the descriptors are in the inner ones. -/
theorem socketTests_close_once_iff (config : BenchConfig) (machine : Machine) (errno : Errno) (errored : Bool) :
    (∀ allowed trace w p, Run (step (Send.sendTest config)) allowed
      (World.boot machine (Locals.entry (.setup .allocDiffs) errno errored)) trace w → w.procs[0]? = some p →
        p.locals.pc = .release .returned →
          (ClosesOnce (Send.sendTest config) (ownSteps 0 trace) ↔ GetsNoSocket (Send.sendTest config) (ownSteps 0 trace))) ∧
    (∀ allowed trace w p, Run (step (Recv.recvTest config)) allowed
      (World.boot machine (Locals.entry (.setup .allocDiffs) errno errored)) trace w → w.procs[0]? = some p →
        p.locals.pc = .release .returned →
          (ClosesOnce (Recv.recvTest config) (ownSteps 0 trace) ↔ GetsNoSocket (Recv.recvTest config) (ownSteps 0 trace))) := by
  constructor
  · intro allowed trace w p run found returned
    obtain ⟨p', found', books⟩ := books_of_run Send.starts Send.branches run
    obtain rfl := Option.some.inj (found'.symm.trans found)
    exact books.closesOnce_iff Send.branches returned
  · intro allowed trace w p run found returned
    obtain ⟨p', found', books⟩ := books_of_run Recv.starts Recv.branches run
    obtain rfl := Option.some.inj (found'.symm.trans found)
    exact books.closesOnce_iff Recv.branches returned

/-- In some run the parent comes back from the function, and `holds` of its own steps. -/
def ComesBack {Pc : Type} (prog : Program (Locals Pc)) (setup : Setup → Pc) (release : Release → Pc)
    (holds : List (Locals Pc × Reply) → Prop) : Prop :=
  ∃ trace w p, Run (step prog) (Obeys prog fun _ _ _ _ _ => true) (atEntry setup) trace w ∧ w.procs[0]? = some p ∧
    p.locals.pc = release .returned ∧ holds (ownSteps 0 trace)

/-- Following a list of replies until the parent comes back. -/
theorem comesBack_of_follow {Pc : Type} {prog : Program (Locals Pc)} {setup : Setup → Pc} {release : Release → Pc}
    {holds : List (Locals Pc × Reply) → Prop} (labels : List Label)
    (followed : ∃ w p, follow prog (fun _ _ _ _ _ => true) (atEntry setup) labels = some w ∧ w.procs[0]? = some p ∧
      p.locals.pc = release .returned)
    (shows : ∀ w p, Run (step prog) (Obeys prog fun _ _ _ _ _ => true) (atEntry setup) (trail prog (atEntry setup) labels) w →
      w.procs[0]? = some p → p.locals.pc = release .returned → holds (ownSteps 0 (trail prog (atEntry setup) labels))) :
    ComesBack prog setup release holds := by
  obtain ⟨w, p, followed, found, returned⟩ := followed
  have run := follow_run .nil followed
  exact ⟨_, w, p, run, found, returned, shows w p run found returned⟩

def pipeEnds : List Handle := [.readEnd 0, .writeEnd 0, .readEnd 1, .writeEnd 1]

theorem socketTests_close_once_iff_once :
    (ComesBack (Send.sendTest ⟨1, .small⟩) .setup .release fun steps =>
      opens (Send.sendTest ⟨1, .small⟩) steps = pipeEnds ∧ ClosesOnce (Send.sendTest ⟨1, .small⟩) steps) ∧
    (ComesBack (Send.sendTest ⟨1, .small⟩) .setup .release fun steps =>
      opens (Send.sendTest ⟨1, .small⟩) steps = pipeEnds ++ [.socket .client] ∧
        ¬ ClosesOnce (Send.sendTest ⟨1, .small⟩) steps) ∧
    (ComesBack (Recv.recvTest ⟨1, .small⟩) .setup .release fun steps =>
      opens (Recv.recvTest ⟨1, .small⟩) steps = pipeEnds ∧ ClosesOnce (Recv.recvTest ⟨1, .small⟩) steps) ∧
    (ComesBack (Recv.recvTest ⟨1, .small⟩) .setup .release fun steps =>
      opens (Recv.recvTest ⟨1, .small⟩) steps = pipeEnds ++ [.socket .listening, .socket .accepted] ∧
        ¬ ClosesOnce (Recv.recvTest ⟨1, .small⟩) steps) := by
  have sends := (socketTests_close_once_iff ⟨1, .small⟩ .plain (.other 0) false).1
  have recvs := (socketTests_close_once_iff ⟨1, .small⟩ .plain (.other 0) false).2
  refine ⟨comesBack_of_follow noChild ⟨_, _, rfl, rfl, rfl⟩ fun w p run found returned => ⟨by decide, ?_⟩,
    comesBack_of_follow sendOnce ⟨_, _, rfl, rfl, rfl⟩ fun w p run found returned => ⟨by decide, ?_⟩,
    comesBack_of_follow noChild ⟨_, _, rfl, rfl, rfl⟩ fun w p run found returned => ⟨by decide, ?_⟩,
    comesBack_of_follow recvOnce ⟨_, _, rfl, rfl, rfl⟩ fun w p run found returned => ⟨by decide, ?_⟩⟩
  · exact (sends _ _ w p run found returned).mpr (by decide)
  · exact mt (sends _ _ w p run found returned).mp (by decide)
  · exact (recvs _ _ w p run found returned).mpr (by decide)
  · exact mt (recvs _ _ w p run found returned).mp (by decide)

/-- The parent has left its client socket open after a run in which nothing fails. -/
theorem sendTest_leaves_socket_open :
    ∃ trace w p, Run (step (Send.sendTest ⟨1, .small⟩)) (Obeys (Send.sendTest ⟨1, .small⟩) (undisturbed (Send.sendTest ⟨1, .small⟩)))
      (atEntry .setup) trace w ∧ w.procs[0]? = some p ∧ p.locals.pc = .release .returned ∧ p.locals.ret = false ∧
        ¬ ClosesOnce (Send.sendTest ⟨1, .small⟩) (ownSteps 0 trace) := by
  have followed : ∃ w p, follow (Send.sendTest ⟨1, .small⟩) (undisturbed (Send.sendTest ⟨1, .small⟩)) (atEntry .setup)
      sendOnce = some w ∧ w.procs[0]? = some p ∧ p.locals.pc = .release .returned ∧ p.locals.ret = false :=
    ⟨_, _, rfl, rfl, rfl, rfl⟩
  obtain ⟨w, p, followed, found, returned, success⟩ := followed
  refine ⟨_, w, p, follow_run .nil followed, found, returned, success, ?_⟩
  have opened : Handle.socket .client ∈ opens (Send.sendTest ⟨1, .small⟩)
      (ownSteps 0 ([] ++ trail (Send.sendTest ⟨1, .small⟩) (atEntry .setup) sendOnce)) := by
    decide
  intro once
  have closedOnce := once _ opened
  contradiction

end Oreo.Bench
