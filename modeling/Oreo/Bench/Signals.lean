import Oreo.Bench.CtxSwitch.Progress
import Oreo.Bench.Fork.Model
import Oreo.Bench.Recv.Progress
import Oreo.Bench.Send.Progress
import Oreo.Bench.Socket.Faults
import Oreo.Posix.Signals

/-! # Whom the tests signal -/

namespace Oreo.Bench.Socket

open Oreo.Posix Oreo.Transition

variable {Pc : Type} {prog : Program (Locals Pc)} {setup : Setup → Pc} {release : Release → Pc} {iterCnt : Nat}
variable {forked : Locals Pc → Locals Pc} {before : Pc → Bool}
variable {allowed : World (Locals Pc) → Label → Prop}
variable {w : World (Locals Pc)} {machine : Machine} {errno : Errno} {errored : Bool}

theorem Starts.childless_quiet (starts : Starts prog setup release iterCnt forked) {l : Locals Pc}
    (childless : Childless setup release l) (pid : Int) : prog.request l ≠ some (.kill pid) := by
  rcases childless with ⟨s, pc⟩ | ⟨s, pc⟩
  · rw [starts.request l s pc]
    cases s <;> simp [Setup.request]
  · rw [starts.requestRelease l s pc]
    cases s <;> simp [Release.request]

/-- A test whose child stays among the calls `ofChild` signals only its own processes. -/
theorem Starts.signalsStayInside (starts : Starts prog setup release iterCnt forked) (ofChild : Pc → Bool)
    (once : ForksOnce prog (fun l => before l.pc = true) (fun l => l.pid))
    (forks : ∀ l, prog.request l = some .fork → l.pc = setup .fork)
    (kills : ∀ l pid, prog.request l = some (.kill pid) → pid = l.pid)
    (born : ∀ l, l.pid = 0 → ofChild (forked l).pc = true)
    (quiet : ∀ l pid, ofChild l.pc = true → prog.request l ≠ some (.kill pid))
    (stays : ∀ w p call r, allowed w ⟨1, r⟩ → Turn prog w 1 p call r →
      ofChild p.locals.pc = true → ofChild (prog.resume p.locals r).pc = true)
    (reachable : Reachable (step prog) allowed
      (World.boot machine (Locals.entry (setup .allocDiffs) errno errored)) w) : SignalsStayInside prog w := by
  refine signalsStayInside_of_pair (fun l => before l.pc = true) kills ?_ (ids_positive reachable (by simpa [World.boot] using machine.positive))
  have shape := pair_invariant (fun p => Childless setup release p.locals)
    (fun _ c => ofChild c.locals.pc = true) once rfl (.inl ⟨_, rfl⟩) ?_ ?_ ?_ ?_ reachable
  · rcases shape with ⟨p, procs, childless⟩ | ⟨p, c, pair, isChild⟩
    · exact .inl ⟨p, procs, starts.childless_quiet childless⟩
    · exact .inr ⟨p, c, pair, fun pid => quiet c.locals pid isChild⟩
  · intro w p call r _ turn noChild childless
    exact starts.childless childless turn.request noChild
  · intro w p n _ turn _
    rw [Proc.spawn_locals, starts.resume _ _ _ (forks _ turn.request)]
    exact born _ rfl
  · exact fun _ _ _ _ _ _ _ _ _ isChild => isChild
  · intro w p c call r _ _ permitted turn isChild
    exact stays w c call r permitted turn isChild

end Oreo.Bench.Socket

namespace Oreo.Bench.Send

open Oreo.Posix Oreo.Transition Oreo.Bench.Socket

variable {iterCnt msgSize : Nat} {w : World Locals} {machine : Machine} {errno : Errno} {errored : Bool}

def Pc.ofChild : Pc → Bool
  | .socketServer | .bind | .listen | .writeReady | .accept | .recv | .clientErr | .returned => true
  | _ => false

/-- No `accept` fails; any other call may. -/
def accepts : Rule Locals := fun _ _ _ call r =>
  match call with
  | .accept _ => r.fd.isSome
  | _ => true

theorem signals_stay_inside_of_accept
    (reachable : Reachable (step (program iterCnt msgSize)) (Obeys (program iterCnt msgSize) accepts)
      (World.boot machine (Locals.entry (.setup .allocDiffs) errno errored)) w) :
    SignalsStayInside (program iterCnt msgSize) w := by
  refine starts.signalsStayInside Pc.ofChild forksOnce (fun _ => fork_of_request) ?_ ?_ ?_ ?_ reachable
  · intro l pid asked
    cases pc : l.pc <;> simp [request, pc] at asked
    case serverErr => exact asked.symm
    case setup s => cases s <;> simp [Setup.request] at asked
    case release s => cases s <;> simp [Release.request] at asked
  · intro l child
    simp [forked, child, Pc.ofChild]
  · intro l pid isChild
    cases pc : l.pc <;> simp [request, pc, Pc.ofChild] at isChild ⊢
  · intro w p call r permitted turn isChild
    have asked := turn.request
    have obeyed := turn.obeys permitted
    cases pc : p.locals.pc <;> simp only [pc, Pc.ofChild, Bool.false_eq_true] at isChild <;>
      simp only [program_request, request, pc, Option.some.injEq, reduceCtorEq] at asked <;> subst asked <;>
      simp only [program_resume, continueAt, Locals.observe_pc, pc]
    case accept =>
        obtain ⟨h, accepted⟩ := Option.isSome_iff_exists.mp obeyed
        rw [accepted]
        rfl
    all_goals (try split) <;> rfl

end Oreo.Bench.Send

namespace Oreo.Bench.Recv

open Oreo.Posix Oreo.Transition Oreo.Bench.Socket

variable {iterCnt msgSize : Nat} {w : World Locals} {machine : Machine} {errno : Errno} {errored : Bool}

def Pc.ofChild : Pc → Bool
  | .readReady | .socketClient | .connect | .send | .writeSent | .readAck | .clientErr | .returned => true
  | _ => false

theorem sendLoop_ofChild (l : Locals) : (sendLoop iterCnt l).pc.ofChild = true := by
  unfold sendLoop
  dsimp only
  split <;> rfl

theorem signals_stay_inside
    (reachable : Reachable (step (program iterCnt msgSize)) (fun _ _ => True)
      (World.boot machine (Locals.entry (.setup .allocDiffs) errno errored)) w) :
    SignalsStayInside (program iterCnt msgSize) w := by
  refine starts.signalsStayInside Pc.ofChild forksOnce (fun _ => fork_of_request) ?_ ?_ ?_ ?_ reachable
  · intro l pid asked
    cases pc : l.pc <;> simp [request, pc] at asked
    case serverErr => exact asked.symm
    case setup s => cases s <;> simp [Setup.request] at asked
    case release s => cases s <;> simp [Release.request] at asked
  · intro l child
    simp [forked, child, Pc.ofChild]
  · intro l pid isChild
    cases pc : l.pc <;> simp [request, pc, Pc.ofChild] at isChild ⊢
  · intro w p call r _ _ isChild
    cases pc : p.locals.pc <;> simp only [pc, Pc.ofChild, Bool.false_eq_true] at isChild <;>
      simp only [program_resume, continueAt, Locals.observe_pc, pc] <;>
      (try split) <;> first | rfl | exact sendLoop_ofChild _

end Oreo.Bench.Recv

namespace Oreo.Bench

open Oreo.Posix Oreo.Transition Oreo.Bench.Socket

variable {iterCnt : Nat} {machine : Machine} {errno : Errno}

theorem CtxSwitch.signals_stay_inside {w : World CtxSwitch.Locals}
    (reachable : Reachable (step (CtxSwitch.program iterCnt)) (fun _ _ => True)
      (World.boot machine (CtxSwitch.Locals.entry errno)) w) :
    SignalsStayInside (CtxSwitch.program iterCnt) w := by
  refine signalsStayInside_of_self ?_ (ids_positive reachable (by simpa [World.boot] using machine.positive))
  intro l pid
  cases pc : l.pc <;> simp [CtxSwitch.request, pc]

theorem Fork.signals_stay_inside {pages : Nat} {w : World Fork.Locals}
    (reachable : Reachable (step (Fork.program iterCnt pages)) (fun _ _ => True)
      (World.boot machine (Fork.Locals.entry pages errno)) w) :
    SignalsStayInside (Fork.program iterCnt pages) w := by
  refine signalsStayInside_of_self ?_ (ids_positive reachable (by simpa [World.boot] using machine.positive))
  intro l pid
  cases pc : l.pc <;> simp [Fork.program, Fork.request, pc]

/-- In every run of the four tests, whatever their calls come to, all signals stay
inside, as long as no `accept` fails in `send_test`. -/
theorem tests_signal_only_themselves (iterCnt size : Nat) (machine : Machine) (errno : Errno) (errored : Bool) :
    Always (step (CtxSwitch.program iterCnt)) (fun _ _ => True) (SignalsStayInside (CtxSwitch.program iterCnt))
        (World.boot machine (CtxSwitch.Locals.entry errno)) ∧
      Always (step (Fork.program iterCnt size)) (fun _ _ => True) (SignalsStayInside (Fork.program iterCnt size))
        (World.boot machine (Fork.Locals.entry size errno)) ∧
      Always (step (Recv.program iterCnt size)) (fun _ _ => True) (SignalsStayInside (Recv.program iterCnt size))
        (World.boot machine (Socket.Locals.entry (.setup .allocDiffs) errno errored)) ∧
      Always (step (Send.program iterCnt size)) (Obeys (Send.program iterCnt size) Send.accepts)
        (SignalsStayInside (Send.program iterCnt size))
        (World.boot machine (Socket.Locals.entry (.setup .allocDiffs) errno errored)) :=
  ⟨fun _ => CtxSwitch.signals_stay_inside, fun _ => Fork.signals_stay_inside, fun _ => Recv.signals_stay_inside,
    fun _ => Send.signals_stay_inside_of_accept⟩

/-- When `accept` fails, the child of `send_test` signals process 0, that is, its whole group. -/
theorem sendTest_signals_its_group :
    ¬ Always (step (Send.program 1 1)) (fun _ _ => True) (SignalsStayInside (Send.program 1 1))
      (World.boot .plain (Socket.Locals.entry (.setup .allocDiffs) .eagain false)) := by
  intro always
  obtain ⟨w, c, followed, found, running, atErr, child⟩ : ∃ w c,
      follow (Send.program 1 1) (fun _ _ _ _ _ => true)
        (World.boot .plain (Socket.Locals.entry (.setup .allocDiffs) .eagain false))
        (upToFork ++ [⟨1, .handle (.socket .listening)⟩, ⟨1, .ok⟩, ⟨1, .ok⟩, ⟨1, .size 1⟩, ⟨1, .fail (.other 1)⟩]) = some w ∧
      w.procs[1]? = some c ∧ c.status = .running ∧ c.locals.pc = .serverErr ∧ c.locals.pid = 0 :=
    ⟨_, _, rfl, rfl, rfl, rfl, rfl⟩
  have inside := always w ((follow_reachable (.refl _) followed).mono fun _ _ _ => trivial)
  have kills : Send.request 1 c.locals = some (.kill 0) := by simp only [Send.request, atErr, child]
  exact absurd (inside 1 c _ _ found running kills rfl).1 (by decide)

end Oreo.Bench
