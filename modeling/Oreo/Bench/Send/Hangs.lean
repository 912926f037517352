import Oreo.Bench.Send.Progress
import Oreo.Bench.Socket.Faults

namespace Oreo.Bench.Send

open Oreo.Posix Oreo.Transition Oreo.Bench.Socket

/-! # When the setup of `send_test` fails -/

variable {iterCnt msgSize : Nat} {parent child : Faults} {w : World Locals} {p c : Proc Locals} {call : Call} {r : Reply}
variable {machine : Machine} {errno : Errno} {errored : Bool}

def Pc.ofParent : Pc → Bool
  | .readReady | .socketClient | .connect | .startTimer | .send | .stopTimer | .serverErr | .release _ => true
  | _ => false

/-- The calls of a child whose server works. -/
def Pc.ofServer : Pc → Bool
  | .socketServer | .bind | .listen | .writeReady | .accept | .recv | .serverErr => true
  | _ => false

def Pc.released : Pc → Bool
  | .release _ => true
  | _ => false

/-- The child is on the way of a server that works. -/
structure Serving (l : Locals) : Prop where
  pc : l.pc.ofServer = true
  socket : l.pc = .bind ∨ l.pc = .listen → l.fdServer ≠ none

/-- The parent does not wait for a child that is gone, and leaves none behind. -/
structure Attached (p c : Proc Locals) : Prop where
  parent : p.locals.pc.ofParent = true
  child : c.status = .running → Serving c.locals
  awaited : p.status = .running → p.locals.pc = .readReady → c.status = .running
  collected : p.status ≠ .running ∨ p.locals.pc.released = true → c.status ≠ .running

theorem timedLoop_ofParent (l : Locals) : (timedLoop iterCnt l).pc.ofParent = true := by
  unfold timedLoop
  split <;> rfl

theorem timedLoop_ne_readReady (l : Locals) : (timedLoop iterCnt l).pc ≠ .readReady := by
  unfold timedLoop
  split <;> simp

theorem timedLoop_released (l : Locals) : (timedLoop iterCnt l).pc.released = false := by
  unfold timedLoop
  split <;> rfl

/-- The parent waits only once, and gets to `cleanup` only through its signal. -/
theorem parent_call (iterCnt : Nat) {l : Locals} (r : Reply) (parent : l.pc.ofParent = true) (asked : request msgSize l = some call) :
    (resume iterCnt msgSize l r).pc.ofParent = true ∧ (resume iterCnt msgSize l r).pc ≠ .readReady ∧
      (call.signals = false ∧ (resume iterCnt msgSize l r).pc.released = l.pc.released ∨
        call = .kill l.pid ∧ (resume iterCnt msgSize l r).pc.released = true) := by
  cases pc : l.pc
  case release s =>
      simp only [request, pc] at asked
      obtain ⟨s', after⟩ := finish_pc Pc.release (l.observe r) s pc
      have silent : call.signals = false := by
        cases s <;> simp only [Release.request, Option.some.injEq, reduceCtorEq] at asked <;> subst asked <;> rfl
      simp only [resume, continueAt, Locals.observe_pc, pc, after]
      exact ⟨rfl, by simp, .inl ⟨silent, rfl⟩⟩
  all_goals
    simp only [pc, Pc.ofParent, Bool.false_eq_true] at parent <;>
    simp only [request, pc, Option.some.injEq] at asked <;> subst asked <;>
    simp only [resume, continueAt, Locals.observe_pc, pc]
  case connect =>
      split
      · exact ⟨rfl, by simp, .inl ⟨rfl, rfl⟩⟩
      · exact ⟨timedLoop_ofParent _, timedLoop_ne_readReady _, .inl ⟨rfl, timedLoop_released _⟩⟩
  case stopTimer =>
      split <;> exact ⟨timedLoop_ofParent _, timedLoop_ne_readReady _, .inl ⟨rfl, timedLoop_released _⟩⟩
  case socketClient => split <;> exact ⟨rfl, by simp, .inl ⟨rfl, rfl⟩⟩
  case serverErr =>
      split <;> refine ⟨rfl, ?_, .inr ⟨trivial, rfl⟩⟩ <;> intro client <;> cases client
  all_goals exact ⟨rfl, by simp, .inl ⟨rfl, rfl⟩⟩

theorem Serving.turn (serving : Serving c.locals) (works : child.noServer = false)
    (obeyed : setupFaults (program iterCnt msgSize) parent child w 1 c call r = true)
    (asked : request msgSize c.locals = some call) :
    call.signals = false ∧ Serving (resume iterCnt msgSize c.locals r) ∨ call = .kill c.locals.pid := by
  obtain ⟨⟨gets, binds⟩, listens⟩ : (child.socket = false ∧ child.bind = false) ∧ child.listen = false := by
    simpa only [Faults.noServer, Bool.or_eq_false_iff] using works
  obtain ⟨isServer, socket⟩ := serving
  cases pc : c.locals.pc <;> simp only [pc, Pc.ofServer, Bool.false_eq_true] at isServer <;>
    simp only [request, pc, Option.some.injEq] at asked <;> subst asked <;>
    simp only [pc, reduceCtorEq, or_false, or_true, true_implies, false_implies] at socket <;>
    simp only [resume, continueAt, Locals.observe_pc, pc]
  case socketServer =>
      have natural := natural_of_setupFaults obeyed gets
      obtain rfl := handle_of_socket natural
      exact .inl ⟨rfl, rfl, fun _ => by simp⟩
  case bind =>
      obtain rfl := ok_of_bind (natural_of_setupFaults obeyed binds) socket
      exact .inl ⟨rfl, rfl, fun _ => socket⟩
  case listen =>
      obtain rfl := ok_of_listen (natural_of_setupFaults obeyed listens) socket
      exact .inl ⟨rfl, rfl, by simp⟩
  case accept => split <;> exact .inl ⟨rfl, rfl, by simp⟩
  case serverErr => exact .inr trivial
  all_goals exact .inl ⟨rfl, rfl, by simp⟩

section Steps

variable (attached : Attached p c) (interrupts : w.sigintIgnored = false)
include attached interrupts

theorem Attached.parent_step (turn : Turn (program iterCnt msgSize) w 0 p call r)
    (obeyed : setupFaults (program iterCnt msgSize) parent child w 0 p call r = true)
    (pid : p.locals.pid = c.id) :
    Attached
      { p.advance (program iterCnt msgSize) call r with status := w.fate (program iterCnt msgSize) 0 0 p call r }
      { c with status := w.fate (program iterCnt msgSize) 0 1 c call r } := by
  obtain ⟨isParent, serves, awaited, collected⟩ := attached
  obtain ⟨still, past, ⟨silent, same⟩ | ⟨rfl, after⟩⟩ := parent_call iterCnt r isParent turn.request
  · simp only [fate_of_silent silent]
    refine ⟨still, serves, fun _ waits => absurd waits past, fun ceased => collected ?_⟩
    exact ceased.imp_right same.symm.trans
  · -- the signal ends the child
    obtain rfl := ok_of_plain (natural_of_setupFaults obeyed rfl) rfl
    have killed : w.fate (program iterCnt msgSize) 0 1 c (.kill p.locals.pid) .ok ≠ .running := by
      simp only [World.fate, interrupts, pid]
      cases c.status <;> simp [Status.kill]
    exact ⟨still, fun running => absurd running killed, fun _ waits => absurd waits past, fun _ => killed⟩

theorem Attached.child_step (turn : Turn (program iterCnt msgSize) w 1 c call r)
    (obeyed : setupFaults (program iterCnt msgSize) parent child w 1 c call r = true)
    (works : child.noServer = false) (pid : c.locals.pid = 0) :
    Attached { p with status := w.fate (program iterCnt msgSize) 1 0 p call r }
      { c.advance (program iterCnt msgSize) call r with
        status := w.fate (program iterCnt msgSize) 1 1 c call r } := by
  obtain ⟨isParent, serves, awaited, collected⟩ := attached
  have alone : ¬ (p.status ≠ .running ∨ p.locals.pc.released = true) := fun ceased => collected ceased turn.running
  rcases (serves turn.running).turn works obeyed turn.request with ⟨silent, serving⟩ | rfl
  · simp only [fate_of_silent silent]
    exact ⟨isParent, fun _ => serving, fun _ _ => turn.running, fun ceased => absurd ceased alone⟩
  · -- `pid` is 0 in the child: its signal ends both
    obtain rfl := ok_of_plain (natural_of_setupFaults obeyed rfl) rfl
    have ended (q : Proc Locals) (i : Nat) :
        w.fate (program iterCnt msgSize) 1 i q (.kill c.locals.pid) .ok ≠ .running := by
      simp only [World.fate, interrupts, pid]
      cases q.status <;> simp [Status.kill]
    exact ⟨isParent, fun running => absurd running (ended c 1), fun running => absurd running (ended p 0),
      fun _ => ended c 1⟩

end Steps

theorem attached_of_fork {n : Int} (preparing : Preparing Pc.setup p) (atFork : p.locals.pc = .setup .fork)
    (positive : 0 < n) :
    Attached (p.advance (program iterCnt msgSize) .fork (.pid n)) (p.spawn (program iterCnt msgSize) n) := by
  have parent : (resume iterCnt msgSize p.locals (.pid n)).pc = .readReady := by
    simp [resume, continueAt, atFork, Socket.Locals.prepare, forked, positive]
  have child : (resume iterCnt msgSize p.locals (.pid 0)).pc = .socketServer := by
    simp [resume, continueAt, atFork, Socket.Locals.prepare, forked]
  refine ⟨?_, fun _ => ⟨?_, ?_⟩, fun _ _ => rfl, ?_⟩
  · exact (congrArg Pc.ofParent parent).trans rfl
  · exact (congrArg Pc.ofServer child).trans rfl
  · intro later
    rcases later with atBind | atListen
    · exact absurd (child.symm.trans atBind) (by simp)
    · exact absurd (child.symm.trans atListen) (by simp)
  · intro either
    rcases either with ended | released
    · exact absurd preparing.running ended
    · exact absurd ((congrArg Pc.released parent).symm.trans released) (by decide)

theorem attached_of_reachable (works : child.noServer = false) (interrupts : machine.sigintIgnored = false)
    (reachable : Faulty (program iterCnt msgSize) (.setup .allocDiffs) parent child machine errno errored w) :
    (∃ p, w.procs = [p] ∧ Preparing Pc.setup p) ∨
      ∃ p c, IsPair (fun l : Locals => l.pc.beforeFork = true) (fun l => l.pid) w p c ∧ Attached p c := by
  obtain ⟨first, single, preparing⟩ := Preparing.entry Pc.setup machine errno errored
  refine pair_invariant (Preparing Pc.setup) Attached forksOnce single preparing ?_ ?_ ?_ ?_ reachable
  · intro w p call r permitted turn noChild preparing
    exact preparing.advance starts turn (preparing.natural starts turn (turn.obeys permitted)) noChild
  · intro w p n permitted turn preparing
    have natural := natural_of_setupFaults (turn.obeys permitted) rfl
    simp only [World.natural, Bool.and_eq_true, decide_eq_true_eq] at natural
    exact attached_of_fork preparing (preparing.atFork starts turn.request).1 natural.1
  · intro w p c call r earlier pair permitted turn attached
    exact attached.parent_step ((sigintIgnored_of_reachable earlier).trans interrupts) turn (turn.obeys permitted)
      pair.parentPid
  · intro w p c call r earlier pair permitted turn attached
    exact attached.child_step ((sigintIgnored_of_reachable earlier).trans interrupts) turn (turn.obeys permitted)
      works pair.childPid

theorem Attached.not_leftBehind {allowed : World Locals → Label → Prop} (attached : Attached p c)
    (procs : w.procs = [p, c]) : ¬ LeftBehind (program iterCnt msgSize) allowed waiting w := by
  obtain ⟨isParent, serves, awaited, collected⟩ := attached
  apply not_leftBehind_of_pair procs
  · intro ceased forever
    obtain ⟨q, call, found, running, asked, waits, -⟩ := forever w (.refl w)
    obtain rfl : p = q := by simpa [procs] using found
    have atRead : p.locals.pc = .readReady := by
      cases pc : p.locals.pc <;> simp only [pc, Pc.ofParent, Bool.false_eq_true] at isParent <;>
        simp only [program_request, request, pc, Option.some.injEq] at asked
      case release s =>
          cases s <;> simp only [Release.request, Option.some.injEq, reduceCtorEq] at asked <;> subst asked <;>
            contradiction
      all_goals
        subst asked
        first | rfl | contradiction
    have alive := awaited running atRead
    have serving := (serves alive).pc
    simp only [Proc.finished, alive, bne_self_eq_false, Bool.false_or, Option.isNone_iff_eq_none, program_request] at ceased
    cases pc : c.locals.pc <;> simp [pc, Pc.ofServer, request] at serving ceased
  · intro ceased forever
    obtain ⟨q, call, found, running, asked, waits, -⟩ := forever w (.refl w)
    obtain rfl : c = q := by simpa [procs] using found
    refine collected ?_ running
    by_contra going
    obtain ⟨alive, unreleased⟩ := not_or.mp going
    rw [not_not] at alive
    simp only [Proc.finished, alive, bne_self_eq_false, Bool.false_or, Option.isNone_iff_eq_none, program_request] at ceased
    cases pc : p.locals.pc <;> simp [pc, Pc.ofParent, Pc.released, request] at isParent unreleased ceased

theorem hangFree_of_server (works : child.noServer = false) :
    HangFree (program iterCnt msgSize) (.setup .allocDiffs) parent child := by
  intro machine errno errored w interrupts reachable
  rcases attached_of_reachable works interrupts reachable with ⟨p, procs, -⟩ | ⟨p, c, pair, attached⟩
  · exact not_leftBehind_of_single procs
  · exact attached.not_leftBehind pair.procs

/-! ## A child without a server -/

/-- The replies of the calls that the child's faults leave to it, and of its last signal. -/
def givingUp (child : Faults) : List Label :=
  if child.socket then [⟨1, .fail (.other 1)⟩, ⟨1, .ok⟩]
  else if child.bind then [⟨1, .handle (.socket .listening)⟩, ⟨1, .fail (.other 1)⟩, ⟨1, .ok⟩]
  else [⟨1, .handle (.socket .listening)⟩, ⟨1, .ok⟩, ⟨1, .fail (.other 1)⟩, ⟨1, .ok⟩]

section Runs

attribute [local simp] follow answers step World.answer World.signalled World.fate World.account Proc.advance
  Proc.spawn Proc.offspring World.possible World.natural setupFaults Faults.hits upToFork givingUp World.boot
  Machine.plain request continueAt Reply.errno Reply.failed forked Setup.request Socket.Locals.prepare
  Socket.Locals.entry chargeHandles chargePriority chargeCores Tally.charge Socket.Locals.observe Status.kill
  Call.fallible Proc.finished Fd.ends

/-- The child ends before it has sent its token. -/
theorem noServer_run (iterCnt msgSize : Nat) (parent : Faults) (fails : child.noServer = true) :
    ∃ w p c, follow (program iterCnt msgSize) (setupFaults (program iterCnt msgSize) parent child)
      (World.boot .plain (Locals.entry (.setup .allocDiffs) .eagain false)) (upToFork ++ givingUp child) = some w ∧
      w.procs = [p, c] ∧ p.locals.pc = .readReady ∧ p.status = .running ∧ HasPipes p.locals p.handles ∧
      w.pipe 0 = 0 ∧ c.status = .killed := by
  obtain ⟨socket, bind, listen, accept, connect⟩ := child
  cases socket with
  | true =>
      simp
      exact ⟨⟨rfl, by simp, by simp⟩, ⟨rfl, by simp, by simp⟩⟩
  | false =>
      cases bind with
      | true =>
          simp
          exact ⟨⟨rfl, by simp, by simp⟩, ⟨rfl, by simp, by simp⟩⟩
      | false =>
          obtain rfl : listen = true := by simpa [Faults.noServer] using fails
          simp
          exact ⟨⟨rfl, by simp, by simp⟩, ⟨rfl, by simp, by simp⟩⟩

end Runs

theorem not_hangFree_of_noServer (fails : child.noServer = true) :
    ¬ HangFree (program iterCnt msgSize) (.setup .allocDiffs) parent child := by
  intro free
  obtain ⟨w, p, c, followed, procs, atRead, running, pipes, empty, killed⟩ :=
    noServer_run iterCnt msgSize parent fails
  have asked : request msgSize p.locals = some (.read (some (.readEnd 0))) := by simp only [request, atRead, pipes.fds1.fst]
  have found : w.procs[0]? = some p := by rw [procs]; rfl
  apply free .plain .eagain false w rfl (follow_reachable (.refl _) followed)
  refine leftBehind_of_stuck 1 found running asked rfl (fun r permitted => ?_) (by rw [procs]; rfl)
    (by simp [Proc.finished, killed]) (nobody_else procs)
  exact read_blocks found asked empty pipes.fds1.readEnd pipes.fds1.writeEnd (natural_of_setupFaults permitted rfl)

/-- `send_test` survives every failure but those of its child before the token. -/
theorem hangFree_iff : HangFree (program iterCnt msgSize) (.setup .allocDiffs) parent child ↔ child.noServer = false := by
  cases fails : child.noServer with
  | false => exact iff_of_true (hangFree_of_server fails) rfl
  | true => exact iff_of_false (not_hangFree_of_noServer fails) (by simp)

end Oreo.Bench.Send
