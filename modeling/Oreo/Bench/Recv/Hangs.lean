import Oreo.Bench.Recv.LockStep
import Oreo.Bench.Socket.Faults

namespace Oreo.Bench.Recv

open Oreo.Posix Oreo.Transition Oreo.Bench.Socket

/-! # When the setup of `recv_test` fails -/

variable {iterCnt msgSize : Nat} {parent child : Faults} {w : World Locals} {p c : Proc Locals} {call : Call} {r : Reply}
variable {machine : Machine} {errno : Errno} {errored : Bool}

/-- The parent's calls after `listen`, when the server works. -/
def Pc.listened : Pc → Bool
  | .writeReady | .accept | .readSent | .startTimer | .recv | .stopTimer | .writeAck | .wait => true
  | _ => false

/-- How many tokens the parent has written at most. -/
def ParentTokens (iterCnt : Nat) (l : Locals) (wrote : Nat) : Prop :=
  match l.pc with
  | .socketServer | .bind | .listen | .writeReady => wrote = 0
  | .accept => wrote ≤ 1
  | .readSent | .startTimer | .recv | .stopTimer | .writeAck => wrote ≤ l.idx + 1 ∧ l.idx < iterCnt
  | _ => True

/-- How many tokens the child has read at least. -/
def ChildTokens (iterCnt : Nat) (l : Locals) (took : Nat) : Prop :=
  match l.pc with
  | .readReady => True
  | .socketClient | .connect => 1 ≤ took
  | .send | .writeSent | .readAck => l.idx + 1 ≤ took
  | .clientErr | .returned => iterCnt + 1 ≤ took
  | _ => False

/-- The parent's tokens say that the server works. -/
structure ParentPace (iterCnt : Nat) (faults : Faults) (l : Locals) (t : Tally) : Prop where
  pc : l.pc.ofParent = true
  armed : l.pc.armed = true → l.errored = true
  unfailed : l.pc = .wait → l.errored = false
  bind : l.pc = .bind → faults.socket = false
  listen : l.pc = .listen → faults.socket = false ∧ faults.bind = false
  listened : l.pc.listened = true → faults.noServer = false ∧ 0 < t.listens
  wrote : 0 < t.wrote 0 → faults.noServer = false ∧ 0 < t.listens
  tokens : ParentTokens iterCnt l (t.wrote 0)

/-- The child ends on its own only after its last token. -/
structure ChildPace (iterCnt : Nat) (l : Locals) (t : Tally) (handles : List Handle) : Prop where
  wrote : t.wrote 0 = 0
  client : l.pc = .connect → l.fdClient ≠ none
  pipes : l.pc.pastLoop = false → HasPipes l handles
  tokens : ChildTokens iterCnt l (t.took 0)

section Parent

variable {l : Locals} {t : Tally}

theorem ParentPace.serverErr (armed : l.errored = true) (wrote : t.wrote 0 = 0 ∨ parent.noServer = false ∧ 0 < t.listens) :
    ParentPace iterCnt parent (Recv.serverErr l) t := by
  have here : Recv.serverErr l = { l with pc := .serverErr } := by simp [Recv.serverErr, armed]
  rw [here]
  exact ⟨rfl, fun _ => armed, by simp, by simp, by simp, by simp [Pc.listened], fun some_ => wrote.resolve_left (by omega), trivial⟩

theorem ParentPace.timedLoop (armed : l.errored = true) (listened : parent.noServer = false ∧ 0 < t.listens)
    (tokens : t.wrote 0 ≤ l.idx + 1) : ParentPace iterCnt parent (Recv.timedLoop iterCnt l) t := by
  unfold Recv.timedLoop
  split
  · exact ⟨rfl, fun _ => armed, by simp, by simp, by simp, fun _ => listened, fun _ => listened, tokens, ‹_›⟩
  · exact ⟨rfl, by simp [Pc.armed], fun _ => rfl, by simp, by simp, fun _ => listened, fun _ => listened, trivial⟩

theorem ParentPace.release {s : Release} (pc : l.pc = .release s)
    (wrote : 0 < t.wrote 0 → parent.noServer = false ∧ 0 < t.listens) : ParentPace iterCnt parent l t := by
  refine ⟨?_, ?_, ?_, ?_, ?_, ?_, wrote, ?_⟩ <;> simp [pc, Pc.ofParent, Pc.armed, Pc.listened, ParentTokens]

end Parent

theorem charge_wrote (t : Tally) (call : Call) (r : Reply) (notWrite : ∀ fd, call ≠ .write fd) : (t.charge call r).wrote = t.wrote := by
  unfold Tally.charge
  split <;> first | rfl | exact absurd rfl (notWrite _)

theorem charge_wrote_le {fd : Fd} (natural : w.natural (program iterCnt msgSize) p (.write fd) r = true) (t : Tally) :
    (t.charge (.write fd) r).wrote 0 ≤ t.wrote 0 + 1 := by
  unfold Tally.charge
  split <;> simp_all [World.natural, bump]
  grind

theorem listens_charge_le (t : Tally) (call : Call) (r : Reply) : t.listens ≤ (t.charge call r).listens := by
  unfold Tally.charge
  split <;> simp

theorem ParentPace.advance (pace : ParentPace iterCnt parent p.locals p.tally)
    (turn : Turn (program iterCnt msgSize) w 0 p call r)
    (obeyed : setupFaults (program iterCnt msgSize) parent child w 0 p call r = true) :
    ParentPace iterCnt parent (resume iterCnt msgSize p.locals r) (p.tally.charge call r) := by
  obtain ⟨isParent, armed, unfailed, bind, listen, listened, wrote, tokens⟩ := pace
  have asked : request msgSize p.locals = some call := turn.request
  have listens := listens_charge_le p.tally call r
  have quiet := charge_wrote p.tally call r
  cases pc : p.locals.pc
  case release s =>
      simp only [request, pc] at asked
      obtain ⟨s', after⟩ := finish_pc Pc.release (p.locals.observe r) s pc
      rw [charge_release asked]
      exact .release (s := s') (by simp only [resume, continueAt, Locals.observe_pc, pc, after]) wrote
  all_goals
    simp only [pc, Pc.ofParent, Bool.false_eq_true] at isParent <;>
    simp only [request, pc, Option.some.injEq] at asked <;> subst asked <;>
    simp only [pc, Pc.armed, Pc.listened, ParentTokens, true_implies, reduceCtorEq, false_implies, Bool.false_eq_true]
      at armed unfailed bind listen listened tokens <;>
    simp only [ne_eq, reduceCtorEq, not_false_eq_true, implies_true, true_implies] at quiet <;>
    simp only [resume, continueAt, Locals.observe_pc, pc]
  case socketServer =>
      split
      · exact .serverErr armed (.inl (by rw [quiet, tokens]))
      · have spared : parent.socket = false := by
          by_contra hit
          cases r <;> simp_all [setupFaults, Faults.hits, Reply.failed]
        exact ⟨rfl, fun _ => armed, by simp, fun _ => spared, by simp, by simp [Pc.listened], wrote, tokens⟩
  case bind =>
      split
      · exact .serverErr armed (.inl (by rw [quiet, tokens]))
      · have spared : parent.bind = false := by
          by_contra hit
          simp_all [setupFaults, Faults.hits]
        exact ⟨rfl, fun _ => armed, by simp, by simp, fun _ => ⟨bind, spared⟩, by simp [Pc.listened], wrote, tokens⟩
  case listen =>
      split
      · exact .serverErr armed (.inl (by rw [quiet, tokens]))
      · have spared : parent.listen = false := by
          by_contra hit
          simp_all [setupFaults, Faults.hits]
        have works : parent.noServer = false := by simp [Faults.noServer, listen, spared]
        obtain rfl : r = .ok := by
          have natural := natural_of_setupFaults obeyed spared
          cases fd : p.locals.fdServer <;> rw [fd] at natural <;> cases r <;> simp_all [World.natural]
        have now : parent.noServer = false ∧ 0 < (p.tally.charge (.listen p.locals.fdServer) .ok).listens :=
          ⟨works, Nat.succ_pos _⟩
        exact ⟨rfl, fun _ => armed, by simp, by simp, by simp, fun _ => now, fun _ => now, tokens⟩
  case writeReady =>
      have bound := charge_wrote_le (natural_of_setupFaults obeyed rfl) p.tally
      have still := listened.imp_right fun some_ => Nat.lt_of_lt_of_le some_ listens
      exact ⟨rfl, fun _ => armed, by simp, by simp, by simp, fun _ => still, fun _ => still, by
        simp only [ParentTokens]; omega⟩
  case accept =>
      have still := listened.imp_right fun some_ => Nat.lt_of_lt_of_le some_ listens
      split
      · exact .serverErr armed (.inr still)
      · exact .timedLoop armed still (by simpa only [quiet, Nat.zero_add] using tokens)
  case stopTimer =>
      split
      · exact .serverErr armed (.inr listened)
      · exact ⟨rfl, fun _ => armed, by simp, by simp, by simp, fun _ => listened, fun _ => listened, tokens⟩
  case writeAck =>
      have bound := charge_wrote_le (natural_of_setupFaults obeyed rfl) p.tally
      have still := listened.imp_right fun some_ => Nat.lt_of_lt_of_le some_ listens
      exact .timedLoop armed still (by simp only [Socket.Locals.observe_idx]; omega)
  case wait =>
      simp only [Recv.serverErr, Socket.Locals.observe_errored, unfailed, Bool.false_eq_true, if_false]
      exact .release rfl fun _ => listened
  case serverErr => exact .release rfl wrote
  case readSent =>
      have still := listened.imp_right fun some_ => Nat.lt_of_lt_of_le some_ listens
      exact ⟨rfl, fun _ => armed, by simp, by simp, by simp, fun _ => still, fun _ => still,
        by simpa only [ParentTokens, quiet, Socket.Locals.observe_idx] using tokens⟩
  case startTimer =>
      exact ⟨rfl, fun _ => armed, by simp, by simp, by simp, fun _ => listened, fun _ => listened, tokens⟩
  case recv =>
      have still := listened.imp_right fun some_ => Nat.lt_of_lt_of_le some_ listens
      exact ⟨rfl, fun _ => armed, by simp, by simp, by simp, fun _ => still, fun _ => still,
        by simpa only [ParentTokens, quiet, Socket.Locals.observe_idx] using tokens⟩

theorem ChildPace.sendLoop {l : Locals} {t : Tally} {handles : List Handle} (wrote : t.wrote 0 = 0)
    (pipes : HasPipes l handles) (tokens : l.idx + 1 ≤ t.took 0) :
    ChildPace iterCnt (Recv.sendLoop iterCnt l) t handles := by
  unfold Recv.sendLoop
  split
  · exact ⟨wrote, by simp, fun _ => ⟨pipes.fds1, pipes.fds2⟩, tokens⟩
  · exact ⟨wrote, by simp, by simp [Pc.pastLoop], show iterCnt + 1 ≤ t.took 0 by omega⟩

theorem ChildPace.advance (pace : ChildPace iterCnt c.locals c.tally c.handles)
    (turn : Turn (program iterCnt msgSize) w 1 c call r)
    (obeyed : setupFaults (program iterCnt msgSize) parent child w 1 c call r = true)
    (works : 0 < c.tally.took 0 → child.noClient = false ∧ w.listening = true) :
    ChildPace iterCnt (resume iterCnt msgSize c.locals r) (c.tally.charge call r) (chargeHandles c.handles call r) := by
  obtain ⟨wrote, client, pipes, tokens⟩ := pace
  have asked : request msgSize c.locals = some call := turn.request
  have quiet := charge_wrote c.tally call r
  cases pc : c.locals.pc <;>
    simp only [ChildTokens, pc] at tokens <;>
    simp only [request, pc, Option.some.injEq, reduceCtorEq] at asked <;> subst asked <;>
    simp only [pc, Pc.pastLoop, true_implies, reduceCtorEq, false_implies] at client pipes <;>
    simp only [ne_eq, reduceCtorEq, not_false_eq_true, implies_true, true_implies] at quiet <;>
    simp only [resume, continueAt, Locals.observe_pc, pc]
  case readReady =>
      rw [pipes.fds1.fst] at turn obeyed quiet ⊢
      obtain ⟨rfl, -⟩ := turn.read_one (natural_of_setupFaults obeyed rfl) pipes.fds1.readEnd pipes.fds1.writeEnd
      refine ⟨by rw [quiet, wrote], by simp, fun _ => pipes.of_settled rfl (by simp), ?_⟩
      simp [ChildTokens, Tally.charge, bump]
  case socketClient =>
      obtain ⟨gets, -⟩ : child.socket = false ∧ child.connect = false := by
        simpa only [Faults.noClient, Bool.or_eq_false_iff] using (works tokens).1
      have natural := natural_of_setupFaults obeyed gets
      obtain rfl := handle_of_socket natural
      simp only [Reply.fd_handle, Fd.below_some, Bool.false_eq_true, if_false]
      exact ⟨wrote, fun _ => by simp, fun _ => pipes.of_settled rfl (by simp), tokens⟩
  case connect =>
      obtain ⟨-, connects⟩ : child.socket = false ∧ child.connect = false := by
        simpa only [Faults.noClient, Bool.or_eq_false_iff] using (works tokens).1
      obtain rfl := ok_of_connect (natural_of_setupFaults obeyed connects) client (works tokens).2
      simp only [Reply.failed_ok, Bool.false_eq_true, if_false]
      exact .sendLoop wrote ⟨pipes.fds1, pipes.fds2⟩ tokens
  case send =>
      have same : (c.tally.charge (.send c.locals.fdClient msgSize) r).took = c.tally.took := by cases r <;> rfl
      split
      · exact .sendLoop (by rw [quiet, wrote]) (pipes.of_settled rfl (by simp)) (by rw [same]; exact tokens)
      · exact ⟨by rw [quiet, wrote], by simp, fun _ => pipes.of_settled rfl (by simp), by
          simpa only [ChildTokens, same, Socket.Locals.observe_idx] using tokens⟩
  case writeSent =>
      rw [pipes.fds2.snd] at obeyed ⊢
      obtain ⟨rfl, -⟩ := Turn.write_one (natural_of_setupFaults obeyed rfl) pipes.fds2.writeEnd
      exact ⟨by simp [Tally.charge, bump, wrote], by simp, fun _ => pipes.of_settled rfl (by simp), tokens⟩
  case readAck =>
      rw [pipes.fds1.fst] at turn obeyed quiet ⊢
      obtain ⟨rfl, -⟩ := turn.read_one (natural_of_setupFaults obeyed rfl) pipes.fds1.readEnd pipes.fds1.writeEnd
      refine .sendLoop (by rw [quiet, wrote]) (pipes.of_settled rfl (by simp)) ?_
      simpa [Tally.charge, bump] using tokens
  case clientErr =>
      have same : c.tally.charge .killSelf r = c.tally := rfl
      rw [same]
      exact ⟨wrote, by simp, by simp [Pc.pastLoop], tokens⟩

/-! ## Parent and child -/

/-- The parent does not wait for a child that is gone, and leaves none behind. -/
structure Attached (iterCnt msgSize : Nat) (faults : Faults) (p c : Proc Locals) : Prop where
  parent : ParentPace iterCnt faults p.locals p.tally
  child : ChildPace iterCnt c.locals c.tally c.handles
  running : p.status = .running
  alive : c.status = .running ∨ c.locals.pc = .returned ∨ p.locals.pc.waited = true
  collected : p.locals.pc.waited = true → c.finished (program iterCnt msgSize) = true

theorem Attached.took_le_wrote (attached : Attached iterCnt msgSize parent p c) (procs : w.procs = [p, c])
    (balanced : Balanced w) : c.tally.took 0 ≤ p.tally.wrote 0 := by
  have pipe := balanced.pipe 0
  have quiet := attached.child.wrote
  simp only [total_pair procs] at pipe
  omega

theorem child_call {l : Locals} {took : Nat} (r : Reply) (tokens : ChildTokens iterCnt l took)
    (asked : request msgSize l = some call) :
    call.signals = false ∨ call = .killSelf ∧ (resume iterCnt msgSize l r).pc = .returned := by
  cases pc : l.pc <;> simp only [ChildTokens, pc] at tokens <;>
    simp only [request, pc, Option.some.injEq, reduceCtorEq] at asked <;> subst asked
  case clientErr => exact .inr ⟨rfl, by simp only [resume, continueAt, Locals.observe_pc, pc]⟩
  all_goals exact .inl rfl

section Steps

variable (attached : Attached iterCnt msgSize parent p c) (procs : w.procs = [p, c])
include attached procs

theorem Attached.parent_step (turn : Turn (program iterCnt msgSize) w 0 p call r)
    (obeyed : setupFaults (program iterCnt msgSize) parent child w 0 p call r = true)
    (interrupts : w.sigintIgnored = false) (pid : p.locals.pid = c.id) (distinct : p.id ≠ c.id) (positive : 0 < c.id) :
    Attached iterCnt msgSize parent
      { p.advance (program iterCnt msgSize) call r with status := w.fate (program iterCnt msgSize) 0 0 p call r }
      { c with status := w.fate (program iterCnt msgSize) 0 1 c call r } := by
  have pace := attached.parent.advance turn obeyed
  obtain ⟨parent, childPace, running, alive, collected⟩ := attached
  rcases parent_call iterCnt r parent.pc parent.armed parent.unfailed turn.request with
    ⟨silent, same⟩ | ⟨rfl | ⟨-, rfl⟩, after⟩
  · refine ⟨pace, childPace, (fate_of_silent silent).trans running, ?_, fun ceased => finished_fate (collected ?_)⟩
    · rw [fate_of_silent silent]
      exact alive.imp_right (Or.imp_right same.trans)
    · exact same.symm.trans ceased
  · have natural := natural_of_setupFaults obeyed rfl
    obtain rfl := ok_of_plain natural rfl
    obtain ⟨index, zombie⟩ := Option.isSome_iff_exists.mp natural
    obtain ⟨rfl, finished⟩ := zombie_of_pair procs zombie
    exact ⟨pace, childPace, by simp [World.fate, zombie, running], .inr (.inr after), fun _ => finished_fate finished⟩
  · -- the signal ends the child, and only the child
    obtain rfl := ok_of_plain (natural_of_setupFaults obeyed rfl) rfl
    have own : w.fate (program iterCnt msgSize) 0 0 p (.kill p.locals.pid) .ok = p.status := by
      have other : ¬ (p.locals.pid = 0 ∨ p.id = p.locals.pid) := by omega
      simp [World.fate, other]
    have killed : w.fate (program iterCnt msgSize) 0 1 c (.kill p.locals.pid) .ok ≠ .running := by
      simp only [World.fate, interrupts, pid]
      cases c.status <;> simp [Status.kill]
    exact ⟨pace, childPace, own.trans running, .inr (.inr after), fun _ => by simp [Proc.finished, killed]⟩

theorem Attached.child_step (turn : Turn (program iterCnt msgSize) w 1 c call r)
    (obeyed : setupFaults (program iterCnt msgSize) parent child w 1 c call r = true)
    (balanced : Balanced w) (survives : parent.noServer = true ∨ child.noClient = false) :
    Attached iterCnt msgSize parent { p with status := w.fate (program iterCnt msgSize) 1 0 p call r }
      { c.advance (program iterCnt msgSize) call r with
        status := w.fate (program iterCnt msgSize) 1 1 c call r } := by
  have works : 0 < c.tally.took 0 → child.noClient = false ∧ w.listening = true := by
    intro some_
    obtain ⟨works, listens⟩ := attached.parent.wrote (Nat.lt_of_lt_of_le some_ (attached.took_le_wrote procs balanced))
    refine ⟨survives.resolve_left (by simp [works]), ?_⟩
    rw [balanced.listening, total_pair procs]
    omega
  have pace := attached.child.advance turn obeyed works
  obtain ⟨parentPace, childPace, running, alive, collected⟩ := attached
  have waits : p.locals.pc.waited ≠ true := by
    intro ceased
    have ended := collected ceased
    rw [not_finished turn.running turn.request] at ended
    contradiction
  rcases child_call r childPace.tokens turn.request with silent | ⟨rfl, after⟩
  · refine ⟨parentPace, pace, (fate_of_silent silent).trans running, .inl ?_, fun ceased => absurd ceased waits⟩
    exact (fate_of_silent silent).trans turn.running
  · refine ⟨parentPace, pace, ?_, .inr (.inl after), fun ceased => absurd ceased waits⟩
    cases r <;> simp [World.fate, running]

end Steps

theorem parent_waiting {l : Locals} (isParent : l.pc.ofParent = true) (asked : request msgSize l = some call)
    (waits : waiting call = true) : l.pc = .accept ∨ l.pc = .readSent := by
  cases pc : l.pc <;> simp only [pc, Pc.ofParent, Bool.false_eq_true] at isParent <;>
    simp only [request, pc, Option.some.injEq] at asked
  case accept => exact .inl rfl
  case readSent => exact .inr rfl
  case release s =>
      cases s <;> simp only [Release.request, Option.some.injEq, reduceCtorEq] at asked <;> subst asked <;> contradiction
  all_goals
    subst asked
    contradiction

theorem Attached.not_leftBehind {allowed : World Locals → Label → Prop} (attached : Attached iterCnt msgSize parent p c)
    (procs : w.procs = [p, c]) (balanced : Balanced w) (loops : 0 < iterCnt) :
    ¬ LeftBehind (program iterCnt msgSize) allowed waiting w := by
  have bound := attached.took_le_wrote procs balanced
  obtain ⟨parentPace, childPace, running, alive, collected⟩ := attached
  apply not_leftBehind_of_pair procs
  · -- a child that has ended on its own has all the tokens it needs
    intro ceased forever
    obtain ⟨q, call, found, -, asked, waits, -⟩ := forever w (.refl w)
    obtain rfl : p = q := by simpa [procs] using found
    have waiting := parent_waiting parentPace.pc asked waits
    have ended : c.locals.pc = .returned := by
      rcases alive with alive | returned | released
      · simp only [Proc.finished, alive, bne_self_eq_false, Bool.false_or, Option.isNone_iff_eq_none,
          program_request] at ceased
        have tokens := childPace.tokens
        cases pc : c.locals.pc <;> simp [pc, ChildTokens, request] at tokens ceased ⊢
      · exact returned
      · rcases waiting with pc | pc <;> simp [pc, Pc.waited] at released
    have enough := childPace.tokens
    have tokens := parentPace.tokens
    rw [ChildTokens, ended] at enough
    rcases waiting with pc | pc <;> rw [ParentTokens, pc] at tokens <;> dsimp only at enough tokens <;> omega
  · intro ceased forever
    obtain ⟨q, call, found, alive, asked, waits, -⟩ := forever w (.refl w)
    obtain rfl : c = q := by simpa [procs] using found
    have isParent := parentPace.pc
    have released : p.locals.pc.waited = true := by
      simp only [Proc.finished, running, bne_self_eq_false, Bool.false_or, Option.isNone_iff_eq_none, program_request] at ceased
      cases pc : p.locals.pc <;> simp [pc, Pc.ofParent, Pc.waited, request] at isParent ceased ⊢
    have ended := collected released
    rw [not_finished alive asked] at ended
    contradiction

theorem attached_of_fork {n : Int} (preparing : Preparing Pc.setup p) (atFork : p.locals.pc = .setup .fork)
    (pipes : HasPipes p.locals p.handles) (positive : 0 < n) :
    Attached iterCnt msgSize parent (p.advance (program iterCnt msgSize) .fork (.pid n))
      (p.spawn (program iterCnt msgSize) n) := by
  have charged : p.tally.charge .fork (.pid n) = .zero := preparing.tally
  have atServer := resume_fork_parent iterCnt msgSize p.locals atFork positive
  have atClient := resume_fork_child iterCnt msgSize p.locals atFork
  constructor
  · rw [Proc.advance_locals, atServer, Proc.advance_tally, charged]
    exact ⟨rfl, fun _ => rfl, by simp, by simp, by simp, by simp [Pc.listened], by simp [Tally.zero], rfl⟩
  · rw [Proc.spawn_locals, atClient]
    exact ⟨rfl, by simp, fun _ => ⟨pipes.fds1, pipes.fds2⟩, trivial⟩
  · exact preparing.running
  · exact .inl rfl
  · rw [Proc.advance_locals, atServer]
    simp [Pc.waited]

theorem attached_of_reachable (survives : parent.noServer = true ∨ child.noClient = false)
    (interrupts : machine.sigintIgnored = false)
    (reachable : Faulty (program iterCnt msgSize) (.setup .allocDiffs) parent child machine errno errored w) :
    (∃ p, w.procs = [p] ∧ Preparing Pc.setup p) ∨
      ∃ p c, IsPair (fun l : Locals => l.pc.beforeFork = true) (fun l => l.pid) w p c ∧
        Attached iterCnt msgSize parent p c := by
  obtain ⟨first, single, preparing⟩ := Preparing.entry Pc.setup machine errno errored
  refine pair_invariant (Preparing Pc.setup) (Attached iterCnt msgSize parent) forksOnce single preparing ?_ ?_ ?_ ?_ reachable
  · intro w p call r permitted turn noChild preparing
    exact preparing.advance starts turn (preparing.natural starts turn (turn.obeys permitted)) noChild
  · intro w p n permitted turn preparing
    have natural := natural_of_setupFaults (turn.obeys permitted) rfl
    simp only [World.natural, Bool.and_eq_true, decide_eq_true_eq] at natural
    obtain ⟨atFork, pipes⟩ := preparing.atFork starts turn.request
    exact attached_of_fork preparing atFork pipes natural.1
  · intro w p c call r earlier pair permitted turn attached
    exact attached.parent_step pair.procs turn (turn.obeys permitted)
      ((sigintIgnored_of_reachable earlier).trans interrupts) pair.parentPid pair.distinct pair.positive
  · intro w p c call r earlier pair permitted turn attached
    exact attached.child_step pair.procs turn (turn.obeys permitted)
      (balanced_of_reachable (balanced_boot _ _) earlier) survives

theorem hangFree_of_survives (loops : 0 < iterCnt) (survives : parent.noServer = true ∨ child.noClient = false) :
    HangFree (program iterCnt msgSize) (.setup .allocDiffs) parent child := by
  intro machine errno errored w interrupts reachable
  rcases attached_of_reachable survives interrupts reachable with ⟨p, procs, -⟩ | ⟨p, c, pair, attached⟩
  · exact not_leftBehind_of_single procs
  · exact attached.not_leftBehind pair.procs (balanced_of_reachable (balanced_boot _ _) reachable) loops

/-! ## A server whose client fails -/

/-- The replies of a server that works, up to the call in which it waits for its client. -/
def opening (parent : Faults) : List Label :=
  [⟨0, .handle (.socket .listening)⟩, ⟨0, .ok⟩, ⟨0, .ok⟩, ⟨0, .size 1⟩] ++
    if parent.accept then [⟨0, .fail (.other 1)⟩] else []

/-- The replies of the calls that the child's faults leave to it, and of its last signal. -/
def givingUp (child : Faults) : List Label :=
  if child.socket then [⟨1, .size 1⟩, ⟨1, .fail (.other 1)⟩, ⟨1, .ok⟩]
  else [⟨1, .size 1⟩, ⟨1, .handle (.socket .client)⟩, ⟨1, .fail (.other 1)⟩, ⟨1, .ok⟩]

/-- The parent waits for a connection, or for a message if its `accept` has failed. -/
structure AwaitsClient (w : World Locals) (p : Proc Locals) (accepts : Bool) : Prop where
  running : p.status = .running
  pc : p.locals.pc = if accepts then .accept else .readSent
  server : p.locals.fdServer = some (.socket .listening)
  pipes : HasPipes p.locals p.handles
  backlog : w.backlog = 0
  empty : w.pipe 1 = 0

section Runs

attribute [local simp] follow answers step World.answer World.signalled World.fate World.account Proc.advance
  Proc.spawn Proc.offspring World.possible World.natural setupFaults Faults.hits upToFork opening givingUp World.boot
  Machine.plain request continueAt Reply.errno Reply.failed forked Setup.request Socket.Locals.prepare
  Socket.Locals.entry chargeHandles chargePriority chargeCores Tally.charge Socket.Locals.observe Status.kill
  Call.fallible Proc.finished Fd.ends pipeCapacity bump drain timedLoop

/-- The child ends before it has connected. -/
theorem noClient_run (iterCnt msgSize : Nat) (serves : parent.noServer = false) (fails : child.noClient = true) (loops : 0 < iterCnt) :
    ∃ w p c, follow (program iterCnt msgSize) (setupFaults (program iterCnt msgSize) parent child)
      (World.boot .plain (Locals.entry (.setup .allocDiffs) .eagain false))
      (upToFork ++ opening parent ++ givingUp child) = some w ∧
      w.procs = [p, c] ∧ AwaitsClient w p (!parent.accept) ∧ c.status = .killed := by
  obtain ⟨socket, bind, listen, accept, connect⟩ := parent
  obtain ⟨⟨rfl, rfl⟩, rfl⟩ : (socket = false ∧ bind = false) ∧ listen = false := by
    simpa [Faults.noServer] using serves
  obtain ⟨socket, bind, listen, accept', connect⟩ := child
  cases accept <;> cases socket
  case false.false =>
      obtain rfl : connect = true := by simpa [Faults.noClient] using fails
      simp
      exact ⟨rfl, rfl, rfl, ⟨⟨rfl, by simp, by simp⟩, ⟨rfl, by simp, by simp⟩⟩, rfl, rfl⟩
  case true.false =>
      obtain rfl : connect = true := by simpa [Faults.noClient] using fails
      simp [loops]
      exact ⟨rfl, rfl, rfl, ⟨⟨rfl, by simp, by simp⟩, ⟨rfl, by simp, by simp⟩⟩, rfl, rfl⟩
  all_goals
    simp [loops]
    exact ⟨rfl, rfl, rfl, ⟨⟨rfl, by simp, by simp⟩, ⟨rfl, by simp, by simp⟩⟩, rfl, rfl⟩

end Runs

theorem AwaitsClient.leftBehind {accepts : Bool} (awaits : AwaitsClient w p accepts) (spared : parent.accept = !accepts)
    (procs : w.procs = [p, c]) (gone : c.finished (program iterCnt msgSize) = true) :
    LeftBehind (program iterCnt msgSize) (Obeys (program iterCnt msgSize)
      (setupFaults (program iterCnt msgSize) parent child)) waiting w := by
  obtain ⟨running, pc, server, pipes, backlog, empty⟩ := awaits
  have found : w.procs[0]? = some p := by rw [procs]; rfl
  have second : w.procs[1]? = some c := by rw [procs]; rfl
  cases accepts with
  | true =>
      have asked : request msgSize p.locals = some (.accept (some (.socket .listening))) := by
        simp only [request, pc, if_true, server]
      refine leftBehind_of_stuck 1 found running asked rfl (fun r permitted => ?_) second gone (nobody_else procs)
      have natural := natural_of_setupFaults permitted spared
      rw [not_natural_accept backlog] at natural
      contradiction
  | false =>
      have asked : request msgSize p.locals = some (.read (some (.readEnd 1))) := by
        simp only [request, pc, Bool.false_eq_true, if_false, pipes.fds2.fst]
      refine leftBehind_of_stuck 1 found running asked rfl (fun r permitted => ?_) second gone (nobody_else procs)
      exact read_blocks found asked empty pipes.fds2.readEnd pipes.fds2.writeEnd (natural_of_setupFaults permitted rfl)

theorem not_hangFree_of_noClient (serves : parent.noServer = false) (fails : child.noClient = true)
    (loops : 0 < iterCnt) : ¬ HangFree (program iterCnt msgSize) (.setup .allocDiffs) parent child := by
  intro free
  obtain ⟨w, p, c, followed, procs, awaits, killed⟩ :=
    noClient_run iterCnt msgSize serves fails loops
  apply free .plain .eagain false w rfl (follow_reachable (.refl _) followed)
  exact awaits.leftBehind (Bool.not_not _).symm procs (by simp [Proc.finished, killed])

/-- `recv_test` survives a server that does not work, and a client that gets its connection. -/
theorem hangFree_iff (loops : 0 < iterCnt) :
    HangFree (program iterCnt msgSize) (.setup .allocDiffs) parent child ↔
      parent.noServer = true ∨ child.noClient = false := by
  cases serves : parent.noServer <;> cases fails : child.noClient
  case false.true => exact iff_of_false (not_hangFree_of_noClient serves fails loops) (by simp)
  all_goals exact iff_of_true (hangFree_of_survives loops (by simp [serves, fails])) (by simp)

end Oreo.Bench.Recv
