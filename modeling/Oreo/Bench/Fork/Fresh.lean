import Oreo.Bench.Fork.Model
import Oreo.Posix.Succession

namespace Oreo.Bench.Fork

open Oreo.Posix Oreo.Transition Oreo.Utils

/-! # Every sample of `fork_test` is from the child of its iteration -/

/-- The signal of a child is sent, and `wait` fails only where there is nothing to wait for. -/
def childrenDie : Rule Locals := fun w _ _ call r =>
  match call with
  | .killSelf => r == .ok
  | .wait => !r.failed || (w.procs.drop 1).all fun q => q.status == .reaped
  | _ => true

abbrev Trace := List (World Locals × Label)

/-- In iteration `idx` the parent makes the process at index `child`. -/
structure Forks (idx child : Nat) (taken : World Locals × Label) : Prop where
  parent : taken.2.proc = 0
  created : ∃ id : Int, 0 < id ∧ taken.2.reply = .pid id
  iteration : ∃ p, taken.1.procs[0]? = some p ∧ p.locals.pc = .fork ∧ p.locals.idx = idx
  index : taken.1.procs.length = child

variable (iterCnt pages : Nat)

/-- The parent computes the sample of iteration `idx` from `t`, which the child of that iteration
wrote last of all. By then every child has been collected. -/
structure Reading (front : Trace) (w : World Locals) (t : UInt64) (idx sample : Nat) : Prop where
  parent : ∃ p, w.procs[0]? = some p ∧ p.locals.pc = .loadChildEnd ∧ p.locals.idx = idx ∧
    sample = getDuration p.locals.tstart t
  written : ∃ child, lastStamp (program iterCnt pages) front = some (child, t) ∧ ∃ taken ∈ front, Forks idx child taken
  collected : ∀ index q, 0 < index → w.procs[index]? = some q → q.status = .reaped

def Sampled (trace : Trace) (idx sample : Nat) : Prop :=
  ∃ front w t back, trace = front ++ (w, ⟨0, .time t⟩) :: back ∧ Reading iterCnt pages front w t idx sample

/-- The samples before iteration `idx` are in place. -/
abbrev Measured (trace : Trace) (idx : Nat) (childDiffs : List Nat) : Prop :=
  Filled (Sampled iterCnt pages) iterCnt trace idx childDiffs

/-- Either the child has still to stamp, or its stamp is the last one and it has still to signal
itself, if anything. -/
inductive AtWork (trace : Trace) (w : World Locals) (n : Nat) (c : Proc Locals) : Prop where
  | stamping : c.status = .running → c.locals.pc = .stampChildEnd → AtWork trace w n c
  | stamped : lastStamp (program iterCnt pages) trace = some (n + 1, w.shared) →
      (c.status = .running → c.locals.pc = .killSelf) → AtWork trace w n c

/-- How far the parent is, and which children there are. -/
def Stage (trace : Trace) (w : World Locals) (l : Locals) : Prop :=
  match l.pc with
  | .allocPages | .mapPage _ | .allocChildDiffs => Alone w 0
  | .allocParentDiffs | .mapChildEnd => Alone w 0 ∧ (l.missing = 0 → l.childDiffs.length = iterCnt)
  | .startTimer | .fork => l.idx < iterCnt ∧ Measured iterCnt pages trace l.idx l.childDiffs ∧ Alone w l.idx
  | .stopTimer | .wait => l.idx < iterCnt ∧ Measured iterCnt pages trace l.idx l.childDiffs ∧
      (∃ taken ∈ trace, Forks l.idx (l.idx + 1) taken) ∧
        ∃ c, Attends w l.idx c ∧ AtWork iterCnt pages trace w l.idx c
  | .loadChildEnd => l.idx < iterCnt ∧ Measured iterCnt pages trace l.idx l.childDiffs ∧
      (∃ taken ∈ trace, Forks l.idx (l.idx + 1) taken) ∧
        Alone w (l.idx + 1) ∧ lastStamp (program iterCnt pages) trace = some (l.idx + 1, w.shared)
  | .allocResult => l.idx = iterCnt ∧ Measured iterCnt pages trace l.idx l.childDiffs ∧ Alone w l.idx
  | .returned => l.ret = false → l.idx = iterCnt ∧ Measured iterCnt pages trace l.idx l.childDiffs ∧ Alone w l.idx ∧
      l.childCollected = some l.childDiffs
  | .crashed => True
  | .stampChildEnd | .killSelf => False

def Tracks (trace : Trace) (w : World Locals) : Prop :=
  ∃ p, w.procs[0]? = some p ∧ Stage iterCnt pages trace w p.locals

/-- The stage of the parent after it has received the reply `r` to `call`. -/
abbrev StageAfter (trace : Trace) (w : World Locals) (p : Proc Locals) (call : Call) (r : Reply) : Prop :=
  Stage iterCnt pages (trace ++ [(w, ⟨0, r⟩)]) (w.answer (program iterCnt pages) 0 p call r)
    (resume iterCnt pages p.locals r)

variable {iterCnt pages : Nat} {trace : Trace} {w : World Locals} {p c : Proc Locals} {l : Locals} {call : Call} {r : Reply}
variable {index n : Nat}

theorem Sampled.snoc {idx sample : Nat} (sampled : Sampled iterCnt pages trace idx sample) (taken : World Locals × Label) :
    Sampled iterCnt pages (trace ++ [taken]) idx sample := by
  obtain ⟨front, w, t, back, rfl, reading⟩ := sampled
  exact ⟨front, w, t, back ++ [taken], by simp, reading⟩

theorem measured_snoc {idx : Nat} {childDiffs : List Nat} (measured : Measured iterCnt pages trace idx childDiffs)
    (taken : World Locals × Label) : Measured iterCnt pages (trace ++ [taken]) idx childDiffs :=
  measured.snoc taken fun _ _ sampled => sampled.snoc taken

theorem stage_err (l : Locals) : Stage iterCnt pages trace w l.err := fun success => by contradiction

theorem stage_mapPages (alone : Alone w 0) (i : Nat) : Stage iterCnt pages trace w (l.mapPages pages i) := by
  by_cases more : i < pages
  · simp only [Locals.mapPages, if_pos more]
    exact alone
  · simp only [Locals.mapPages, if_neg more]
    exact alone

theorem stage_timedLoop (bound : l.idx ≤ iterCnt) (measured : Measured iterCnt pages trace l.idx l.childDiffs)
    (alone : Alone w l.idx) : Stage iterCnt pages trace w (l.timedLoop iterCnt) := by
  unfold Locals.timedLoop
  split
  · next room => exact ⟨room, measured, alone⟩
  · exact ⟨by dsimp only; omega, measured, alone⟩

/-- A turn of the child. -/
theorem AtWork.child (atWork : AtWork iterCnt pages trace w n c) (attends : Attends w n c)
    (turn : Turn (program iterCnt pages) w (n + 1) c call r) (rule : childrenDie w (n + 1) c call r = true)
    (fatal : w.sigintIgnored = false) :
    ∃ c', Attends (w.answer (program iterCnt pages) (n + 1) c call r) n c' ∧
      AtWork iterCnt pages (trace ++ [(w, ⟨n + 1, r⟩)]) (w.answer (program iterCnt pages) (n + 1) c call r) n c' := by
  have asked := turn.request
  cases atWork with
  | stamping running pc =>
      simp only [program, request, pc, Option.some.injEq] at asked
      subst asked
      obtain ⟨t, rfl⟩ : ∃ t, r = .time t := by
        have possible := turn.possible
        cases r <;> simp [World.possible, World.natural, Call.fallible] at possible ⊢
      refine ⟨_, attends.child turn rfl ?_, .stamped ?_ fun _ => ?_⟩
      · simp [World.fate, running]
      · rw [lastStamp_stamp turn]
        rfl
      · simp [Proc.advance, program, resume, continueAt, pc]
  | stamped last ending =>
      have pc := ending turn.running
      simp only [program, request, pc, Option.some.injEq] at asked
      subst asked
      obtain rfl : r = .ok := by simpa [childrenDie] using rule
      have killed : w.fate (program iterCnt pages) (n + 1) (n + 1) c .killSelf .ok = .killed := by
        simp [World.fate, fatal, turn.running, Status.kill]
      refine ⟨_, attends.child turn rfl (by simp [killed]), .stamped ?_ fun running => ?_⟩
      · rw [lastStamp_other turn (by simp)]
        exact last
      · simp [killed] at running

theorem AtWork.parent (atWork : AtWork iterCnt pages trace w n c) (turn : Turn (program iterCnt pages) w 0 p call r)
    (unstamped : call ≠ .stampShared) :
    AtWork iterCnt pages (trace ++ [(w, ⟨0, r⟩)]) (w.answer (program iterCnt pages) 0 p call r) n c := by
  cases atWork with
  | stamping running pc => exact .stamping running pc
  | stamped last ending =>
      refine .stamped ?_ ending
      rw [lastStamp_other turn unstamped, last]
      exact congrArg (fun t => some (n + 1, t)) (shared_account unstamped).symm

theorem alone_next (alone : Alone w n) (turn : Turn (program iterCnt pages) w 0 p call r) (ordinary : call ≠ .fork) :
    Alone (w.answer (program iterCnt pages) 0 p call r) n := by
  refine alone.answer turn ?_
  cases call <;> first | rfl | contradiction

theorem stage_setup (stage : Stage iterCnt pages trace w p.locals) (turn : Turn (program iterCnt pages) w 0 p .allocate r)
    (during : p.locals.pc ≠ .allocResult) : StageAfter iterCnt pages trace w p .allocate r := by
  have asked := turn.request
  cases pc : p.locals.pc <;> simp only [program, request, pc, Option.some.injEq, reduceCtorEq] at asked <;>
    simp only [Stage, pc] at stage <;> simp only [StageAfter, resume, continueAt, Locals.observe_pc, pc]
  case allocPages =>
    split
    · exact stage_err _
    · exact stage_mapPages (alone_next stage turn (by simp)) 0
  case mapPage i =>
    split
    · exact stage_err _
    · exact stage_mapPages (alone_next stage turn (by simp)) (i + 1)
  case allocChildDiffs =>
    have alone := alone_next stage turn (by simp)
    split
    · exact ⟨alone, fun none => by simp at none⟩
    · exact ⟨alone, fun _ => by simp [initDiffArray]⟩
  case allocParentDiffs =>
    obtain ⟨alone, allocated⟩ := stage
    have alone := alone_next alone turn (by simp)
    split
    · exact ⟨alone, fun none => by simp at none⟩
    · exact ⟨alone, allocated⟩
  case mapChildEnd =>
    obtain ⟨alone, allocated⟩ := stage
    split
    · exact stage_err _
    · next present =>
        have complete : p.locals.missing = 0 := by
          simp only [Locals.observe_missing, Bool.or_eq_true, decide_eq_true_eq, not_or, Nat.not_lt, Nat.le_zero] at present
          exact present.1
        exact stage_timedLoop (Nat.zero_le _) (.start (allocated complete)) (alone_next alone turn (by simp))
  case allocResult => exact absurd pc during

theorem stage_fork (stage : Stage iterCnt pages trace w p.locals) (turn : Turn (program iterCnt pages) w 0 p .fork r)
    (pc : p.locals.pc = .fork) : StageAfter iterCnt pages trace w p .fork r := by
  simp only [Stage, pc] at stage
  simp only [StageAfter, resume, continueAt, Locals.observe_pc, pc]
  obtain ⟨room, measured, alone⟩ := stage
  rcases fork_reply turn.possible with ⟨id, positive, rfl⟩ | ⟨errno, rfl⟩
  · have nonzero : id ≠ 0 := Int.ne_of_gt positive
    simp only [Reply.child_pid, nonzero, positive, if_true, if_false]
    have made : Forks p.locals.idx (p.locals.idx + 1) (w, ⟨0, .pid id⟩) :=
      ⟨rfl, ⟨id, positive, rfl⟩, ⟨p, turn.at_, pc, rfl⟩, alone.count⟩
    refine ⟨room, measured_snoc measured _, ⟨_, List.mem_append_right _ (List.mem_singleton_self _), made⟩, _,
      alone.fork turn, ?_⟩
    exact .stamping rfl (by simp [Proc.spawn, program, resume, continueAt, pc])
  · exact stage_err _

theorem stage_clock (stage : Stage iterCnt pages trace w p.locals) (turn : Turn (program iterCnt pages) w 0 p .clock r) :
    StageAfter iterCnt pages trace w p .clock r := by
  have asked := turn.request
  cases pc : p.locals.pc <;> simp only [program, request, pc, Option.some.injEq, reduceCtorEq] at asked <;>
    simp only [Stage, pc] at stage <;> simp only [StageAfter, resume, continueAt, Locals.observe_pc, pc]
  case startTimer =>
    obtain ⟨room, measured, alone⟩ := stage
    exact ⟨room, measured_snoc measured _, alone_next alone turn (by simp)⟩
  case stopTimer =>
    obtain ⟨room, measured, ⟨taken, member, made⟩, c, attends, atWork⟩ := stage
    refine ⟨room, measured_snoc measured _, ⟨taken, List.mem_append_left _ member, made⟩, c, ?_, ?_⟩
    · exact attends.parent turn rfl rfl
    · exact atWork.parent turn (by simp)

/-- The parent goes on when the child has ended, and that is after its stamp. -/
theorem stage_wait (stage : Stage iterCnt pages trace w p.locals) (turn : Turn (program iterCnt pages) w 0 p .wait r)
    (pc : p.locals.pc = .wait) (rule : childrenDie w 0 p .wait r = true) :
    StageAfter iterCnt pages trace w p .wait r := by
  simp only [Stage, pc] at stage
  simp only [StageAfter, resume, continueAt, Locals.observe_pc, pc]
  obtain ⟨room, measured, ⟨taken, member, made⟩, c, attends, atWork⟩ := stage
  have present : ¬ (w.procs.drop 1).all (fun q => q.status == .reaped) = true := by
    intro all
    have there : c ∈ w.procs.drop 1 :=
      List.mem_of_getElem? (by rw [List.getElem?_drop, Nat.add_comm]; exact attends.found)
    exact attends.present (by simpa using List.all_eq_true.mp all c there)
  obtain rfl : r = .ok := by
    apply ok_of_possible turn.possible rfl
    simpa only [childrenDie, Bool.or_eq_true, present, Bool.false_eq_true, or_false, Bool.not_eq_true'] using rule
  obtain ⟨finished, alone⟩ := attends.wait turn
  refine ⟨room, measured_snoc measured _, ⟨taken, List.mem_append_left _ member, made⟩, alone, ?_⟩
  cases atWork.parent turn (by simp) with
  | stamping running atStamp =>
      simp [Proc.finished, running, program, request, atStamp] at finished
  | stamped last ending => exact last

theorem stage_load (stage : Stage iterCnt pages trace w p.locals) (turn : Turn (program iterCnt pages) w 0 p .loadShared r)
    (pc : p.locals.pc = .loadChildEnd) : StageAfter iterCnt pages trace w p .loadShared r := by
  simp only [Stage, pc] at stage
  simp only [StageAfter, resume, continueAt, Locals.observe_pc, pc]
  obtain ⟨room, measured, made, alone, last⟩ := stage
  obtain rfl : r = .time w.shared := by simpa [World.possible, World.natural, Call.fallible] using turn.possible
  have sampled : Sampled iterCnt pages (trace ++ [(w, ⟨0, .time w.shared⟩)]) p.locals.idx
      (getDuration p.locals.tstart w.shared) :=
    ⟨trace, w, w.shared, [], rfl, ⟨p, turn.at_, pc, rfl, rfl⟩, ⟨_, last, made⟩, alone.collected⟩
  exact stage_timedLoop room ((measured_snoc measured _).set room sampled) (alone_next alone turn (by simp))

theorem stage_result (stage : Stage iterCnt pages trace w p.locals) (turn : Turn (program iterCnt pages) w 0 p .allocate r)
    (pc : p.locals.pc = .allocResult) : StageAfter iterCnt pages trace w p .allocate r := by
  simp only [Stage, pc] at stage
  simp only [StageAfter, resume, continueAt, Locals.observe_pc, pc]
  obtain ⟨full, measured, alone⟩ := stage
  split
  · exact trivial
  · exact fun _ => ⟨full, measured_snoc measured _, alone_next alone turn (by simp), rfl⟩

/-- A turn of the parent. -/
theorem Stage.parent (stage : Stage iterCnt pages trace w p.locals) (turn : Turn (program iterCnt pages) w 0 p call r)
    (rule : childrenDie w 0 p call r = true) : StageAfter iterCnt pages trace w p call r := by
  have asked := turn.request
  cases pc : p.locals.pc <;> simp only [program, request, pc, Option.some.injEq, reduceCtorEq] at asked <;> subst asked
  case allocResult => exact stage_result stage turn pc
  case startTimer | stopTimer => exact stage_clock stage turn
  case fork => exact stage_fork stage turn pc
  case wait => exact stage_wait stage turn pc rule
  case loadChildEnd => exact stage_load stage turn pc
  case stampChildEnd | killSelf => simp [Stage, pc] at stage
  all_goals exact stage_setup stage turn (by simp [pc])

/-- A turn of a child: it is the last one, and the parent has not collected it. -/
theorem Stage.child (stage : Stage iterCnt pages trace w l) (turn : Turn (program iterCnt pages) w index c call r)
    (forked : index ≠ 0) (rule : childrenDie w index c call r = true) (fatal : w.sigintIgnored = false) :
    Stage iterCnt pages (trace ++ [(w, ⟨index, r⟩)]) (w.answer (program iterCnt pages) index c call r) l := by
  have nobody : ∀ n, ¬ Alone w n := fun n alone => forked (alone.actor turn)
  cases pc : l.pc <;> simp only [Stage, pc, nobody, and_false, false_and] at stage ⊢
  case stopTimer | wait =>
    obtain ⟨room, measured, ⟨taken, member, made⟩, c', attends, atWork⟩ := stage
    obtain ⟨rfl, rfl⟩ := (attends.actor turn).resolve_left forked
    exact ⟨room, measured_snoc measured _, ⟨taken, List.mem_append_left _ member, made⟩, atWork.child attends turn rule fatal⟩
  case returned => exact fun success => (stage success).elim

variable {machine : Machine} {errno : Errno}

theorem tracks_of_run (fatal : machine.sigintIgnored = false)
    (run : Run (step (program iterCnt pages)) (Obeys (program iterCnt pages) childrenDie)
      (World.boot machine (Locals.entry pages errno)) trace w) : Tracks iterCnt pages trace w := by
  apply run.trace_invariant (Tracks iterCnt pages)
  · refine ⟨_, rfl, ?_⟩
    by_cases mapped : 0 < pages
    · simpa only [Locals.entry, Stage, if_pos mapped] using Alone.boot machine _
    · simpa only [Locals.entry, Stage, if_neg mapped] using Alone.boot machine _
  · intro trace w label next before tracks permitted stepped
    obtain ⟨p, found, stage⟩ := tracks
    obtain ⟨index, r⟩ := label
    obtain ⟨q, call, turn, rfl⟩ := step_eq_some.mp stepped
    have rule := turn.obeys permitted
    by_cases first : index = 0
    · subst first
      obtain rfl := Option.some_inj.mp (found.symm.trans turn.at_)
      exact ⟨_, answer_self turn, stage.parent turn rule⟩
    · have fatal : w.sigintIgnored = false := (sigintIgnored_of_reachable ⟨trace, before⟩).trans fatal
      exact ⟨_, answer_other turn (Ne.symm first) found, stage.child turn first rule fatal⟩

/-- When the parent returns without an error, every sample has been computed from what the child of
its iteration wrote, with no other child left, and `iterCnt` children have been made and collected. -/
theorem fork_test_timestamps_fresh (fatal : machine.sigintIgnored = false)
    (run : Run (step (program iterCnt pages)) (Obeys (program iterCnt pages) childrenDie)
      (World.boot machine (Locals.entry pages errno)) trace w)
    (found : w.procs[0]? = some p) (returned : p.locals.pc = .returned) (success : p.locals.ret = false) :
    (∀ idx < iterCnt, ∃ sample, p.locals.childDiffs[idx]? = some sample ∧ Sampled iterCnt pages trace idx sample) ∧
      p.locals.childCollected = some p.locals.childDiffs ∧ w.procs.length = iterCnt + 1 ∧
        ∀ index q, 0 < index → w.procs[index]? = some q → q.status = .reaped := by
  obtain ⟨p', same, stage⟩ := tracks_of_run fatal run
  obtain rfl := Option.some_inj.mp (same.symm.trans found)
  simp only [Stage, returned] at stage
  obtain ⟨full, measured, alone, collected⟩ := stage success
  rw [full] at measured alone
  exact ⟨measured.entries, collected, alone.count, alone.collected⟩

/-- Two iterations of "fork" with the `SMALL` size. -/
theorem fork_test_timestamps_fresh_small : ∃ trace w p,
    Run (step (program 2 0)) (Obeys (program 2 0) childrenDie) (World.boot .plain (Locals.entry 0 .eagain)) trace w ∧
      w.procs[0]? = some p ∧ p.locals.childDiffs = [4, 6] ∧ Sampled 2 0 trace 1 6 := by
  have followed : ∃ w p, follow (program 2 0) childrenDie (World.boot .plain (Locals.entry 0 .eagain))
      [⟨0, .ok⟩, ⟨0, .ok⟩, ⟨0, .ok⟩, ⟨0, .time 10⟩, ⟨0, .pid 2⟩, ⟨0, .time 12⟩, ⟨1, .time 14⟩, ⟨1, .ok⟩, ⟨0, .ok⟩, ⟨0, .time 14⟩,
        ⟨0, .time 20⟩, ⟨0, .pid 3⟩, ⟨2, .time 26⟩, ⟨0, .time 27⟩, ⟨2, .ok⟩, ⟨0, .ok⟩, ⟨0, .time 26⟩, ⟨0, .ok⟩] = some w ∧
      w.procs[0]? = some p ∧ p.locals.pc = .returned ∧ p.locals.ret = false ∧ p.locals.childDiffs = [4, 6] :=
    ⟨_, _, rfl, rfl, rfl, rfl, rfl⟩
  obtain ⟨w, p, followed, found, returned, success, diffs⟩ := followed
  obtain ⟨trace, run⟩ := follow_reachable (.refl _) followed
  obtain ⟨sample, stored, sampled⟩ := (fork_test_timestamps_fresh rfl run found returned success).1 1 (by decide)
  obtain rfl : 6 = sample := by simpa [diffs] using stored
  exact ⟨trace, w, p, run, found, diffs, sampled⟩

end Oreo.Bench.Fork
