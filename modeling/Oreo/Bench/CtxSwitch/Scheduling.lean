import Oreo.Bench.CtxSwitch.Progress
import Oreo.Posix.Own

namespace Oreo.Bench.CtxSwitch

open Oreo.Posix Oreo.Transition

/-! # Saving and restoring the priority and the affinity -/

variable {iterCnt : Nat} {w : World Locals} {p first : Proc Locals} {call : Call} {r : Reply} {steps : List (Locals × Reply)}

/-- A call that fails sets `errno`. -/
def SetsErrno (_ : World Locals) (label : Label) : Prop := label.reply ≠ .fail (.other 0)

/-- The locals of the next call: the statics are as the last one has left them. -/
def Locals.again (l : Locals) (errno : Errno) : Locals :=
  { Locals.entry errno with saved := l.saved, prio := l.prio, cpuset := l.cpuset }

def callAgain (w : World Locals) (errno : Errno) : World Locals :=
  { w with procs := w.procs.modify 0 fun p => { p with locals := p.locals.again errno } }

/-- The worlds in which a call of the test begins: the first one, or one after another call has
returned. -/
inductive Session : World Locals → Prop where
  | first (machine : Machine) (errno : Errno) : Session (World.boot machine (Locals.entry errno))
  | next {start w trace p} (config : BenchConfig) (errno : Errno) : Session start →
      Run (step (contextSwitchTest config)) SetsErrno start trace w → w.procs[0]? = some p → p.locals.pc = .returned →
        Session (callAgain w errno)

/-- `save_affinity_priority(false)` has succeeded: both of its calls have. -/
structure Saved (steps : List (Locals × Reply)) : Prop where
  priority : ∃ taken ∈ steps, taken.1.pc = .getPriority ∧ taken.2.failed = false
  affinity : ∃ taken ∈ steps, taken.1.pc = .getAffinity ∧ taken.2.failed = false

/-- How often `save_affinity_priority(true)` has been called: it starts with `setpriority`. -/
def restores (steps : List (Locals × Reply)) : Nat :=
  steps.countP fun taken => taken.1.pc == .restorePriority

def RestoresSucceed (steps : List (Locals × Reply)) : Prop :=
  ∀ taken ∈ steps, taken.1.pc = .restorePriority ∨ taken.1.pc = .restoreAffinity → taken.2.failed = false

structure SameScheduling (p first : Proc Locals) : Prop where
  priority : p.priority = first.priority
  cores : p.cores = first.cores

/-- The calls between a successful save and the label `cleanup`. -/
def Pc.guarded : Pc → Bool
  | .getPriority | .getAffinity | .restorePriority | .restoreAffinity | .close _ _ | .returned | .aborted => false
  | _ => true

def Locals.statics (l : Locals) : Bool × Int × List Nat := (l.saved, l.prio, l.cpuset)

theorem cleanup_of_saved {l : Locals} (saved : l.saved = true) : l.cleanup = { l with pc := .restorePriority } := by
  simp [Locals.cleanup, saved]

/-- Between the save and the cleanup the statics stay, and the cleanup finds them. -/
theorem continueAt_guarded (iterCnt : Nat) (l : Locals) (r : Reply) (guarded : l.pc.guarded = true) (saved : l.saved = true) :
    (continueAt iterCnt l r).statics = l.statics ∧
      ((continueAt iterCnt l r).pc.guarded = true ∨ (continueAt iterCnt l r).pc = .restorePriority) := by
  have loop (l : Locals) : (l.parentLoop iterCnt).statics = l.statics ∧ (l.parentLoop iterCnt).pc.guarded = true := by
    unfold Locals.parentLoop
    split <;> exact ⟨rfl, rfl⟩
  have childLoop (l : Locals) : (l.childLoop iterCnt).statics = l.statics ∧ (l.childLoop iterCnt).pc.guarded = true := by
    unfold Locals.childLoop
    refine ⟨rfl, ?_⟩
    dsimp only
    split <;> rfl
  have cleanup (l' : Locals) (same : l'.statics = l.statics) : l'.cleanup.statics = l.statics ∧
      (l'.cleanup.pc.guarded = true ∨ l'.cleanup.pc = .restorePriority) := by
    rw [cleanup_of_saved ((congrArg Prod.fst same).trans saved)]
    exact ⟨same, .inr rfl⟩
  cases pc : l.pc <;> simp only [pc, Pc.guarded, Bool.false_eq_true] at guarded <;> simp only [continueAt, pc]
  all_goals
    (try split_ifs) <;> first
      | exact ⟨rfl, .inl rfl⟩
      | exact cleanup _ rfl
      | exact ⟨(loop _).1, .inl (loop _).2⟩
      | exact ⟨(childLoop _).1, .inl (childLoop _).2⟩

/-- How far the parent has come since it was `first`, at the entry. -/
inductive Stage (first : Proc Locals) (steps : List (Locals × Reply)) (p : Proc Locals) : Prop where
  | entry : p.locals.pc = .getPriority → steps = [] → SameScheduling p first → Stage first steps p
  | affinity (l : Locals) (r : Reply) : p.locals.pc = .getAffinity → steps = [(l, r)] → l.pc = .getPriority →
      p.locals.saveFailed = r.failed → (r.failed = false → p.locals.prio = first.priority) → SameScheduling p first →
        Stage first steps p
  | unsaved : p.locals.pc = .returned → ¬ Saved steps → restores steps = 0 → SameScheduling p first → Stage first steps p
  | guarded : p.locals.pc.guarded = true ∨ p.locals.pc = .restorePriority → Saved steps → restores steps = 0 →
      p.locals.statics = (true, first.priority, first.cores) → Stage first steps p
  | halfway : p.locals.pc = .restoreAffinity → Saved steps → restores steps = 1 → p.locals.cpuset = first.cores →
      (RestoresSucceed steps → p.priority = first.priority) → Stage first steps p
  | restored : (∃ fd pending, p.locals.pc = .close fd pending) ∨ p.locals.pc = .returned → Saved steps →
      restores steps = 1 → (RestoresSucceed steps → SameScheduling p first) → Stage first steps p

theorem Stage.with_status (stage : Stage first steps p) (status : Status) : Stage first steps { p with status } := by
  cases stage with
  | entry pc empty same => exact .entry pc empty ⟨same.priority, same.cores⟩
  | affinity l r pc only earlier saveFailed prio same =>
      exact .affinity l r pc only earlier saveFailed prio ⟨same.priority, same.cores⟩
  | unsaved pc unsaved none same => exact .unsaved pc unsaved none ⟨same.priority, same.cores⟩
  | guarded pc saved none statics => exact .guarded pc saved none statics
  | halfway pc saved once cpuset priority => exact .halfway pc saved once cpuset priority
  | restored pc saved once same =>
      exact .restored pc saved once fun succeed => ⟨(same succeed).priority, (same succeed).cores⟩

section Steps

variable {taken : Locals × Reply}

theorem Saved.append (saved : Saved steps) (taken : Locals × Reply) : Saved (steps ++ [taken]) := by
  obtain ⟨⟨first, member, priority⟩, ⟨second, member', affinity⟩⟩ := saved
  exact ⟨⟨first, List.mem_append_left _ member, priority⟩, ⟨second, List.mem_append_left _ member', affinity⟩⟩

theorem RestoresSucceed.of_append (succeed : RestoresSucceed (steps ++ [taken])) : RestoresSucceed steps :=
  fun earlier member => succeed earlier (List.mem_append_left _ member)

theorem RestoresSucceed.last (succeed : RestoresSucceed (steps ++ [taken]))
    (pc : taken.1.pc = .restorePriority ∨ taken.1.pc = .restoreAffinity) : taken.2.failed = false :=
  succeed taken (List.mem_append_right _ (List.mem_singleton_self _)) pc

theorem restores_append (steps : List (Locals × Reply)) (taken : Locals × Reply) :
    restores (steps ++ [taken]) = restores steps + if taken.1.pc = .restorePriority then 1 else 0 := by
  simp [restores, List.countP_cons]

theorem restores_append_other (pc : taken.1.pc ≠ .restorePriority) : restores (steps ++ [taken]) = restores steps := by
  rw [restores_append, if_neg pc, Nat.add_zero]

end Steps

theorem stage_after_guarded (guarded : p.locals.pc.guarded = true) (saved : Saved steps) (none : restores steps = 0)
    (statics : p.locals.statics = (true, first.priority, first.cores)) :
    Stage first (steps ++ [(p.locals, r)]) (p.advance (program iterCnt) call r) := by
  have isSaved : p.locals.saved = true := congrArg Prod.fst statics
  obtain ⟨kept, next⟩ := continueAt_guarded iterCnt (p.locals.observe r) r guarded isSaved
  refine .guarded next (saved.append _) ?_ (kept.trans statics)
  rw [restores_append_other, none]
  intro pc
  rw [pc] at guarded
  contradiction

section Advance

variable (turn : Turn (program iterCnt) w 0 p call r)
include turn

theorem stage_after_getPriority (setsErrno : r ≠ .fail (.other 0)) (pc : p.locals.pc = .getPriority)
    (same : SameScheduling p first) : Stage first [(p.locals, r)] (p.advance (program iterCnt) call r) := by
  obtain rfl : Call.getPriority = call := by simpa [request, pc] using turn.request
  refine .affinity p.locals r ?_ rfl pc ?_ ?_ ⟨same.priority, same.cores⟩
  · simp [continueAt, pc]
  · cases r with
    | fail e =>
        have nonzero : e ≠ .other 0 := fun zero => setsErrno (congrArg Reply.fail zero)
        simp [continueAt, pc, Reply.errno, nonzero]
    | _ => simp [continueAt, pc, Reply.errno, Reply.failed]
  · intro succeeded
    have natural : r = .priority p.priority := by simpa [World.possible, succeeded, World.natural] using turn.possible
    simp [continueAt, pc, natural, Reply.prio, same.priority]

theorem stage_after_getAffinity {l : Locals} {r₀ : Reply} (pc : p.locals.pc = .getAffinity) (earlier : l.pc = .getPriority)
    (saveFailed : p.locals.saveFailed = r₀.failed) (prio : r₀.failed = false → p.locals.prio = first.priority)
    (same : SameScheduling p first) : Stage first ([(l, r₀)] ++ [(p.locals, r)]) (p.advance (program iterCnt) call r) := by
  obtain rfl : Call.getAffinity = call := by simpa [request, pc] using turn.request
  have none : restores ([(l, r₀)] ++ [(p.locals, r)]) = 0 := by simp [restores, earlier, pc]
  cases failed : r₀.failed || r.failed with
  | true =>
      refine .unsaved ?_ ?_ none ⟨same.priority, same.cores⟩
      · simp [continueAt, pc, saveFailed, failed]
      · intro saved
        obtain ⟨⟨first, member, atPriority, firstOk⟩, ⟨second, member', atAffinity, secondOk⟩⟩ := saved
        simp only [List.singleton_append, List.mem_cons, List.not_mem_nil, or_false] at member member'
        rcases member with rfl | rfl
        · rcases member' with rfl | rfl
          · rw [earlier] at atAffinity
            contradiction
          · simp only [firstOk, secondOk, Bool.or_self, Bool.false_eq_true] at failed
        · rw [pc] at atPriority
          contradiction
  | false =>
      obtain ⟨priorityOk, affinityOk⟩ := Bool.or_eq_false_iff.mp failed
      have natural : r = .cores p.cores := by simpa [World.possible, affinityOk, World.natural] using turn.possible
      refine .guarded (.inl ?_) ⟨⟨_, List.mem_append_left _ (List.mem_singleton_self _), earlier, priorityOk⟩,
        ⟨_, List.mem_append_right _ (List.mem_singleton_self _), pc, affinityOk⟩⟩ none ?_
      · simp [continueAt, pc, saveFailed, failed, Pc.guarded]
      · have statics : (p.advance (program iterCnt) .getAffinity r).locals.statics =
            (true, p.locals.prio, r.cpuset p.locals.cpuset) := by
          simp [continueAt, pc, saveFailed, priorityOk, affinityOk, Locals.statics]
        rw [statics, prio priorityOk, natural, ← same.cores]
        rfl

theorem stage_after_restorePriority (pc : p.locals.pc = .restorePriority) (saved : Saved steps) (none : restores steps = 0)
    (statics : p.locals.statics = (true, first.priority, first.cores)) :
    Stage first (steps ++ [(p.locals, r)]) (p.advance (program iterCnt) call r) := by
  obtain rfl : Call.setPriority p.locals.prio = call := by simpa [request, pc] using turn.request
  refine .halfway ?_ (saved.append _) ?_ ?_ fun succeed => ?_
  · simp [continueAt, pc]
  · rw [restores_append, none, if_pos pc]
  · simp only [Proc.advance_locals, program_resume, continueAt, Locals.observe_pc, pc]
    exact congrArg (fun statics => statics.2.2) statics
  · obtain rfl := ok_of_possible turn.possible rfl (succeed.last (.inl pc))
    exact congrArg (fun statics => statics.2.1) statics

theorem stage_after_restoreAffinity (pc : p.locals.pc = .restoreAffinity) (saved : Saved steps) (once : restores steps = 1)
    (cpuset : p.locals.cpuset = first.cores) (priority : RestoresSucceed steps → p.priority = first.priority) :
    Stage first (steps ++ [(p.locals, r)]) (p.advance (program iterCnt) call r) := by
  obtain rfl : Call.setAffinity p.locals.cpuset = call := by simpa [request, pc] using turn.request
  refine .restored (.inl ?_) (saved.append _) ?_ fun succeed => ⟨?_, ?_⟩
  · simp [continueAt, pc, Locals.closing]
  · rw [restores_append_other (by simp [pc]), once]
  · exact priority succeed.of_append
  · obtain rfl := ok_of_possible turn.possible rfl (succeed.last (.inr pc))
    exact cpuset

theorem stage_after_close {fd : Fd} {pending : List Fd} (pc : p.locals.pc = .close fd pending) (saved : Saved steps)
    (once : restores steps = 1) (same : RestoresSucceed steps → SameScheduling p first) :
    Stage first (steps ++ [(p.locals, r)]) (p.advance (program iterCnt) call r) := by
  obtain rfl : Call.close fd = call := by simpa [request, pc] using turn.request
  refine .restored ?_ (saved.append _) ?_ fun succeed => ?_
  · simp only [Proc.advance_locals, program_resume, continueAt, Locals.observe_pc, pc]
    cases pending with
    | nil => exact .inr rfl
    | cons fd pending => exact .inl ⟨fd, pending, rfl⟩
  · rw [restores_append_other (by simp [pc]), once]
  · have before := same succeed.of_append
    exact ⟨before.priority, before.cores⟩

theorem Stage.step (stage : Stage first steps p) (setsErrno : r ≠ .fail (.other 0)) :
    Stage first (steps ++ [(p.locals, r)]) (p.advance (program iterCnt) call r) := by
  have asked := turn.request
  cases stage with
  | entry pc empty same =>
      subst empty
      exact stage_after_getPriority turn setsErrno pc same
  | affinity l r₀ pc only earlier saveFailed prio same =>
      subst only
      exact stage_after_getAffinity turn pc earlier saveFailed prio same
  | unsaved pc => simp [request, pc] at asked
  | guarded pc saved none statics =>
      rcases pc with guarded | pc
      · exact stage_after_guarded guarded saved none statics
      · exact stage_after_restorePriority turn pc saved none statics
  | halfway pc saved once cpuset priority => exact stage_after_restoreAffinity turn pc saved once cpuset priority
  | restored pc saved once same =>
      rcases pc with ⟨fd, pending, pc⟩ | pc
      · exact stage_after_close turn pc saved once same
      · simp [request, pc] at asked

end Advance

/-! ## Every call of a session -/

/-- A process that has come past its save has succeeded in it, and is not lost in the assertion. -/
structure Sound (l : Locals) : Prop where
  saved : l.pc.guarded = true ∨ l.pc = .restorePriority → l.saved = true
  unaborted : l.pc ≠ .aborted

theorem sound_continueAt (l : Locals) (r : Reply) (sound : Sound l) : Sound (continueAt iterCnt l r) := by
  by_cases guarded : l.pc.guarded = true
  · have saved := sound.saved (.inl guarded)
    obtain ⟨kept, next⟩ := continueAt_guarded iterCnt l r guarded saved
    refine ⟨fun _ => (congrArg Prod.fst kept).trans saved, fun aborted => ?_⟩
    rw [aborted] at next
    rcases next with inside | atRestore <;> contradiction
  · cases pc : l.pc <;> simp only [pc, Pc.guarded, not_true_eq_false] at guarded
    case aborted => exact absurd pc sound.unaborted
    all_goals simp only [continueAt, pc]
    case returned => exact sound
    case getPriority => exact ⟨by simp [Pc.guarded], by simp⟩
    case getAffinity =>
      constructor
      · split_ifs with failed <;> simp [Pc.guarded, failed]
      · split_ifs <;> simp
    case restorePriority => exact ⟨by simp [Pc.guarded], by simp⟩
    case restoreAffinity => exact ⟨by simp [Locals.closing, Pc.guarded], by simp [Locals.closing]⟩
    case close fd pending => cases pending <;> exact ⟨by simp [Locals.closing, Pc.guarded], by simp [Locals.closing]⟩

theorem Sound.observe {l : Locals} (sound : Sound l) (r : Reply) : Sound (l.observe r) := ⟨sound.saved, sound.unaborted⟩

theorem sound_entry (l : Locals) (pc : l.pc = .getPriority) : Sound l :=
  ⟨by simp [pc, Pc.guarded], by simp [pc]⟩

theorem sound_of_run {allowed : World Locals → Label → Prop} {start : World Locals} {trace : List (World Locals × Label)}
    (initial : ∀ (index : Nat) p, start.procs[index]? = some p → Sound p.locals)
    (run : Run (step (program iterCnt)) allowed start trace w) : ∀ (index : Nat) p, w.procs[index]? = some p → Sound p.locals := by
  refine procs_invariant (P := fun _ p => Sound p.locals) ?_ ?_ ?_ initial ⟨trace, run⟩
  · exact fun _ _ _ sound => sound
  · exact fun w index p call r _ _ sound => sound_continueAt _ r (sound.observe r)
  · exact fun w index p n _ _ sound => sound_continueAt _ (.pid 0) (sound.observe (.pid 0))

/-- The parent begins a call at its entry, and the children that earlier calls have left are sound. -/
structure AtEntry (start : World Locals) : Prop where
  parent : ∃ first, start.procs[0]? = some first ∧ first.locals.pc = .getPriority
  sound : ∀ (index : Nat) p, start.procs[index]? = some p → Sound p.locals

theorem Session.atEntry {start : World Locals} (session : Session start) : AtEntry start := by
  induction session with
  | first machine errno =>
      refine ⟨⟨_, rfl, rfl⟩, fun index p found => ?_⟩
      cases index with
      | zero =>
          obtain rfl := Option.some.inj found
          exact sound_entry _ rfl
      | succ index => simp [World.boot] at found
  | @next start w trace p config errno session run found returned ih =>
      have after := sound_of_run ih.sound run
      refine ⟨⟨{ p with locals := p.locals.again errno }, by simp [callAgain, found], rfl⟩, fun index q located => ?_⟩
      simp only [callAgain, List.getElem?_modify] at located
      by_cases parent : 0 = index
      · subst parent
        simp only [found, Option.map_some, if_true, Option.map_eq_map, Option.some.injEq] at located
        subst located
        exact sound_entry _ rfl
      · cases before : w.procs[index]? with
        | none => simp [before] at located
        | some q' =>
            simp only [before, if_neg parent, Option.map_eq_map, Option.map_some, Option.some.injEq] at located
            subst located
            exact after index q' before

/-- What a call that began as `first` has done to the scheduling. -/
structure Balanced (first : Proc Locals) (steps : List (Locals × Reply)) (p : Proc Locals) : Prop where
  afterSave : 0 < restores steps → Saved steps
  once : restores steps ≤ 1
  returned : p.locals.pc = .returned → (restores steps = 1 ↔ Saved steps)
  scheduling : p.locals.pc = .returned → RestoresSucceed steps → SameScheduling p first

theorem Stage.balanced (stage : Stage first steps p) : Balanced first steps p := by
  cases stage with
  | entry pc empty same =>
      subst empty
      refine ⟨by simp [restores], by simp [restores], ?_, ?_⟩ <;> simp [pc]
  | affinity l r pc only earlier =>
      subst only
      refine ⟨by simp [restores, earlier], by simp [restores, earlier], ?_, ?_⟩ <;> simp [pc]
  | unsaved pc unsaved none same =>
      exact ⟨by simp [none], by simp [none], by simp [none, unsaved], fun _ _ => same⟩
  | guarded pc saved none statics =>
      have inside : p.locals.pc ≠ .returned := by
        intro returned
        simp [returned, Pc.guarded] at pc
      exact ⟨fun _ => saved, by simp [none], fun returned => absurd returned inside, fun returned => absurd returned inside⟩
  | halfway pc saved once cpuset priority => exact ⟨fun _ => saved, once.le, by simp [pc], by simp [pc]⟩
  | restored pc saved once same => exact ⟨fun _ => saved, once.le, fun _ => iff_of_true once saved, fun _ => same⟩

/-- In every call of a session, whatever fails: the assertion is out of reach, the parent restores
only what it has saved in this call, once if it returns, and then has its old scheduling. -/
theorem contextSwitchTest_restores_scheduling {start : World Locals} (session : Session start) (config : BenchConfig)
    {trace : List (World Locals × Label)} (run : Run (step (contextSwitchTest config)) SetsErrno start trace w) :
    (∀ (index : Nat) p, w.procs[index]? = some p → p.locals.pc ≠ .aborted) ∧
      ∃ first p, start.procs[0]? = some first ∧ w.procs[0]? = some p ∧ Balanced first (ownSteps 0 trace) p := by
  obtain ⟨⟨first, found, pc⟩, sound⟩ := session.atEntry
  refine ⟨fun index p located => (sound_of_run sound run index p located).unaborted, ?_⟩
  have staged : ∃ p, w.procs[0]? = some p ∧ Stage first (ownSteps 0 trace) p := by
    refine own_invariant ?_ ?_ found (.entry pc rfl ⟨rfl, rfl⟩) run
    · exact fun steps p status stage => stage.with_status status
    · exact fun w p call r steps setsErrno turn stage => stage.step turn setsErrno
  obtain ⟨p, located, stage⟩ := staged
  exact ⟨first, p, found, located, stage.balanced⟩

/-- No call fails with `errno` zero. -/
def nonzero : Rule Locals := fun _ _ _ _ r => r != .fail (.other 0)

theorem setsErrno_of_nonzero (w : World Locals) (label : Label) (obeyed : Obeys (program iterCnt) nonzero w label) :
    SetsErrno w label := by
  simp only [Obeys, answers] at obeyed
  split at obeyed
  · contradiction
  · split at obeyed
    · contradiction
    · simpa [nonzero, SetsErrno] using obeyed

/-- A call of the test whose save fails, and one in which the memory for `diffs` is missing. -/
theorem contextSwitchTest_restores_scheduling_twice : ∃ start trace w, Session start ∧
    Run (step (contextSwitchTest ⟨200, .large⟩)) SetsErrno start trace w ∧
      (∀ (index : Nat) p, w.procs[index]? = some p → p.locals.pc ≠ .aborted) ∧
        ∃ first p, start.procs[0]? = some first ∧ w.procs[0]? = some p ∧ Balanced first (ownSteps 0 trace) p := by
  have followed : ∃ w p, follow (contextSwitchTest ⟨200, .large⟩) nonzero (World.boot .plain (Locals.entry (.other 0)))
      [⟨0, .priority 0⟩, ⟨0, .fail (.other 22)⟩] = some w ∧ w.procs[0]? = some p ∧ p.locals.pc = .returned ∧
        ∃ w', follow (contextSwitchTest ⟨200, .large⟩) nonzero (callAgain w (.other 0)) [⟨0, .priority 0⟩, ⟨0, .cores [0]⟩,
          ⟨0, .fail (.other 12)⟩, ⟨0, .ok⟩, ⟨0, .ok⟩, ⟨0, .fail (.other 9)⟩, ⟨0, .fail (.other 9)⟩, ⟨0, .fail (.other 9)⟩,
            ⟨0, .fail (.other 9)⟩] = some w' :=
    ⟨_, _, rfl, rfl, rfl, _, rfl⟩
  obtain ⟨w, p, firstCall, found, returned, w', secondCall⟩ := followed
  have session : Session (callAgain w (.other 0)) :=
    .next ⟨200, .large⟩ (.other 0) (.first .plain (.other 0)) ((follow_run .nil firstCall).mono setsErrno_of_nonzero) found
      returned
  have run := (follow_run .nil secondCall).mono setsErrno_of_nonzero
  exact ⟨_, _, w', session, run, contextSwitchTest_restores_scheduling session ⟨200, .large⟩ run⟩

end Oreo.Bench.CtxSwitch
