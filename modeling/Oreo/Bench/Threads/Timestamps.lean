import Oreo.Bench.Threads.Model
import Oreo.Transition.History

namespace Oreo.Bench.Threads

open Oreo.Transition Oreo.Utils

/-! # The samples of `thread_create_test` when every `pthread_create` succeeds, and when one fails -/

abbrev Trace := List (World × Label)

def Label.written : Label → Option (Nat × UInt64)
  | .stamp thread t => some (thread, t)
  | _ => none

/-- The thread that wrote last, and what it wrote. -/
def lastStamp : Trace → Option (Nat × UInt64) := latest fun taken => taken.2.written

/-- In iteration `idx` the thread of that number is created. -/
structure Creates (idx thread : Nat) (taken : World × Label) : Prop where
  iteration : taken.1.main.pc = .create ∧ taken.1.main.idx = idx
  created : taken.2 = .main .created
  number : taken.1.threads.length = thread

/-- `after` is what has happened since the `start_timer` of iteration `idx`, which read `tstart`. -/
def Since (trace : Trace) (idx : Nat) (tstart : UInt64) (after : Trace) : Prop :=
  ∃ before w, trace = before ++ (w, .main (.time tstart)) :: after ∧ w.main.pc = .startTimer ∧ w.main.idx = idx

/-- The value in `t_child_end` was written by the thread created in iteration `idx`, after the
`start_timer` of that iteration. -/
def Written (trace : Trace) (idx : Nat) (tstart : UInt64) (thread : Nat) (t : UInt64) : Prop :=
  ∃ after, Since trace idx tstart after ∧ (∃ taken ∈ after, Creates idx thread taken) ∧ lastStamp after = some (thread, t)

def Sampled (trace : Trace) (idx sample : Nat) : Prop :=
  ∃ front w label back thread, trace = front ++ (w, label) :: back ∧ w.main.pc = .getDurations ∧ w.main.idx = idx ∧
    sample = getDuration w.main.tstart w.tChildEnd ∧ Written front idx w.main.tstart thread w.tChildEnd

/-- A thread that the main thread is about to join has been created, and not joined yet. -/
def JoinsOnce (w : World) : Prop :=
  w.main.pc = .join → ∃ thread, w.threads[w.main.newThrd]? = some thread ∧ thread.joined = false

/-- In every state of the run the main thread joins as it may, and if the function has returned
`false`, then every sample is from a thread of its own iteration. -/
structure Sound (iterCnt : Nat) (trace : Trace) (w : World) : Prop where
  joins : (∀ taken ∈ trace, JoinsOnce taken.1) ∧ JoinsOnce w
  samples : w.main.pc = .returned → w.main.ret = false →
    ∀ idx < iterCnt, ∃ sample, w.main.childDiffs[idx]? = some sample ∧ Sampled trace idx sample

/-- No `pthread_create` of the run has failed. -/
def AllCreated (trace : Trace) : Prop := ∀ taken ∈ trace, ∀ newThrd, taken.2 ≠ .main (.failed newThrd)

/-! ## Runs in which every `pthread_create` succeeds -/

/-- The samples before iteration `idx` are in place. -/
abbrev Measured (iterCnt : Nat) (trace : Trace) (idx : Nat) (childDiffs : List Nat) : Prop :=
  Filled Sampled iterCnt trace idx childDiffs

/-- Every thread has ended and been joined. -/
def Settled (threads : List Thread) : Prop := ∀ thread ∈ threads, thread = ⟨.ended, true⟩

/-- All threads but the last have been joined. The last is that of the iteration, and as soon as it
has stamped nothing else has. -/
structure AtWork (trace : Trace) (w : World) (pc : ThreadPc) (earlier : List Thread) (after : Trace) : Prop where
  threads : w.threads = earlier ++ [⟨pc, false⟩]
  settled : Settled earlier
  handle : w.main.newThrd = earlier.length
  since : Since trace w.main.idx w.main.tstart after
  created : ∃ taken ∈ after, Creates w.main.idx earlier.length taken
  stamped : pc ≠ .stopTimer → lastStamp after = some (earlier.length, w.tChildEnd)

def Stage (iterCnt : Nat) (trace : Trace) (w : World) : Prop :=
  match w.main.pc with
  | .allocParentDiffs => Settled w.threads
  | .allocChildDiffs => Settled w.threads
  | .startTimer => w.main.idx < iterCnt ∧ Measured iterCnt trace w.main.idx w.main.childDiffs ∧ Settled w.threads
  | .create => w.main.idx < iterCnt ∧ Measured iterCnt trace w.main.idx w.main.childDiffs ∧ Settled w.threads ∧
      ∃ after, Since trace w.main.idx w.main.tstart after
  | .stopTimer | .join => w.main.idx < iterCnt ∧ Measured iterCnt trace w.main.idx w.main.childDiffs ∧
      ∃ pc earlier after, AtWork trace w pc earlier after
  | .getDurations => w.main.idx < iterCnt ∧ Measured iterCnt trace w.main.idx w.main.childDiffs ∧ Settled w.threads ∧
      Written trace w.main.idx w.main.tstart w.main.newThrd w.tChildEnd
  | .allocResult => w.main.idx = iterCnt ∧ Measured iterCnt trace w.main.idx w.main.childDiffs ∧ Settled w.threads
  | .returned => (w.main.ret = false → w.main.idx = iterCnt ∧ Measured iterCnt trace w.main.idx w.main.childDiffs) ∧
      Settled w.threads

section

variable {iterCnt idx sample : Nat} {trace after : Trace} {w next : World} {label : Label} {threads earlier : List Thread}
variable {pc : ThreadPc} {childDiffs : List Nat} {tstart t : UInt64}

theorem lastStamp_snoc (trace : Trace) (w : World) (label : Label) :
    lastStamp (trace ++ [(w, label)]) = label.written.or (lastStamp trace) :=
  latest_snoc _ _ _

theorem Since.snoc (since : Since trace idx tstart after) (taken : World × Label) :
    Since (trace ++ [taken]) idx tstart (after ++ [taken]) := by
  obtain ⟨before, w, rfl, start⟩ := since
  exact ⟨before, w, by simp, start⟩

theorem Sampled.snoc (sampled : Sampled trace idx sample) (taken : World × Label) :
    Sampled (trace ++ [taken]) idx sample := by
  obtain ⟨front, w, label, back, thread, rfl, read⟩ := sampled
  exact ⟨front, w, label, back ++ [taken], thread, by simp, read⟩

theorem measured_snoc (measured : Measured iterCnt trace idx childDiffs) (taken : World × Label) :
    Measured iterCnt (trace ++ [taken]) idx childDiffs :=
  measured.snoc taken fun _ _ sampled => sampled.snoc taken

theorem Settled.getElem? (settled : Settled threads) {thread : Nat} {joined : Bool}
    (found : threads[thread]? = some ⟨pc, joined⟩) : pc = .ended ∧ joined = true := by
  simpa using settled _ (List.mem_of_getElem? found)

theorem Settled.join (settled : Settled threads) (handle : Nat) : join threads handle = some threads := by
  unfold Threads.join
  split
  · next found => simpa using settled.getElem? found
  · next found => simpa using settled.getElem? found
  · rfl

/-- Nothing moves but the main thread. -/
theorem Settled.main (settled : Settled w.threads) (stepped : step iterCnt w label = some next) :
    ∃ r, label = .main r ∧ mainStep iterCnt w r = some next := by
  cases label with
  | main r => exact ⟨r, rfl, stepped⟩
  | stamp thread t =>
      unfold step at stepped
      dsimp only at stepped
      split at stepped
      · next found => simpa using settled.getElem? found
      · contradiction
  | exit thread =>
      unfold step at stepped
      dsimp only at stepped
      split at stepped
      · next found => simpa using settled.getElem? found
      · contradiction

namespace AtWork

variable (atWork : AtWork trace w pc earlier after)
include atWork

theorem found : w.threads[w.main.newThrd]? = some ⟨pc, false⟩ := by
  rw [atWork.threads, atWork.handle, List.getElem?_concat_length]

theorem joins : JoinsOnce w := fun _ => ⟨_, atWork.found, rfl⟩

/-- Only the last thread can take a step. -/
theorem last {thread : Nat} {state : ThreadPc} {joined : Bool} (taken : w.threads[thread]? = some ⟨state, joined⟩)
    (running : state ≠ .ended) : thread = earlier.length ∧ pc = state ∧ joined = false := by
  rw [atWork.threads] at taken
  rcases Nat.lt_trichotomy thread earlier.length with below | rfl | above
  · rw [List.getElem?_append_left below] at taken
    exact absurd (atWork.settled.getElem? taken).1 running
  · rw [List.getElem?_concat_length] at taken
    simpa [eq_comm] using taken
  · rw [List.getElem?_eq_none (by simp; omega)] at taken
    contradiction

theorem set (thread : Thread) : w.threads.set earlier.length thread = earlier ++ [thread] := by
  rw [atWork.threads]
  simp

/-- The thread goes on, and the main thread does not. -/
theorem step (stepped : Threads.step iterCnt w label = some next) (notMain : ∀ r, label ≠ .main r) :
    next.main = w.main ∧ ∃ pc, AtWork (trace ++ [(w, label)]) next pc earlier (after ++ [(w, label)]) := by
  obtain ⟨taken, member, creates⟩ := atWork.created
  have created : ∃ taken ∈ after ++ [(w, label)], Creates w.main.idx earlier.length taken :=
    ⟨taken, List.mem_append_left _ member, creates⟩
  cases label with
  | main r => exact absurd rfl (notMain r)
  | stamp thread t =>
      simp only [Threads.step] at stepped
      split at stepped
      · next found =>
          obtain ⟨rfl, rfl, rfl⟩ := atWork.last found (by simp)
          obtain rfl := Option.some_inj.mp stepped
          refine ⟨rfl, .exit, atWork.set _, atWork.settled, atWork.handle, atWork.since.snoc _, created, fun _ => ?_⟩
          exact lastStamp_snoc _ _ _
      · contradiction
  | exit thread =>
      simp only [Threads.step] at stepped
      split at stepped
      · next found =>
          obtain ⟨rfl, rfl, rfl⟩ := atWork.last found (by simp)
          obtain rfl := Option.some_inj.mp stepped
          refine ⟨rfl, .ended, atWork.set _, atWork.settled, atWork.handle, atWork.since.snoc _, created, fun _ => ?_⟩
          rw [lastStamp_snoc]
          exact atWork.stamped (by simp)
      · contradiction

/-- The main thread goes on when the thread has ended. -/
theorem join {joined : List Thread} (returned : Threads.join w.threads w.main.newThrd = some joined) :
    Settled joined ∧ lastStamp after = some (w.main.newThrd, w.tChildEnd) := by
  have ended : pc = .ended := by
    cases pc <;> simp [Threads.join, atWork.found] at returned ⊢
  subst ended
  simp only [Threads.join, atWork.found, Option.some_inj] at returned
  rw [atWork.handle, atWork.set] at returned
  subst returned
  refine ⟨fun thread member => ?_, by rw [atWork.handle]; exact atWork.stamped (by simp)⟩
  rcases List.mem_append.mp member with before | last
  · exact atWork.settled thread before
  · exact List.mem_singleton.mp last

end AtWork

variable {l : Locals} {r : Reply}

theorem stage_err (settled : Settled threads) (l : Locals) (t : UInt64) : Stage iterCnt trace ⟨l.err, threads, t⟩ :=
  ⟨fun success => by contradiction, settled⟩

theorem stage_timedLoop (bound : l.idx ≤ iterCnt) (measured : Measured iterCnt trace l.idx l.childDiffs)
    (settled : Settled threads) : Stage iterCnt trace ⟨l.timedLoop iterCnt, threads, t⟩ := by
  by_cases more : l.idx < iterCnt
  · simp only [Locals.timedLoop, if_pos more]
    exact ⟨more, measured, settled⟩
  · simp only [Locals.timedLoop, if_neg more]
    exact ⟨by dsimp only; omega, measured, settled⟩

/-- A step of the main thread. -/
theorem Stage.main (stage : Stage iterCnt trace w) (stepped : mainStep iterCnt w r = some next)
    (noFailure : ∀ newThrd, r ≠ .failed newThrd) : Stage iterCnt (trace ++ [(w, .main r)]) next := by
  unfold mainStep at stepped
  cases pc : w.main.pc <;> cases r <;> simp only [pc, reduceCtorEq, Option.some_inj] at stepped <;>
    simp only [Stage, pc] at stage
  case allocParentDiffs.memory granted =>
    subst stepped
    cases granted <;> exact stage
  case allocChildDiffs.memory granted =>
    cases granted with
    | false =>
        subst stepped
        exact stage_err stage _ _
    | true =>
        simp only [if_true] at stepped
        split at stepped
        · subst stepped
          exact stage_err stage _ _
        · subst stepped
          exact stage_timedLoop (Nat.zero_le _) (.start List.length_replicate) stage
  case startTimer.time t =>
    subst stepped
    obtain ⟨room, measured, settled⟩ := stage
    exact ⟨room, measured_snoc measured _, settled, [], trace, w, rfl, pc, rfl⟩
  case create.created =>
    subst stepped
    obtain ⟨room, measured, settled, after, since⟩ := stage
    have creates : Creates w.main.idx w.threads.length (w, .main .created) := ⟨⟨pc, rfl⟩, rfl, rfl⟩
    refine ⟨room, measured_snoc measured _, .stopTimer, w.threads, _, rfl, settled, rfl, since.snoc _, ⟨_, ?_, creates⟩, by simp⟩
    exact List.mem_append_right _ (List.mem_singleton_self _)
  case create.failed newThrd => exact absurd rfl (noFailure newThrd)
  case stopTimer.time t =>
    subst stepped
    obtain ⟨room, measured, state, earlier, after, atWork⟩ := stage
    obtain ⟨taken, member, creates⟩ := atWork.created
    refine ⟨room, measured_snoc measured _, state, earlier, _, atWork.threads, atWork.settled, atWork.handle, atWork.since.snoc _,
      ⟨taken, List.mem_append_left _ member, creates⟩, ?_⟩
    rw [lastStamp_snoc]
    exact atWork.stamped
  case join.done =>
    obtain ⟨room, measured, state, earlier, after, atWork⟩ := stage
    obtain ⟨taken, member, creates⟩ := atWork.created
    obtain ⟨joined, returned, rfl⟩ := Option.map_eq_some_iff.mp stepped
    obtain ⟨settled, last⟩ := atWork.join returned
    rw [← atWork.handle] at creates
    refine ⟨room, measured_snoc measured _, settled, _, atWork.since.snoc _, ⟨taken, List.mem_append_left _ member, creates⟩, ?_⟩
    rw [lastStamp_snoc]
    exact last
  case getDurations.done =>
    subst stepped
    obtain ⟨room, measured, settled, written⟩ := stage
    have sampled : Sampled (trace ++ [(w, .main .done)]) w.main.idx (getDuration w.main.tstart w.tChildEnd) :=
      ⟨trace, w, .main .done, [], w.main.newThrd, rfl, pc, rfl, rfl, written⟩
    exact stage_timedLoop room ((measured_snoc measured _).set room sampled) settled
  case allocResult.memory granted =>
    subst stepped
    obtain ⟨full, measured, settled⟩ := stage
    split
    · exact ⟨fun _ => ⟨full, measured_snoc measured _⟩, settled⟩
    · exact stage_err settled _ _

/-- A step of another thread: it is the one that the main thread has created last. -/
theorem Stage.thread (stage : Stage iterCnt trace w) (stepped : step iterCnt w label = some next)
    (notMain : ∀ r, label ≠ .main r) : Stage iterCnt (trace ++ [(w, label)]) next := by
  have nobody : ¬ Settled w.threads := by
    intro settled
    obtain ⟨r, rfl, -⟩ := settled.main stepped
    exact notMain r rfl
  cases pc : w.main.pc <;> simp only [Stage, pc, nobody, and_false, false_and] at stage
  case stopTimer | join =>
    obtain ⟨room, measured, state, earlier, after, atWork⟩ := stage
    obtain ⟨same, goesOn⟩ := atWork.step stepped notMain
    simp only [Stage, same, pc]
    exact ⟨room, measured_snoc measured _, goesOn.elim fun state atWork => ⟨state, earlier, _, atWork⟩⟩

theorem Stage.joinsOnce (stage : Stage iterCnt trace w) : JoinsOnce w := by
  intro atJoin
  simp only [Stage, atJoin] at stage
  obtain ⟨-, -, pc, earlier, after, atWork⟩ := stage
  exact atWork.joins atJoin

theorem not_joinsOnce (settled : Settled w.threads) (atJoin : w.main.pc = .join) : ¬ JoinsOnce w := by
  intro once
  obtain ⟨⟨pc, joined⟩, found, fresh⟩ := once atJoin
  rw [(settled.getElem? found).2] at fresh
  contradiction

theorem allCreated_snoc : AllCreated (trace ++ [(w, label)]) ↔ AllCreated trace ∧ ∀ newThrd, label ≠ .main (.failed newThrd) := by
  simp [AllCreated, or_imp, forall_and]

/-! ## Runs in which one fails -/

/-- Either every `pthread_create` has succeeded, or one has just failed, or after that the main
thread has come to a thread that it may not join. -/
inductive Course (iterCnt : Nat) (trace : Trace) (w : World) : Prop where
  | created : AllCreated trace → (∀ taken ∈ trace, JoinsOnce taken.1) → Stage iterCnt trace w → Course iterCnt trace w
  | failing : ¬ AllCreated trace → Settled w.threads → w.main.pc = .stopTimer → Course iterCnt trace w
  | astray : ¬ AllCreated trace → ¬ ((∀ taken ∈ trace, JoinsOnce taken.1) ∧ JoinsOnce w) → Course iterCnt trace w

theorem failed_step {newThrd : Nat} (stepped : mainStep iterCnt w (.failed newThrd) = some next) :
    w.main.pc = .create ∧ next = { w with main := { w.main with pc := .stopTimer, newThrd } } := by
  unfold mainStep at stepped
  cases pc : w.main.pc <;> simp only [pc, reduceCtorEq, Option.some_inj] at stepped
  exact ⟨rfl, stepped.symm⟩

theorem Course.step (course : Course iterCnt trace w) (stepped : step iterCnt w label = some next) :
    Course iterCnt (trace ++ [(w, label)]) next := by
  have stays : ¬ AllCreated trace → ¬ AllCreated (trace ++ [(w, label)]) := fun failed all => failed (allCreated_snoc.mp all).1
  cases course with
  | created all once stage =>
      have onceMore : ∀ taken ∈ trace ++ [(w, label)], JoinsOnce taken.1 := by
        simpa [or_imp, forall_and, stage.joinsOnce] using once
      by_cases failure : ∃ newThrd, label = .main (.failed newThrd)
      · obtain ⟨newThrd, rfl⟩ := failure
        obtain ⟨pc, rfl⟩ := failed_step stepped
        simp only [Stage, pc] at stage
        exact .failing (fun all => (allCreated_snoc.mp all).2 newThrd rfl) stage.2.2.1 rfl
      · have noFailure : ∀ newThrd, label ≠ .main (.failed newThrd) := fun newThrd same => failure ⟨newThrd, same⟩
        refine .created (allCreated_snoc.mpr ⟨all, noFailure⟩) onceMore ?_
        by_cases main : ∃ r, label = .main r
        · obtain ⟨r, rfl⟩ := main
          exact stage.main stepped fun newThrd same => noFailure newThrd (congrArg Label.main same)
        · exact stage.thread stepped fun r same => main ⟨r, same⟩
  | failing failed settled pc =>
      obtain ⟨r, rfl, moved⟩ := settled.main stepped
      unfold mainStep at moved
      cases r <;> simp only [pc, reduceCtorEq, Option.some_inj] at moved
      subst moved
      refine .astray (stays failed) fun once => absurd once.2 (not_joinsOnce ?_ rfl)
      exact settled
  | astray failed stray =>
      refine .astray (stays failed) fun once => stray ⟨fun taken member => ?_, ?_⟩
      · exact once.1 taken (List.mem_append_left _ member)
      · exact once.1 (w, label) (List.mem_append_right _ (List.mem_singleton_self _))

variable {newThrd : Nat} {tParentEnd tChildEnd : UInt64}

theorem course_of_run (run : Run (step iterCnt) (fun _ _ => True) (.start newThrd tstart tParentEnd tChildEnd) trace w) :
    Course iterCnt trace w := by
  apply run.trace_invariant (Course iterCnt)
  · exact .created (fun _ member => by contradiction) (fun _ member => by contradiction) fun _ member => by contradiction
  · exact fun trace w label next _ course _ stepped => course.step stepped

/-- In every run in which no `pthread_create` fails the main thread joins as it may and the samples
are of their own iterations, and at the end of a run that is the only case. -/
theorem thread_create_test_sound_iff
    (run : Run (step iterCnt) (fun _ _ => True) (.start newThrd tstart tParentEnd tChildEnd) trace w) :
    (AllCreated trace → Sound iterCnt trace w) ∧
      (w.main.pc = .returned → (Sound iterCnt trace w ↔ AllCreated trace)) := by
  have sound : AllCreated trace → Sound iterCnt trace w := by
    intro all
    cases course_of_run run with
    | created _ once stage =>
        refine ⟨⟨once, stage.joinsOnce⟩, fun returned success => ?_⟩
        simp only [Stage, returned] at stage
        obtain ⟨full, measured⟩ := stage.1 success
        rw [full] at measured
        exact measured.entries
    | failing failed => exact absurd all failed
    | astray failed => exact absurd all failed
  refine ⟨sound, fun returned => ⟨fun holds => ?_, sound⟩⟩
  cases course_of_run run with
  | created all => exact all
  | failing _ _ pc =>
      rw [returned] at pc
      contradiction
  | astray _ stray => exact absurd holds.joins stray

/-- Two iterations. -/
theorem thread_create_test_sound_iff_two : ∃ trace w,
    Run (step 2) (fun _ _ => True) (.start 7 0 0 0) trace w ∧ w.main.pc = .returned ∧ w.main.childDiffs = [5, 4] ∧
      (Sound 2 trace w ↔ AllCreated trace) := by
  have replayed : ∃ trace w, replay (step 2) (fun _ _ => true)
      [.main (.memory true), .main (.memory true), .main (.time 10), .main .created, .main (.time 12), .stamp 0 15, .exit 0,
        .main .done, .main .done, .main (.time 20), .main .created, .stamp 1 24, .main (.time 25), .exit 1, .main .done,
        .main .done, .main (.memory true)] ([], .start 7 0 0 0) = some (trace, w) ∧
      w.main.pc = .returned ∧ w.main.childDiffs = [5, 4] :=
    ⟨_, _, rfl, rfl, rfl⟩
  obtain ⟨trace, w, replayed, returned, diffs⟩ := replayed
  have run := Run.nil.replay (fun _ _ _ => trivial) replayed
  exact ⟨trace, w, run, returned, diffs, (thread_create_test_sound_iff run).2 returned⟩

/-- The `pthread_create` of the second iteration fails, and the test goes on with the thread and
the timestamp of the first. -/
theorem thread_create_test_joins_twice : ¬ ∀ trace w,
    Run (step 2) (fun _ _ => True) (.start 7 0 0 0) trace w → Sound 2 trace w := by
  intro always
  have replayed : ∃ trace w, replay (step 2) (fun _ _ => true)
      [.main (.memory true), .main (.memory true), .main (.time 10), .main .created, .main (.time 12), .stamp 0 15, .exit 0,
        .main .done, .main .done, .main (.time 20), .main (.failed 0), .main (.time 25)] ([], .start 7 0 0 0) =
          some (trace, w) ∧ w.main.pc = .join ∧ w.threads[w.main.newThrd]? = some ⟨.ended, true⟩ :=
    ⟨_, _, rfl, rfl, rfl⟩
  obtain ⟨trace, w, replayed, atJoin, joined⟩ := replayed
  have sound := always trace w (Run.nil.replay (fun _ _ _ => trivial) replayed)
  obtain ⟨thread, found, fresh⟩ := sound.joins.2 atJoin
  obtain rfl := Option.some_inj.mp (joined.symm.trans found)
  contradiction

end

end Oreo.Bench.Threads
