import Oreo.Bench.Monitor.Model

namespace Oreo.Bench

open Oreo.Posix Oreo.Posix.Action Oreo.Transition Oreo.Transition.Effect Oreo.Utils

/-! # Allocations that fail in the tests that wait for sockets -/

/-- An action of a loop: the arrays stay, and if the loop goes on nothing has failed. -/
def Sound {L : Type} (present : L → Prop) (action : Action (Bool × L)) : Prop :=
  Ensures Fresh action fun r h => present r.2 ∧ (r.1 = true → Fresh h)

section Measure

variable {L : Type} {openSocket timed : Nat → L → Action (Bool × L)} {diffs : L → Pointer Nat} {present : L → Prop}

theorem measure_ensures (opens : ∀ idx l, present l → Sound present (openSocket idx l))
    (times : ∀ idx l, present l → Sound present (timed idx l)) (samples : ∀ l, present l → (diffs l).isSome = true)
    (fdCount iterCnt : Nat) {l : L} (start : present l) :
    Ensures Fresh (measure openSocket timed diffs fdCount iterCnt l) fun r h => present r.2 ∧ Reported r.1 h := by
  refine .bind (.loop_guarded present opens fdCount 0 start) fun r => .assume fun setup => ?_
  obtain ⟨opened, l⟩ := r
  cases opened with
  | false => exact .pure fun h _ => ⟨setup, reported_true h⟩
  | true =>
      refine .bind ((Ensures.loop_guarded present times iterCnt 0 setup).strengthen fun h fresh => fresh rfl)
        fun r => .assume fun kept => ?_
      obtain ⟨measured, l⟩ := r
      cases measured with
      | false => exact .pure fun h _ => ⟨kept, reported_true h⟩
      | true =>
          refine .bind ((collectResults_ensures (samples l kept)).strengthen fun h fresh => fresh rfl) fun _ => ?_
          exact .pure fun h fresh => ⟨kept, fresh.reported false⟩

end Measure

namespace Select

structure Locals.Present (l : Locals) : Prop where
  fds : l.fds.isSome = true
  diffs : l.diffs.isSome = true

theorem openSocket_sound (o : Outcomes) (idx : Nat) (l : Locals) (present : l.Present) :
    Sound Locals.Present (openSocket o idx l) := by
  refine .ite (fun _ => ?_) fun _ => .pure fun h fresh => ⟨present, fun _ => fresh⟩
  refine .bind (Q := fun _ => Fresh) (.modify fun h fresh => fresh) fun _ => ?_
  refine .bind (store_ensures present.fds _ _) fun fds => .assume fun stored => ?_
  exact .pure fun h fresh => ⟨⟨stored, present.diffs⟩, fun _ => fresh⟩

theorem timedSelect_sound (o : Outcomes) (idy : Nat) (l : Locals) (present : l.Present) :
    Sound Locals.Present (timedSelect o idy l) := by
  refine .bind (Q := fun _ => Fresh) (.modify fun h fresh => fresh) fun _ => ?_
  cases o.ready idy with
  | none => exact .pure fun h fresh => ⟨present, fun _ => fresh⟩
  | some ready =>
      refine .bind (store_ensures present.diffs _ _) fun diffs => .assume fun stored => ?_
      exact .pure fun h fresh => ⟨⟨present.fds, stored⟩, fun _ => fresh⟩

theorem run_ensures (o : Outcomes) (fdCount iterCnt : Nat) : Ensures Fresh (run o fdCount iterCnt) Reported := by
  refine .bind (allocate_ensures _ _) fun fds => .ite (fun _ => .pure fun h _ => reported_true h) fun present => ?_
  have memory : fds.isSome = true := by simpa [Option.isSome_iff_ne_none] using present
  refine .bind ((memset_ensures memory _).strengthen fun h fresh => fresh memory) fun fds => .assume fun memory => ?_
  refine .bind (allocate_ensures _ _) fun diffs => ?_
  refine .bind (Q := fun r h => r.2.fds.isSome = true ∧ Reported r.1 h) (.ite (fun _ => ?_) fun measured => ?_) fun r => ?_
  · exact .pure fun h _ => ⟨memory, reported_true h⟩
  · have samples : diffs.isSome = true := by simpa [Option.isSome_iff_ne_none] using measured
    have sampled := measure_ensures (openSocket_sound o) (timedSelect_sound o) (fun l present => present.diffs) fdCount iterCnt
      (l := ⟨fds, diffs, o.maxFd, []⟩) ⟨memory, samples⟩
    exact (sampled.weaken fun r h after => ⟨after.1.fds, after.2⟩).strengthen fun h fresh => fresh samples
  · refine .assume fun memory => .bind (closeAll_ensures memory) fun _ => .pure fun h reported => reported

end Select

namespace Poll

structure Locals.Present (l : Locals) : Prop where
  fds : l.fds.isSome = true
  pfds : l.pfds.isSome = true
  diffs : l.diffs.isSome = true

theorem openSocket_sound (o : Outcomes) (i : Nat) (l : Locals) (present : l.Present) :
    Sound Locals.Present (openSocket o i l) := by
  refine .ite (fun _ => .pure fun h fresh => ⟨present, fun _ => fresh⟩) fun _ => ?_
  refine .bind (store_ensures present.pfds _ _) fun pfds => .assume fun storedPfds => ?_
  refine .bind (store_ensures present.fds _ _) fun fds => .assume fun storedFds => ?_
  exact .pure fun h fresh => ⟨⟨storedFds, storedPfds, present.diffs⟩, fun _ => fresh⟩

theorem timedPoll_sound (o : Outcomes) (fdCount idy : Nat) (l : Locals) (present : l.Present) :
    Sound Locals.Present (timedPoll o fdCount idy l) := by
  refine .ite (fun _ => .pure fun h fresh => ⟨present, fun _ => fresh⟩) fun _ => ?_
  refine .bind (store_ensures present.diffs _ _) fun diffs => .assume fun stored => ?_
  exact .pure fun h fresh => ⟨⟨present.fds, present.pfds, stored⟩, fun _ => fresh⟩

theorem run_ensures (o : Outcomes) (fdCount iterCnt : Nat) : Ensures Fresh (run o fdCount iterCnt) Reported := by
  refine .bind (allocate_ensures _ _) fun fds => .ite (fun _ => .pure fun h _ => reported_true h) fun present => ?_
  have memory : fds.isSome = true := by simpa [Option.isSome_iff_ne_none] using present
  refine .bind ((memset_ensures memory _).strengthen fun h fresh => fresh memory) fun fds => .assume fun memory => ?_
  refine .bind (allocate_ensures _ _) fun pfds => .bind (allocate_ensures_after _ _ _) fun diffs => ?_
  refine .bind (Q := fun r h => r.2.fds.isSome = true ∧ Reported r.1 h) (.ite (fun _ => ?_) fun measured => ?_) fun r => ?_
  · exact .pure fun h _ => ⟨memory, reported_true h⟩
  · obtain ⟨entries, samples⟩ : pfds.isSome = true ∧ diffs.isSome = true := by
      simpa [Option.isSome_iff_ne_none] using measured
    have sampled := measure_ensures (openSocket_sound o) (timedPoll_sound o fdCount) (fun l present => present.diffs) fdCount
      iterCnt (l := ⟨fds, pfds, diffs⟩) ⟨memory, entries, samples⟩
    exact (sampled.weaken fun r h after => ⟨after.1.fds, after.2⟩).strengthen fun h fresh => fresh entries samples
  · refine .assume fun memory => .bind (closeAll_ensures memory) fun _ => .pure fun h reported => reported

end Poll

namespace Epoll

structure Locals.Present (l : Locals) : Prop where
  fds : l.fds.isSome = true
  diffs : l.diffs.isSome = true

theorem openSocket_sound (o : Outcomes) (i : Nat) (l : Locals) (present : l.Present) :
    Sound Locals.Present (openSocket o i l) := by
  refine .ite (fun _ => .pure fun h fresh => ⟨present, fun _ => fresh⟩) fun _ => ?_
  refine .bind (store_ensures present.fds _ _) fun fds => .assume fun stored => ?_
  exact .ite (fun _ => .pure fun h fresh => ⟨⟨stored, present.diffs⟩, fun _ => fresh⟩)
    fun _ => .pure fun h fresh => ⟨⟨stored, present.diffs⟩, fun _ => fresh⟩

theorem timedWait_sound (o : Outcomes) (fdCount idy : Nat) (l : Locals) (present : l.Present) :
    Sound Locals.Present (timedWait o fdCount idy l) := by
  refine .ite (fun _ => .pure fun h fresh => ⟨present, fun _ => fresh⟩) fun _ => ?_
  refine .bind (store_ensures present.diffs _ _) fun diffs => .assume fun stored => ?_
  exact .pure fun h fresh => ⟨⟨present.fds, stored⟩, fun _ => fresh⟩

theorem body_ensures (o : Outcomes) (fdCount iterCnt : Nat) {l : Locals} (memory : l.fds.isSome = true) :
    Ensures Fresh (body o fdCount iterCnt l) fun r h => r.2.fds.isSome = true ∧ Reported r.1 h := by
  refine .ite (fun _ => .pure fun h fresh => ⟨memory, reported_true h⟩) fun _ => ?_
  refine .bind (allocate_ensures _ _) fun events => .bind (allocate_ensures_after _ _ _) fun diffs => ?_
  refine .ite (fun _ => .pure fun h _ => ⟨memory, reported_true h⟩) fun measured => ?_
  obtain ⟨samples, entries⟩ : diffs.isSome = true ∧ events.isSome = true := by
    simpa [Option.isSome_iff_ne_none] using measured
  have sampled := measure_ensures (openSocket_sound o) (timedWait_sound o fdCount) (fun l present => present.diffs) fdCount
    iterCnt (l := { l with events, diffs }) ⟨memory, samples⟩
  exact (sampled.weaken fun r h after => ⟨after.1.fds, after.2⟩).strengthen fun h fresh => fresh entries samples

theorem run_ensures (o : Outcomes) (fdCount iterCnt : Nat) : Ensures Fresh (run o fdCount iterCnt) Reported := by
  refine .bind (allocate_ensures _ _) fun fds => .ite (fun _ => .pure fun h _ => reported_true h) fun present => ?_
  have memory : fds.isSome = true := by simpa [Option.isSome_iff_ne_none] using present
  refine .bind ((memset_ensures memory _).strengthen fun h fresh => fresh memory) fun fds => .assume fun memory => ?_
  refine .bind (body_ensures o fdCount iterCnt memory) fun r => .assume fun memory => ?_
  refine .bind (closeAll_ensures memory) fun _ => .bind (Q := fun _ => Reported r.1) (.modify fun h reported => reported) fun _ => ?_
  exact .pure fun h reported => reported

end Epoll

end Oreo.Bench
