import Oreo.Bench.Monitor.Model
import Oreo.Sampling.Extremes
import Mathlib.Data.List.TakeWhile

namespace Oreo.Bench.Select

open Oreo.Posix Oreo.Posix.Action Oreo.Sampling Oreo.Transition Oreo.Transition.Effect Oreo.Utils

/-! # What `select_test` passes to the kernel -/

/-- The results of `remaining` calls of `socket`, from call `idx` on, up to the first failure. -/
def opened (o : Outcomes) (remaining idx : Nat) : List Int32 :=
  ((List.range' idx remaining).map o.socket).takeWhile fun fd => decide (0 ≤ fd)

instance int32LinearOrder : LinearOrder Int32 where
  le_refl := Int32.le_refl
  le_trans _ _ _ := Int32.le_trans
  le_antisymm _ _ := Int32.le_antisymm
  le_total := Int32.le_total
  lt_iff_le_not_ge a b := by
    simp only [Int32.lt_iff_toInt_lt, Int32.le_iff_toInt_le]
    omega
  toDecidableLE := inferInstance

/-- The sets that the calls of `select` get: each is what the one before it left. -/
def readSets (o : Outcomes) : Nat → Nat → List Int32 → List (List Int32)
  | 0, _, _ => []
  | remaining + 1, idy, monitored =>
      monitored ::
        match o.ready idy with
        | some ready => readSets o remaining (idy + 1) (monitored.filter ready)
        | none => []

/-- The setup gets to its end and there is something to measure. -/
structure Measures (o : Outcomes) (fdCount iterCnt : Nat) : Prop where
  fds : o.fds = true
  diffs : o.diffs = true
  iterated : 0 < iterCnt
  sockets : ∀ idx < fdCount, 0 ≤ o.socket idx

variable {o : Outcomes}

theorem opened_succ (remaining idx : Nat) :
    opened o (remaining + 1) idx = if 0 ≤ o.socket idx then o.socket idx :: opened o remaining (idx + 1) else [] := by
  simp only [opened, List.range'_succ, List.map_cons, List.takeWhile_cons, decide_eq_true_eq]

theorem opened_all {fdCount : Nat} (sockets : ∀ idx < fdCount, 0 ≤ o.socket idx) :
    opened o fdCount 0 = (List.range fdCount).map o.socket := by
  rw [opened, ← List.range_eq_range']
  apply List.takeWhile_eq_self_iff.mpr
  intro fd member
  obtain ⟨idx, inside, rfl⟩ := List.mem_map.mp member
  exact decide_eq_true (sockets idx (List.mem_range.mp inside))

theorem mem_opened {remaining idx : Nat} {fd : Int32} :
    fd ∈ opened o remaining idx ↔
      ∃ count < remaining, fd = o.socket (idx + count) ∧ ∀ earlier ≤ count, 0 ≤ o.socket (idx + earlier) := by
  induction remaining generalizing idx with
  | zero => simp [opened]
  | succ remaining ih =>
      rw [opened_succ]
      by_cases valid : 0 ≤ o.socket idx
      · rw [if_pos valid, List.mem_cons, ih]
        constructor
        · intro found
          rcases found with rfl | ⟨count, inside, rfl, before⟩
          · refine ⟨0, by omega, rfl, ?_⟩
            intro earlier first
            obtain rfl : earlier = 0 := by omega
            exact valid
          · refine ⟨count + 1, by omega, by rw [Nat.add_right_comm, Nat.add_assoc], ?_⟩
            intro earlier bound
            cases earlier with
            | zero => exact valid
            | succ earlier =>
                have later := before earlier (by omega)
                rwa [Nat.add_right_comm, Nat.add_assoc] at later
        · intro found
          obtain ⟨count, inside, rfl, before⟩ := found
          cases count with
          | zero => exact .inl rfl
          | succ count =>
              refine .inr ⟨count, by omega, by rw [Nat.add_right_comm, Nat.add_assoc], ?_⟩
              intro earlier bound
              have later := before (earlier + 1) (by omega)
              rwa [Nat.add_right_comm, Nat.add_assoc]
      · rw [if_neg valid]
        constructor
        · intro found
          simp at found
        · intro found
          obtain ⟨count, -, -, before⟩ := found
          exact absurd (before 0 (by omega)) valid

/-- The setup loop puts the sockets into the set until one is missing. -/
theorem openSocket_loop (remaining idx : Nat) (l : Locals) (fds : List Int32) (memory : l.fds = some fds) (h : Host) :
    ∃ fds', result (loop (openSocket o) remaining idx l) h =
      (.ok ((opened o remaining idx).length == remaining,
        { l with
          fds := some fds'
          maxFd := largest l.maxFd (opened o remaining idx)
          monitored := l.monitored ++ opened o remaining idx }),
        h.append ((opened o remaining idx).map .fdSet)) := by
  induction remaining generalizing idx l fds h with
  | zero => exact ⟨fds, by simp [loop, opened, largest_nil, ← memory]⟩
  | succ remaining ih =>
      rw [opened_succ]
      by_cases valid : 0 ≤ o.socket idx
      · have first : result (openSocket o idx l) h =
            (.ok (true, { l with
              fds := some (fds.set idx (o.socket idx))
              maxFd := if l.maxFd < o.socket idx then o.socket idx else l.maxFd
              monitored := l.monitored ++ [o.socket idx] }), h.append [.fdSet (o.socket idx)]) := by
          simp [openSocket, valid, memory, result_bind, Except.map, Host.record]
        obtain ⟨fds', rest⟩ := ih (idx + 1) { l with
          fds := some (fds.set idx (o.socket idx))
          maxFd := if l.maxFd < o.socket idx then o.socket idx else l.maxFd
          monitored := l.monitored ++ [o.socket idx] } _ rfl (h.append [.fdSet (o.socket idx)])
        refine ⟨fds', ?_⟩
        rw [result_loop_next remaining first, rest, if_pos valid]
        simp [largest_cons]
      · have first : result (openSocket o idx l) h = (.ok (false, l), h) := by
          simp [openSocket, valid]
        refine ⟨fds, ?_⟩
        rw [result_loop_left remaining first, if_neg valid]
        simp [largest_nil, ← memory]

theorem timedSelect_loop (remaining idy : Nat) (l : Locals) (diffs : List Nat) (memory : l.diffs = some diffs) (h : Host) :
    ∃ measured l' diffs', l'.fds = l.fds ∧ l'.diffs = some diffs' ∧
      result (loop (timedSelect o) remaining idy l) h = (.ok (measured, l'),
        h.append ((readSets o remaining idy l.monitored).map (.select (l.maxFd + 1)))) := by
  induction remaining generalizing idy l diffs h with
  | zero => exact ⟨true, l, diffs, rfl, memory, by simp [loop, readSets]⟩
  | succ remaining ih =>
      cases answer : o.ready idy with
      | some ready =>
          have first : result (timedSelect o idy l) h =
              (.ok (true, { l with
                monitored := l.monitored.filter ready
                diffs := some (diffs.set idy (getDuration (o.tstart idy) (o.tend idy))) }),
                h.append [.select (l.maxFd + 1) l.monitored]) := by
            simp [timedSelect, answer, memory, result_bind, Except.map, Host.record]
          obtain ⟨measured, l', diffs', sameFds, newDiffs, rest⟩ :=
            ih (idy + 1) { l with
              monitored := l.monitored.filter ready
              diffs := some (diffs.set idy (getDuration (o.tstart idy) (o.tend idy))) } _ rfl
              (h.append [.select (l.maxFd + 1) l.monitored])
          refine ⟨measured, l', diffs', sameFds, newDiffs, ?_⟩
          rw [result_loop_next remaining first, rest]
          simp [readSets, answer]
      | none =>
          have first : result (timedSelect o idy l) h =
              (.ok (false, l), h.append [.select (l.maxFd + 1) l.monitored]) := by
            simp [timedSelect, answer, Except.map, Host.record]
          refine ⟨false, l, diffs, rfl, memory, ?_⟩
          rw [result_loop_left remaining first]
          simp [readSets, answer]

/-- Once there is memory, the log is that of the two loops; the rest of the test adds the
samples, if they are complete, and the `close` calls. -/
theorem run_events (fdCount iterCnt : Nat) (h : Host) (fds : o.fds = true) (diffs : o.diffs = true) :
    ∃ (samples : List (List Nat)) (closed : List Int32), (run o fdCount iterCnt).events h =
      (opened o fdCount 0).map .fdSet ++
        ((if (opened o fdCount 0).length = fdCount then readSets o iterCnt 0 (opened o fdCount 0) else []).map
          (.select (largest o.maxFd (opened o fdCount 0) + 1)) ++
        (samples.map .collect ++ closed.map .close)) := by
  generalize empty : { h with log := [] } = start
  have noLog : start.log = [] := by rw [← empty]
  obtain ⟨opened', setup⟩ := openSocket_loop (o := o) fdCount 0
    ⟨some (List.replicate fdCount (-1)), some (initDiffArray iterCnt), o.maxFd, []⟩ _ rfl start
  by_cases complete : (opened o fdCount 0).length = fdCount
  · obtain ⟨measured, l', diffs', sameFds, newDiffs, timed⟩ := timedSelect_loop (o := o) iterCnt 0
      ⟨some opened', some (initDiffArray iterCnt), largest o.maxFd (opened o fdCount 0), opened o fdCount 0⟩ _ rfl
      (start.append ((opened o fdCount 0).map .fdSet))
    cases measured with
    | true =>
        refine ⟨[diffs'], opened', ?_⟩
        simp [events, empty, run, body, measure, fds, diffs, result_bind, setup, complete, timed, newDiffs, sameFds]
        simp [Host.append, noLog]
    | false =>
        refine ⟨[], opened', ?_⟩
        simp [events, empty, run, body, measure, fds, diffs, result_bind, setup, complete, timed, sameFds]
        simp [Host.append, noLog]
  · refine ⟨[], opened', ?_⟩
    simp [events, empty, run, body, measure, fds, diffs, result_bind, setup, complete]
    simp [Host.append, noLog]

/-- Without memory the test only closes what is in the array of descriptors, if there is one. -/
theorem run_events_exhausted (fdCount iterCnt : Nat) (h : Host) (missing : ¬ (o.fds = true ∧ o.diffs = true)) :
    ∃ closed : List Int32, (run o fdCount iterCnt).events h = closed.map .close := by
  cases fds : o.fds with
  | false => exact ⟨[], by simp [events, run, fds, result_bind, Host.exhaust]⟩
  | true =>
      have diffs : o.diffs = false := by simpa [fds] using missing
      refine ⟨List.replicate fdCount (-1), ?_⟩
      simp [events, run, body, fds, diffs, result_bind, Host.exhaust, Host.append]

end Oreo.Bench.Select
