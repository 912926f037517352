import Oreo.OsEval.Report
import Oreo.OsEval.SocketTests

namespace Oreo.OsEval

open Oreo.Posix Oreo.Transition Interaction

/-! # The outer loop of `one_line_test_v2` fills every slot -/

/-- What the kernel is going to reply to the process: the results of its calls of `fork`, the readings
of the clock, and the replies to its other calls, which all return. -/
structure Env where
  forks : Nat → Int
  times : Nat → Timespec Int
  replies : Nat → Reply

namespace Env

/-- An access outside of the array ends the run. -/
def answer (env : Env) : Call → Except Stop (Reply × Env)
  | .fork => .ok (⟨env.forks 0, (0, 0), ⟨0, 0⟩⟩, { env with forks := fun n => env.forks (n + 1) })
  | .clockGettime => .ok (⟨0, (0, 0), env.times 0⟩, { env with times := fun n => env.times (n + 1) })
  | .outside index => .error (.outside index)
  | _ => .ok (env.replies 0, { env with replies := fun n => env.replies (n + 1) })

/-- What the `k`-th timed transfer takes: the clock is read before it and behind it, and at no other time. -/
def interval (env : Env) (k : Nat) : Timespec Int := addDiffToSum ⟨0, 0⟩ (env.times (2 * k + 1)) (env.times (2 * k))

end Env

/-- `for (int i = 0; i < runs; ) (*f)(timeArray, info->iter, &i)`, in at most `fuel` rounds. -/
def outerLoop (job : Job) : Nat → Env → Vars → Except Stop (Vars × Env)
  | 0, _, _ => .error .fuel
  | fuel + 1, env, vars =>
      if vars.i < job.runs then do
        let (vars, env) ← exec Env.answer (socketTest job vars) env
        outerLoop job fuel env vars
      else return (vars, env)

/-- In round `rounds` the slots below `i` have been filled, one after the other, and the others have not
been touched. The clock has been read twice for each. -/
structure Covers (runs : Nat) (start : Env) (rounds : Nat) (vars : Vars) (env : Env) : Prop where
  added : vars.added = List.range vars.i
  bound : vars.i ≤ runs
  slots : vars.timeArray = (List.range vars.i).map start.interval ++ List.replicate (runs - vars.i) ⟨0, 0⟩
  times : ∀ n, env.times n = start.times (2 * vars.i + n)
  forks : ∀ n, env.forks n = start.forks (rounds + n)

variable {job : Job} {vars : Vars} {env rest start : Env} {runs rounds : Nat}

theorem covers_entry (runs : Nat) (env : Env) : Covers runs env 0 (.entry runs) env where
  added := rfl
  bound := Nat.zero_le _
  slots := rfl
  times := by simp [Vars.entry]
  forks := by simp

namespace Covers

variable (covers : Covers runs start rounds vars env)
include covers

theorem slot (room : vars.i < runs) : vars.timeArray[vars.i]? = some ⟨0, 0⟩ := by
  rw [covers.slots, List.getElem?_append_right (by simp)]
  simp [room]

/-- The next slot gets the difference of the next two readings. -/
theorem next (room : vars.i < runs) (times : ∀ n, rest.times n = env.times (n + 2)) (forks : rest.forks = env.forks) :
    Covers runs start rounds
      ⟨vars.i + 1, vars.timeArray.set vars.i (start.interval vars.i), vars.added ++ [vars.i]⟩ rest where
  added := by rw [covers.added, List.range_succ]
  bound := room
  slots := by
    obtain ⟨left, empty⟩ : ∃ left, runs - vars.i = left + 1 := ⟨runs - vars.i - 1, by omega⟩
    have remain : runs - (vars.i + 1) = left := by omega
    rw [covers.slots, List.set_append_right _ _ (by simp), empty, remain]
    simp [List.range_succ, List.replicate_succ]
  times n := by
    have same : 2 * vars.i + (n + 2) = 2 * (vars.i + 1) + n := by omega
    rw [times, covers.times, same]
  forks n := by rw [forks, covers.forks]

/-- Inner calls are of no account. -/
theorem after {α β : Type} {p : Code α} {f : α → Code β} {Q : β → Env → Prop} (calls : Calls Inner p)
    (next : ∀ a later, Covers runs start rounds vars later → Completes Env.answer (f a) later Q) :
    Completes Env.answer (p >>= f) env Q := by
  refine (calls.completes (fun between c inner kept => ?_) covers).bind fun a later kept => next a later kept
  have holds : ∀ env : Env, env.times = between.times → env.forks = between.forks → Covers runs start rounds vars env :=
    fun env times forks => { kept with times := times ▸ kept.times, forks := forks ▸ kept.forks }
  cases c <;> first | exact inner.elim | exact ⟨_, _, rfl, holds _ rfl rfl⟩

end Covers

/-! ## One round -/

theorem completes_clockGettime (env : Env) : Completes Env.answer clockGettime env fun time rest =>
    time = env.times 0 ∧ rest = { env with times := fun n => env.times (n + 1) } :=
  ⟨_, _, rfl, rfl, rfl⟩

theorem completes_call {c : Call} (inner : Inner c) (env : Env) :
    Completes Env.answer (call c) env fun _ rest => rest.times = env.times ∧ rest.forks = env.forks := by
  cases c <;> first | exact inner.elim | exact ⟨_, _, rfl, rfl, rfl⟩

/-- No access of the loop is outside of the array. -/
theorem completes_timedLoop {transfer : Call} (inner : Inner transfer) (remaining : Nat)
    (covers : Covers runs start rounds vars env) :
    Completes Env.answer (timedLoop transfer runs remaining vars) env fun after rest =>
      Covers runs start rounds after rest ∧ after.i = min (vars.i + remaining) runs := by
  induction remaining generalizing vars env with
  | zero => exact .pure ⟨covers, (Nat.min_eq_left covers.bound).symm⟩
  | succ remaining ih =>
      unfold timedLoop
      split
      · next room =>
          refine .bind (completes_clockGettime env) ?_
          rintro _ _ ⟨rfl, rfl⟩
          refine .bind (completes_call inner _) fun _ between ⟨times, forks⟩ => .bind (completes_clockGettime between) ?_
          rintro _ _ ⟨rfl, rfl⟩
          have measured : addDiffToSum ⟨0, 0⟩ (between.times 0) (env.times 0) = start.interval vars.i := by
            rw [times, covers.times, covers.times]
            rfl
          rw [Vars.addDiff_eq (covers.slot room), pure_bind, measured]
          have clock : ∀ n, ({ between with times := fun n => between.times (n + 1) } : Env).times n = env.times (n + 2) :=
            fun n => congrFun times (n + 1)
          have next := ih (covers.next room clock forks)
          rwa [Nat.add_assoc, Nat.add_comm 1 remaining] at next
      · next full =>
          have bound := covers.bound
          exact .pure ⟨covers, by omega⟩

/-- A round of the parent fills slots, as many as both bounds allow. -/
theorem completes_parent (fds1 fds2 : Int × Int) (covers : Covers job.runs start rounds vars env) :
    Completes Env.answer (parent job fds1 fds2 vars) env fun after rest =>
      Covers job.runs start rounds after rest ∧ after.i = min (vars.i + job.currIterLimit) job.runs := by
  unfold parent
  split
  · refine covers.after (inner_contact _ _) fun fdClient env covers => covers.after (calls_call trivial) fun _ env covers => ?_
    refine .bind (completes_timedLoop (by trivial) _ covers) fun after env ⟨covers, reached⟩ => ?_
    refine covers.after (calls_call trivial) fun _ env covers => covers.after (inner_closeAll _) fun _ env covers => ?_
    exact covers.after (calls_call trivial) fun _ env covers => .pure ⟨covers, reached⟩
  · refine covers.after (inner_serve _ _) fun served env covers => covers.after (calls_call trivial) fun _ env covers => ?_
    refine .bind (completes_timedLoop (by trivial) _ covers) fun after env ⟨covers, reached⟩ => ?_
    refine covers.after (calls_call trivial) fun _ env covers => covers.after (calls_call trivial) fun _ env covers => ?_
    refine covers.after (inner_closeAll _) fun _ env covers => covers.after (calls_call trivial) fun _ env covers => ?_
    exact .pure ⟨covers, reached⟩

/-- Nothing happens if `fork` fails. -/
theorem completes_socketTest (covers : Covers job.runs start rounds vars env) (notChild : start.forks rounds ≠ 0) :
    Completes Env.answer (socketTest job vars) env fun after rest =>
      Covers job.runs start (rounds + 1) after rest ∧
        after.i = if start.forks rounds < 0 then vars.i else min (vars.i + job.currIterLimit) job.runs := by
  have inner_pipe : Calls Inner pipe := .bind (.perform trivial) fun _ => .pure _
  refine covers.after inner_pipe fun fds1 env covers => covers.after inner_pipe fun fds2 env covers => ?_
  have result : env.forks 0 = start.forks rounds := covers.forks 0
  have forked : Covers job.runs start (rounds + 1) vars { env with forks := fun n => env.forks (n + 1) } :=
    { covers with forks := fun n => by rw [Nat.add_assoc, Nat.add_comm 1 n]; exact covers.forks (n + 1) }
  have asked : Completes Env.answer (call .fork) env fun forkId rest =>
      forkId = start.forks rounds ∧ Covers job.runs start (rounds + 1) vars rest := ⟨_, _, rfl, result, forked⟩
  refine asked.bind ?_
  rintro _ rest ⟨rfl, covers⟩
  split
  · exact .pure ⟨covers, rfl⟩
  · exact completes_parent fds1 fds2 covers

/-- Every round either uses up one of the failures of `fork` or fills a slot. -/
theorem outerLoop_ends (limited : 1 ≤ job.currIterLimit) {failures : Nat} (covers : Covers job.runs start rounds vars env)
    (notChild : ∀ n, start.forks n ≠ 0) (succeeds : ∀ n, failures ≤ n → 0 < start.forks n) :
    ∃ fuel after rest rounds', outerLoop job fuel env vars = .ok (after, rest) ∧ after.i = job.runs ∧
      Covers job.runs start rounds' after rest := by
  induction measure : failures - rounds + (job.runs - vars.i) using Nat.strong_induction_on generalizing rounds vars env with
  | _ n ih =>
      by_cases room : vars.i < job.runs
      · obtain ⟨after, rest, round, next, reached⟩ := completes_socketTest covers (notChild rounds)
        have advance : after.i = vars.i ∧ rounds < failures ∨ vars.i < after.i := by
          split at reached
          · next failed =>
              refine .inl ⟨reached, Nat.lt_of_not_le fun none => ?_⟩
              have granted := succeeds rounds none
              omega
          · exact .inr (by omega)
        have bound := next.bound
        obtain ⟨fuel, final, last, rounds', looped, filled⟩ := ih (failures - (rounds + 1) + (job.runs - after.i)) (by omega) next rfl
        exact ⟨fuel + 1, final, last, rounds', by rw [outerLoop, if_pos room, round]; exact looped, filled⟩
      · have bound := covers.bound
        exact ⟨1, vars, env, rounds, by rw [outerLoop, if_neg room]; rfl, by omega, covers⟩

/-- If only finitely many calls of `fork` fail, the outer loop of `one_line_test_v2` ends in the
parent without an access outside of `timeArray`. `add_diff_to_sum` has been called for the indices `0`
to `runs - 1`, once each and in this order, and each slot holds what its transfer took. -/
theorem oneLineTestV2_fills_every_slot (job : Job) (limited : 1 ≤ job.currIterLimit) (env : Env)
    (inParent : ∀ n, env.forks n ≠ 0) (finite : ∃ failures, ∀ n, failures ≤ n → 0 < env.forks n) :
    ∃ fuel vars rest, outerLoop job fuel env (.entry job.runs) = .ok (vars, rest) ∧
      vars.added = List.range job.runs ∧ vars.timeArray.length = job.runs ∧
        ∀ k < job.runs, vars.timeArray[k]? = some (addDiffToSum ⟨0, 0⟩ (env.times (2 * k + 1)) (env.times (2 * k))) := by
  obtain ⟨failures, succeeds⟩ := finite
  obtain ⟨fuel, vars, rest, rounds, looped, ended, covers⟩ :=
    outerLoop_ends limited (covers_entry job.runs env) inParent succeeds
  have slots := covers.slots
  rw [ended, Nat.sub_self, List.replicate_zero, List.append_nil] at slots
  refine ⟨fuel, vars, rest, looped, by rw [covers.added, ended], by simp [slots], fun k inside => ?_⟩
  simp [slots, inside, Env.interval]

/-- "big recv". -/
def bigRecv : Job := ⟨.recv, 100, 96000, 1⟩

/-- The first two forks fail, and the clock goes on by a second from one reading to the next. -/
def twoFailures : Env := ⟨fun n => if n < 2 then -1 else 7, fun n => ⟨n, 5⟩, fun _ => ⟨0, (3, 4), ⟨0, 0⟩⟩⟩

theorem oneLineTestV2_fills_every_slot_big :
    ∃ fuel vars rest, outerLoop bigRecv fuel twoFailures (.entry 100) = .ok (vars, rest) ∧
      vars.added = List.range 100 ∧ vars.timeArray.length = 100 ∧
        ∀ k < 100, vars.timeArray[k]? =
          some (addDiffToSum ⟨0, 0⟩ (twoFailures.times (2 * k + 1)) (twoFailures.times (2 * k))) := by
  refine oneLineTestV2_fills_every_slot bigRecv (by decide) twoFailures (fun n => ?_) ⟨2, fun n above => ?_⟩
  · dsimp only [twoFailures]
    split <;> decide
  · have later : ¬ n < 2 := Nat.not_lt.mpr above
    dsimp only [twoFailures]
    rw [if_neg later]
    decide

end Oreo.OsEval
