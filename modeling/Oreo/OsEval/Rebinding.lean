import Oreo.OsEval.Sessions
import Oreo.Transition.Run

namespace Oreo.OsEval

open Oreo.Transition Interaction

/-! # Only the first `bind` of a sequence of socket tests succeeds

The address is `home` followed by `sock`, and what is removed is `sock`.
-/

/-- What the calls of `bind` so far have returned, and whether the path exists. -/
def FirstOnly (values : List Int) (paths : List String) : Prop :=
  values = [] ∧ serverPath ∉ paths ∨ ∃ later, values = 0 :: List.replicate later (-1) ∧ serverPath ∈ paths

variable {values : List Int} {w : World} {index own : Nat} {c : Call} {k : Reply → Code Unit} {reply : Reply}

theorem FirstOnly.bind (first : FirstOnly values w.paths) (value : Int)
    (possible : w.possible index (.bind fd serverPath) value = true) :
    FirstOnly (values ++ [value]) (w.linked (.bind fd serverPath) value) := by
  have decided : value = if serverPath ∈ w.paths then -1 else 0 := by simpa [World.possible] using possible
  rcases first with ⟨rfl, absent⟩ | ⟨later, rfl, present⟩
  · rw [if_neg absent] at decided
    exact .inr ⟨0, by simp [decided], by simp [World.linked, decided]⟩
  · rw [if_pos present] at decided
    refine .inr ⟨later + 1, by simp [decided, List.replicate_succ'], ?_⟩
    simpa [World.linked, decided] using present

theorem FirstOnly.answer (first : FirstOnly values w.paths) (binds : Binds (.call c k) own)
    (possible : w.possible index c reply.value = true) :
    FirstOnly (values ++ c.bindReply reply.value) (w.answer index c k reply).paths := by
  cases c with
  | bind fd path =>
      obtain ⟨rfl, -⟩ := binds
      exact first.bind _ possible
  | remove path =>
      have kept : serverPath ∈ w.linked (.remove path) reply.value ↔ serverPath ∈ w.paths := by
        rw [World.linked]
        split
        · simp [binds.1.symm]
        · rfl
      simpa only [FirstOnly, World.answer, kept, Call.bindReply, List.append_nil] using first
  | _ => simpa [World.answer, World.linked, Call.bindReply] using first

/-- Where a run that began with `total` invocations has got to. -/
structure Session (total : Nat) (trace : List (World × Label)) (w : World) : Prop where
  debts : ∃ due, Owed w.procs due ∧ total = (bindReplies trace).length + due
  history : FirstOnly (bindReplies trace) w.paths

theorem bindReplies_snoc (trace : List (World × Label)) {label : Label} (request : w.request label.proc = some (c, k)) :
    bindReplies (trace ++ [(w, label)]) = bindReplies trace ++ c.bindReply label.reply.value := by
  simp [bindReplies, request]

theorem Session.step {total : Nat} {trace : List (World × Label)} {label : Label} {next : World}
    (session : Session total trace w) (succeeds : OthersSucceed w label) (stepped : step w label = some next) :
    Session total (trace ++ [(w, label)]) next := by
  obtain ⟨c, k, request, possible, rfl⟩ := step_eq_some.mp stepped
  obtain ⟨due, owed, split⟩ := session.debts
  obtain ⟨later, passed, rfl⟩ := owed_answer owed request possible (succeeds c k request)
  obtain ⟨p, found, asks⟩ := Option.bind_eq_some_iff.mp request
  obtain ⟨own, rest, owes, -, -⟩ := owed.modify found
  refine ⟨⟨later, passed, ?_⟩, ?_⟩
  · rw [bindReplies_snoc trace request, List.length_append]
    omega
  · rw [bindReplies_snoc trace request]
    exact session.history.answer ((owes_request asks).mp owes) possible

theorem run_session {sequence : List Invocation} {paths : List String} {trace : List (World × Label)}
    (absent : serverPath ∉ paths) (run : Run OsEval.step OthersSucceed (.start sequence paths) trace w) :
    Session sequence.length trace w := by
  apply run.trace_invariant (Session sequence.length)
  · have owes : Owes ⟨invokeAll sequence, none, .running⟩ sequence.length := binds_invokeAll sequence
    exact ⟨⟨sequence.length, .cons owes .nil, (Nat.zero_add _).symm⟩, .inl ⟨rfl, absent⟩⟩
  · exact fun trace s label next _ session succeeds stepped => session.step succeeds stepped

theorem FirstOnly.all_succeed {paths : List String} (first : FirstOnly values paths) :
    (∀ value ∈ values, value = 0) ↔ values.length ≤ 1 := by
  rcases first with ⟨rfl, -⟩ | ⟨later, rfl, -⟩
  · simp
  · cases later <;> simp [List.replicate_succ]

/-- In every run every `bind` succeeds if the sequence is a single invocation, and in every run
that comes to its end that is the only case. -/
theorem every_bind_succeeds_iff {sequence : List Invocation} {paths : List String} {trace : List (World × Label)}
    (absent : serverPath ∉ paths) (run : Run OsEval.step OthersSucceed (.start sequence paths) trace w) :
    (sequence.length ≤ 1 → ∀ value ∈ bindReplies trace, value = 0) ∧
      (w.Ended → ((∀ value ∈ bindReplies trace, value = 0) ↔ sequence.length ≤ 1)) := by
  obtain ⟨⟨due, owed, total⟩, history⟩ := run_session absent run
  rw [history.all_succeed]
  refine ⟨fun single => by omega, fun ended => ?_⟩
  obtain rfl := owed.ended ended
  omega

/-! ## Two runs of `send_test` -/

/-- "big send" with two runs and a limit of one in an iteration. -/
def twoSends : List Invocation :=
  let job : Job := ⟨.send, 2, 96000, 1⟩
  [⟨job, .entry 2, by decide⟩, ⟨job, { Vars.entry 2 with i := 1, added := [0] }, by decide⟩]

/-- The values of the calls in one of the invocations, with the processes that make them. -/
def sendCalls (child : Nat) (bound : Int) : List (Nat × Int) :=
  [(0, 0), (0, 0), (0, 100 + child), (child, 0), (child, 0), (child, 5), (child, bound), (child, 0), (child, 1),
    (0, 0), (0, 0), (0, 1), (0, 6), (0, 0), (child, 7), (0, 96000), (0, 0), (0, 96000), (0, 0), (0, 1), (0, 0), (0, 0),
    (0, 0), (child, 1), (child, -1), (child, 0), (child, 0), (child, 0), (child, 0), (child, 0), (0, 100 + child)]

def permits (w : World) (label : Label) : Bool :=
  match w.request label.proc with
  | some (c, _) => !c.other || decide (0 ≤ label.reply.value)
  | none => true

theorem permits_sound (w : World) (label : Label) (permitted : permits w label = true) : OthersSucceed w label := by
  intro c k request other
  simpa [permits, request, other] using permitted

/-- Both invocations have ended, and the second could not bind. -/
def secondFailed (reached : List (World × Label) × World) : Bool :=
  bindReplies reached.1 == [0, -1] && reached.2.procs.all fun p => p.request.isNone

theorem twoSends_run : ∃ trace w, Run OsEval.step OthersSucceed (.start twoSends []) trace w ∧
    secondFailed (trace, w) = true := by
  apply exists_run_of_replay ((sendCalls 1 0 ++ sendCalls 2 (-1)).map fun (proc, value) => ⟨proc, value, (3, 4), ⟨0, 0⟩⟩)
    permits_sound
  decide

theorem every_bind_succeeds_iff_twoSends : ∃ trace w, Run OsEval.step OthersSucceed (.start twoSends []) trace w ∧
    ((∀ value ∈ bindReplies trace, value = 0) ↔ twoSends.length ≤ 1) := by
  obtain ⟨trace, w, run, reached⟩ := twoSends_run
  obtain ⟨-, ended⟩ := Bool.and_eq_true_iff.mp reached
  have ended : w.Ended := by simpa [World.Ended] using ended
  exact ⟨trace, w, run, (every_bind_succeeds_iff (by simp) run).2 ended⟩

theorem second_bind_fails : ¬ ∀ trace w, Run OsEval.step OthersSucceed (.start twoSends []) trace w →
    ∀ value ∈ bindReplies trace, value = 0 := by
  intro always
  obtain ⟨trace, w, run, reached⟩ := twoSends_run
  obtain ⟨replies, -⟩ := Bool.and_eq_true_iff.mp reached
  have second := always trace w run (-1) (by simp [beq_iff_eq.mp replies])
  contradiction

end Oreo.OsEval
