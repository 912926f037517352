import Oreo.Posix.Pair

namespace Oreo.Posix

open Oreo.Transition

/-! # Whom processes signal -/

variable {L : Type*} {prog : Program L} {allowed : World L → Label → Prop} {w start : World L}

/-- The process identifier that a call of process `own` sends a signal to. -/
def Call.target (own : Int) : Call → Option Int
  | .killSelf => some own
  | .kill pid => some pid
  | _ => none

/-- A signal that a process is about to send goes to that process itself, or from a
parent to its only child. -/
def SignalsStayInside (prog : Program L) (w : World L) : Prop :=
  ∀ index p call target, w.procs[index]? = some p → p.status = .running → prog.request p.locals = some call →
    call.target p.id = some target →
      0 < target ∧ (target = p.id ∨ index = 0 ∧ ∃ c, w.procs = [p, c] ∧ target = c.id)

theorem ids_positive (reachable : Reachable (step prog) allowed start w)
    (initial : ∀ p ∈ start.procs, 0 < p.id) : ∀ p ∈ w.procs, 0 < p.id := by
  intro p member
  obtain ⟨index, found⟩ := List.mem_iff_getElem?.mp member
  refine procs_invariant (P := fun _ p => 0 < p.id) (fun _ _ _ holds => holds) (fun _ _ _ _ _ _ _ holds => holds) ?_
    (fun index p found => initial p (List.mem_of_getElem? found)) reachable index p found
  intro w index p n _ turn _
  have possible := turn.possible
  simp only [World.possible, World.natural, Reply.failed, Bool.and_false, Bool.or_false, Bool.and_eq_true,
    decide_eq_true_eq] at possible
  exact possible.1

/-- A program that signals only with `kill(getpid(), SIGINT)`. -/
theorem signalsStayInside_of_self (self : ∀ l pid, prog.request l ≠ some (.kill pid))
    (positive : ∀ p ∈ w.procs, 0 < p.id) : SignalsStayInside prog w := by
  intro index p call target found running asked sends
  cases call with
  | killSelf =>
      obtain rfl := Option.some.inj sends
      exact ⟨positive p (List.mem_of_getElem? found), .inl rfl⟩
  | kill pid => exact absurd asked (self p.locals pid)
  | _ => contradiction

/-- A program that forks once and then signals its child through its `pid` variable,
in the parent only. -/
theorem signalsStayInside_of_pair (Before : L → Prop) {pidOf : L → Int}
    (kills : ∀ l pid, prog.request l = some (.kill pid) → pid = pidOf l)
    (shape : (∃ p, w.procs = [p] ∧ ∀ pid, prog.request p.locals ≠ some (.kill pid)) ∨
      ∃ p c, IsPair Before pidOf w p c ∧ ∀ pid, prog.request c.locals ≠ some (.kill pid))
    (positive : ∀ p ∈ w.procs, 0 < p.id) : SignalsStayInside prog w := by
  intro index q call target found running asked sends
  cases call with
  | killSelf =>
      obtain rfl := Option.some.inj sends
      exact ⟨positive q (List.mem_of_getElem? found), .inl rfl⟩
  | kill pid =>
      obtain rfl := Option.some.inj sends
      rcases shape with ⟨p, procs, quiet⟩ | ⟨p, c, pair, quiet⟩
      · obtain rfl : q = p := by simpa [procs] using List.mem_of_getElem? found
        exact absurd asked (quiet pid)
      · rw [pair.procs] at found
        match index with
        | 0 =>
            obtain rfl : p = q := Option.some.inj found
            have same : pid = c.id := (kills _ _ asked).trans pair.parentPid
            exact ⟨same ▸ pair.positive, .inr ⟨rfl, c, pair.procs, same⟩⟩
        | 1 =>
            obtain rfl : c = q := Option.some.inj found
            exact absurd asked (quiet pid)
        | index + 2 => simp at found
  | _ => contradiction

end Oreo.Posix
