import Oreo.Posix.World
import Mathlib.Algebra.BigOperators.Group.List.Basic
import Mathlib.Tactic.TypeStar

namespace Oreo.Posix

open Oreo.Transition

variable {L : Type*} {prog : Program L} {allowed : World L → Label → Prop}
variable {w w' start : World L} {p q : Proc L} {label : Label} {call : Call} {r : Reply} {index : Nat}

/-- Process `p` at `index` is running and can receive the reply `r` to `call`. -/
structure Turn (prog : Program L) (w : World L) (index : Nat) (p : Proc L) (call : Call) (r : Reply) :
    Prop where
  at_ : w.procs[index]? = some p
  running : p.status = .running
  request : prog.request p.locals = some call
  possible : w.possible prog p call r = true

/-- The calls that only tell whether they succeeded. -/
def Call.isPlain : Call → Bool
  | .allocate | .pipe _ | .setPriority _ | .setAffinity _ | .killSelf | .kill _ | .wait => true
  | _ => false

theorem ok_of_plain (natural : w.natural prog p call r = true) (isPlain : call.isPlain = true) : r = .ok := by
  cases call <;> simp only [Call.isPlain, Bool.false_eq_true] at isPlain <;>
    simp only [World.natural, Bool.and_eq_true, beq_iff_eq] at natural
  case wait => exact natural.1
  all_goals exact natural

theorem ok_of_possible (possible : w.possible prog p call r = true) (isPlain : call.isPlain = true)
    (succeeded : r.failed = false) : r = .ok := by
  simp only [World.possible, succeeded, Bool.and_false, Bool.or_false] at possible
  exact ok_of_plain possible isPlain

theorem handle_of_socket {role : Role} (natural : w.natural prog p (.socket role) r = true) :
    r = .handle (.socket role) := by
  simpa only [World.natural, beq_iff_eq] using natural

theorem step_eq_some : step prog w label = some w' ↔
    ∃ p call, Turn prog w label.proc p call label.reply ∧
      w' = w.answer prog label.proc p call label.reply := by
  constructor
  · intro stepped
    unfold step at stepped
    split at stepped
    · contradiction
    · rename_i p found
      split at stepped
      · rename_i running
        split at stepped
        · contradiction
        · rename_i call request
          split at stepped
          · exact ⟨p, call, ⟨found, running, request, ‹_›⟩, (Option.some.inj stepped).symm⟩
          · contradiction
      · contradiction
  · intro taken
    obtain ⟨p, call, turn, rfl⟩ := taken
    simp only [step, turn.at_, turn.running, turn.request, turn.possible, if_true]

theorem step_of_turn (turn : Turn prog w index p call r) :
    step prog w ⟨index, r⟩ = some (w.answer prog index p call r) :=
  step_eq_some.mpr ⟨p, call, turn, rfl⟩

theorem answer_procs_cases (turn : Turn prog w index p call r) {other : Nat} {q' : Proc L}
    (found : (w.answer prog index p call r).procs[other]? = some q') :
    (other ≠ index ∧ ∃ q, w.procs[other]? = some q ∧
      q' = { q with status := w.fate prog index other q call r }) ∨
    (other = index ∧ q' = { p.advance prog call r with status := w.fate prog index index p call r }) ∨
    (other = w.procs.length ∧ ∃ n, call = .fork ∧ r = .pid n ∧ q' = p.spawn prog n) := by
  simp only [World.answer, World.signalled, List.getElem?_append, List.length_modify, List.length_mapIdx,
    List.getElem?_modify, List.getElem?_mapIdx] at found
  split at found
  · rename_i inside
    have before : w.procs[other]? = some w.procs[other] := List.getElem?_eq_getElem inside
    by_cases here : index = other
    · subst here
      have own : w.procs[index] = p := Option.some.inj (before.symm.trans turn.at_)
      simp only [before, own, Option.map_some, if_true, Option.map_eq_map, Option.some.injEq] at found
      exact .inr (.inl ⟨rfl, found.symm⟩)
    · simp only [before, Option.map_some, if_neg here, Option.map_eq_map, Option.some.injEq] at found
      exact .inl ⟨Ne.symm here, _, before, found.symm⟩
  · rename_i outside
    unfold Proc.offspring at found
    split at found
    · rename_i n
      have last : other - w.procs.length = 0 := by
        by_contra later
        rw [List.getElem?_eq_none (by simp; omega)] at found
        contradiction
      rw [last] at found
      exact .inr (.inr ⟨by omega, n, rfl, rfl, (Option.some.inj found).symm⟩)
    · simp at found

theorem offspring_tally (born : q ∈ p.offspring prog call r) : q.tally = .zero := by
  unfold Proc.offspring at born
  split at born
  · obtain rfl := List.mem_singleton.mp born
    rfl
  · simp at born

theorem fate_of_silent {actor other : Nat} (silent : call.signals = false) :
    w.fate prog actor other q call r = q.status := by
  cases call <;> first | rfl | contradiction

theorem finished_fate {actor other : Nat} (finished : q.finished prog = true) :
    Proc.finished prog { q with status := w.fate prog actor other q call r } = true := by
  simp only [Proc.finished, Bool.or_eq_true, bne_iff_ne] at finished ⊢
  rcases finished with ended | returned
  · left
    unfold World.fate Status.kill
    grind
  · exact .inr returned

theorem zombie_found {index : Nat} (zombie : w.zombie? prog = some index) :
    0 < index ∧ ∃ q, w.procs[index]? = some q ∧ q.finished prog = true := by
  have holds := List.find?_some zombie
  grind

@[simp] theorem account_sigintIgnored (w : World L) (call : Call) (r : Reply) :
    (w.account call r).sigintIgnored = w.sigintIgnored := by
  unfold World.account
  split <;> rfl

theorem sigintIgnored_of_reachable (reachable : Reachable (step prog) allowed start w) :
    w.sigintIgnored = start.sigintIgnored := by
  apply reachable.invariant (fun w => w.sigintIgnored = start.sigintIgnored) rfl
  intro w label next _ same _ stepped
  obtain ⟨p, call, turn, rfl⟩ := step_eq_some.mp stepped
  exact (account_sigintIgnored w call label.reply).trans same

/-- An invariant of single processes that does not look at the status: it must hold
of the processes at the start, survive a reply, and hold of a forked child. -/
theorem procs_invariant {P : Nat → Proc L → Prop}
    (statusFree : ∀ index p status, P index p → P index { p with status })
    (advance : ∀ w index p call r, allowed w ⟨index, r⟩ → Turn prog w index p call r →
      P index p → P index (p.advance prog call r))
    (spawn : ∀ w index p n, allowed w ⟨index, .pid n⟩ → Turn prog w index p .fork (.pid n) →
      P index p → P w.procs.length (p.spawn prog n))
    (initial : ∀ index p, start.procs[index]? = some p → P index p)
    (reachable : Reachable (step prog) allowed start w) :
    ∀ index p, w.procs[index]? = some p → P index p := by
  apply reachable.invariant (fun w => ∀ index p, w.procs[index]? = some p → P index p) initial
  intro w label next _ holds permitted stepped other q' found
  obtain ⟨turnIndex, reply⟩ := label
  obtain ⟨p, call, turn, rfl⟩ := step_eq_some.mp stepped
  rcases answer_procs_cases turn found with ⟨-, q, before, rfl⟩ | ⟨rfl, rfl⟩ | ⟨rfl, n, rfl, rfl, rfl⟩
  · exact statusFree _ _ _ (holds _ _ before)
  · exact statusFree _ _ _ (advance _ _ _ _ _ permitted turn (holds _ _ turn.at_))
  · exact spawn _ _ _ _ permitted turn (holds _ _ turn.at_)

end Oreo.Posix
