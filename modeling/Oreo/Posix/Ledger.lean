import Oreo.Posix.Rules
import Mathlib.Algebra.Ring.Nat

namespace Oreo.Posix

open Oreo.Transition

variable {L : Type*} {prog : Program L} {allowed : World L → Label → Prop}
variable {w w' start : World L} {p : Proc L} {label : Label} {call : Call} {r : Reply} {index : Nat}

def World.total (w : World L) (count : Tally → Nat) : Nat :=
  (w.procs.map fun p => count p.tally).sum

theorem sum_modify {f : Proc L → Proc L} {g : Proc L → Nat} {procs : List (Proc L)} {index : Nat} {p : Proc L}
    (found : procs[index]? = some p) :
    ((procs.modify index f).map g).sum + g p = (procs.map g).sum + g (f p) := by
  induction procs generalizing index with
  | nil => simp at found
  | cons q procs ih =>
      cases index with
      | zero =>
          obtain rfl : q = p := by simpa using found
          simp only [List.modify_zero_cons, List.map_cons, List.sum_cons]
          omega
      | succ index =>
          have rest := ih (show procs[index]? = some p by simpa using found)
          simp only [List.modify_succ_cons, List.map_cons, List.sum_cons]
          omega

/-- A step changes a total by what the process whose turn it is adds to its own count. -/
theorem total_answer (turn : Turn prog w index p call r) (count : Tally → Nat) (zero : count .zero = 0) :
    (w.answer prog index p call r).total count + count p.tally =
      w.total count + count (p.tally.charge call r) := by
  have totals : ((w.signalled prog index call r).map fun p => count p.tally) =
      w.procs.map fun p => count p.tally := by
    apply List.ext_getElem <;> simp [World.signalled]
  have newborn : ((p.offspring prog call r).map fun p => count p.tally).sum = 0 := by
    apply List.sum_eq_zero
    simp only [List.mem_map, forall_exists_index, and_imp]
    intro _ q born plain
    subst plain
    rw [offspring_tally born, zero]
  obtain ⟨status, found⟩ : ∃ status, (w.signalled prog index call r)[index]? = some { p with status } :=
    ⟨_, by simp [World.signalled, turn.at_]; rfl⟩
  have changed := sum_modify (f := fun q => q.advance prog call r) (g := fun p => count p.tally) found
  unfold World.total
  rw [← totals]
  simp only [World.answer, List.map_append, List.sum_append, newborn, Nat.add_zero]
  exact changed

/-- Nothing is lost and nothing appears: what is in a pipe, in the connection and in
the backlog is what was put in and not yet taken out. -/
structure Balanced (w : World L) : Prop where
  pipe : ∀ id, w.pipe id + w.total (fun t => t.took id) = w.total fun t => t.wrote id
  queue : w.queue + w.total Tally.received = w.total Tally.sent
  backlog : w.backlog + w.total Tally.accepts = w.total Tally.connects
  listening : w.listening = true ↔ 0 < w.total Tally.listens

section Account

variable (possible : w.possible prog p call r = true)
include possible

theorem account_pipe (id : Nat) : (w.account call r).pipe id + (p.tally.charge call r).took id + p.tally.wrote id =
    w.pipe id + p.tally.took id + (p.tally.charge call r).wrote id := by
  unfold World.account Tally.charge
  split
  · rename_i pipe n
    have available : n ≤ w.pipe pipe := by
      simp only [World.possible, World.natural, Reply.failed, Bool.and_false, Bool.or_false,
        Bool.and_eq_true] at possible
      obtain ⟨-, answered⟩ := possible
      split at answered
      · have : n = 1 := by simpa using answered
        omega
      · simp only [Bool.and_eq_true, beq_iff_eq] at answered
        omega
    by_cases same : id = pipe
    · subst same
      simp [drain, bump]
      omega
    · simp [drain, bump, same]
  · rename_i pipe n
    by_cases same : id = pipe
    · simp [bump, same]
      omega
    · simp [bump, same]
  all_goals (split <;> simp_all)

theorem account_queue : (w.account call r).queue + (p.tally.charge call r).received + p.tally.sent =
    w.queue + p.tally.received + (p.tally.charge call r).sent := by
  unfold World.account Tally.charge
  split
  case h_7 fd size n =>
    have available : n ≤ w.queue := by
      cases fd with
      | none => simp [World.possible, World.natural, Reply.failed] at possible
      | some h =>
          simp only [World.possible, World.natural, Reply.failed, Bool.and_false, Bool.or_false] at possible
          split at possible
          · have : n = min size w.queue := by simpa using possible
            omega
          · simp only [Bool.and_eq_true, beq_iff_eq] at possible
            omega
    simp
    omega
  all_goals (first | (simp; omega) | (split <;> simp_all))

theorem account_backlog : (w.account call r).backlog + (p.tally.charge call r).accepts + p.tally.connects =
    w.backlog + p.tally.accepts + (p.tally.charge call r).connects := by
  unfold World.account Tally.charge
  split
  case h_4 fd h =>
    have available : 0 < w.backlog := by
      cases fd <;> simp_all [World.possible, World.natural, Reply.failed]
    simp
    omega
  all_goals (first | (simp; omega) | (split <;> simp_all))

end Account

theorem account_listening (w : World L) (t : Tally) (call : Call) (r : Reply) : (w.account call r).listening = true ↔
    w.listening = true ∨ t.listens < (t.charge call r).listens := by
  unfold World.account Tally.charge
  split <;> simp

/-- Every step keeps the books, whatever fails. -/
theorem Balanced.answer (balanced : Balanced w) (turn : Turn prog w index p call r) :
    Balanced (w.answer prog index p call r) where
  pipe id := by
    have books := balanced.pipe id
    have account := account_pipe turn.possible id
    have taken := total_answer turn (fun t => t.took id) rfl
    have written := total_answer turn (fun t => t.wrote id) rfl
    have shared : (w.answer prog index p call r).pipe = (w.account call r).pipe := rfl
    rw [shared]
    omega
  queue := by
    have books := balanced.queue
    have account := account_queue turn.possible
    have taken := total_answer turn Tally.received rfl
    have written := total_answer turn Tally.sent rfl
    have shared : (w.answer prog index p call r).queue = (w.account call r).queue := rfl
    rw [shared]
    omega
  backlog := by
    have books := balanced.backlog
    have account := account_backlog turn.possible
    have taken := total_answer turn Tally.accepts rfl
    have written := total_answer turn Tally.connects rfl
    have shared : (w.answer prog index p call r).backlog = (w.account call r).backlog := rfl
    rw [shared]
    omega
  listening := by
    have books := balanced.listening
    have account := account_listening w p.tally call r
    have listened := total_answer turn Tally.listens rfl
    have grows : p.tally.listens ≤ (p.tally.charge call r).listens := by
      unfold Tally.charge
      split <;> simp
    have shared : (w.answer prog index p call r).listening = (w.account call r).listening := rfl
    rw [shared, account, books]
    omega

theorem balanced_boot (machine : Machine) (locals : L) : Balanced (World.boot machine locals) := by
  constructor <;> simp [World.boot, World.total, Tally.zero]

theorem balanced_of_reachable (initial : Balanced start) (reachable : Reachable (step prog) allowed start w) :
    Balanced w := by
  apply reachable.invariant _ initial
  intro w label next _ balanced _ stepped
  obtain ⟨index, reply⟩ := label
  obtain ⟨p, call, turn, rfl⟩ := step_eq_some.mp stepped
  exact balanced.answer turn

end Oreo.Posix
