import Oreo.Posix.Blocking

namespace Oreo.Posix

open Oreo.Transition

/-! # Forked processes as long as they run -/

variable {L : Type*} {prog : Program L} {allowed : World L → Label → Prop} {w start : World L} {q : Proc L}
variable {call : Call} {r : Reply}

theorem running_of_fate {actor index : Nat} (alive : w.fate prog actor index q call r = .running) :
    q.status = .running := by
  unfold World.fate Status.kill at alive
  grind

/-- `Q` holds of the processes that `fork` has made, as long as they run. -/
def OfChildren (Q : L → Prop) (w : World L) : Prop :=
  ∀ index p, 0 < index → w.procs[index]? = some p → p.status = .running → Q p.locals

theorem OfChildren.imp {Q Q' : L → Prop} (children : OfChildren Q w) (weaker : ∀ l, Q l → Q' l) : OfChildren Q' w := by
  intro index p positive found running
  exact weaker _ (children index p positive found running)

/-- It holds when a process is made, and the calls the process survives keep it. -/
theorem children_invariant {Q : L → Prop} {first : Proc L} (single : start.procs = [first])
    (born : ∀ l, prog.request l = some .fork → Q (prog.resume l (.pid 0)))
    (survives : ∀ w index p call r, allowed w ⟨index, r⟩ → Turn prog w index p call r →
      w.fate prog index index p call r = .running → Q p.locals → Q (prog.resume p.locals r))
    (reachable : Reachable (step prog) allowed start w) : OfChildren Q w := by
  apply reachable.invariant (OfChildren Q)
  · intro index p positive found
    rw [single, List.getElem?_eq_none (Nat.succ_le_of_lt positive)] at found
    contradiction
  · intro w label next _ holds permitted stepped index q' positive found alive
    obtain ⟨actor, reply⟩ := label
    obtain ⟨p, call, turn, rfl⟩ := step_eq_some.mp stepped
    rcases answer_procs_cases turn found with ⟨-, q, before, rfl⟩ | ⟨rfl, rfl⟩ | ⟨-, n, rfl, rfl, rfl⟩
    · exact holds index q positive before (running_of_fate alive)
    · exact survives w _ p call reply permitted turn alive (holds _ p positive turn.at_ turn.running)
    · exact born p.locals turn.request

/-- No process made by `fork` comes back from the function with `false`. -/
abbrev OnlyParentReports (returned : L → Option Bool) : World L → Prop :=
  OfChildren fun l => returned l ≠ some false

theorem not_onlyParentReports {returned : L → Option Bool} {c : Proc L} (labels : List Label)
    (followed : follow prog (fun _ _ _ _ _ => true) start labels = some w) (found : w.procs[1]? = some c)
    (running : c.status = .running) (success : returned c.locals = some false) :
    ¬ Always (step prog) (fun _ _ => True) (OnlyParentReports returned) start := by
  intro always
  have only := always w ((follow_reachable (.refl _) followed).mono fun _ _ _ => trivial)
  exact only 1 c Nat.one_pos found running success

theorem fate_killSelf {index : Nat} (fatal : w.sigintIgnored = false) :
    w.fate prog index index q .killSelf .ok ≠ .running := by
  cases status : q.status <;> simp [World.fate, fatal, Status.kill, status]

theorem fate_kill_group {index : Nat} (fatal : w.sigintIgnored = false) :
    w.fate prog index index q (.kill 0) .ok ≠ .running := by
  cases status : q.status <;> simp [World.fate, fatal, Status.kill, status]

end Oreo.Posix
