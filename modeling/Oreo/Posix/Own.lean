import Oreo.Posix.Rules

namespace Oreo.Posix

open Oreo.Transition

/-! # What one process does in a run -/

variable {L : Type} {prog : Program L} {allowed : World L → Label → Prop}
variable {start w : World L} {trace : List (World L × Label)} {index : Nat}

/-- The steps of process `index`: where it was, and the reply it got. -/
def ownSteps (index : Nat) (trace : List (World L × Label)) : List (L × Reply) :=
  trace.filterMap fun taken =>
    if taken.2.proc = index then (taken.1.procs[index]?).map fun p => (p.locals, taken.2.reply) else none

theorem ownSteps_append (index : Nat) (front back : List (World L × Label)) :
    ownSteps index (front ++ back) = ownSteps index front ++ ownSteps index back := List.filterMap_append

/-- An invariant of a process that is there from the start, and of the run so far. It may not look at
the status, which others can change. -/
theorem process_invariant {P : List (World L × Label) → Proc L → Prop} {first : Proc L}
    (statusFree : ∀ trace p status, P trace p → P trace { p with status })
    (others : ∀ trace taken p, taken.2.proc ≠ index → P trace p → P (trace ++ [taken]) p)
    (own : ∀ trace w p call r, allowed w ⟨index, r⟩ → Turn prog w index p call r → P trace p →
      P (trace ++ [(w, ⟨index, r⟩)]) (p.advance prog call r))
    (found : start.procs[index]? = some first) (initial : P [] first) (run : Run (step prog) allowed start trace w) :
    ∃ p, w.procs[index]? = some p ∧ P trace p := by
  apply run.trace_invariant (fun trace w => ∃ p, w.procs[index]? = some p ∧ P trace p) ⟨first, found, initial⟩
  intro trace w label next _ before permitted stepped
  obtain ⟨p, at_, holds⟩ := before
  obtain ⟨actor, reply⟩ := label
  obtain ⟨q, call, turn, rfl⟩ := step_eq_some.mp stepped
  have inside : index < (w.answer prog actor q call reply).procs.length := by
    have bound := (List.getElem?_eq_some_iff.mp at_).1
    simp only [World.answer, World.signalled, List.length_append, List.length_modify, List.length_mapIdx]
    omega
  have next := List.getElem?_eq_getElem inside
  refine ⟨_, next, ?_⟩
  rcases answer_procs_cases turn next with ⟨other, p', same, after⟩ | ⟨rfl, after⟩ | ⟨last, -⟩
  · obtain rfl := Option.some.inj (same.symm.trans at_)
    rw [after]
    exact statusFree _ _ _ (others trace _ p' (Ne.symm other) holds)
  · obtain rfl := Option.some.inj (turn.at_.symm.trans at_)
    rw [after]
    exact statusFree _ _ _ (own trace w q call reply permitted turn holds)
  · have bound := (List.getElem?_eq_some_iff.mp at_).1
    omega

/-- An invariant of a process and of its own steps. -/
theorem own_invariant {P : List (L × Reply) → Proc L → Prop} {first : Proc L}
    (statusFree : ∀ steps p status, P steps p → P steps { p with status })
    (advance : ∀ w p call r steps, allowed w ⟨index, r⟩ → Turn prog w index p call r → P steps p →
      P (steps ++ [(p.locals, r)]) (p.advance prog call r))
    (found : start.procs[index]? = some first) (initial : P [] first) (run : Run (step prog) allowed start trace w) :
    ∃ p, w.procs[index]? = some p ∧ P (ownSteps index trace) p := by
  refine process_invariant (P := fun trace p => P (ownSteps index trace) p) (fun _ => statusFree _) ?_ ?_ found initial run
  · intro trace taken p other holds
    have silent : ownSteps index [taken] = [] := by simp [ownSteps, other]
    rwa [ownSteps_append, silent, List.append_nil]
  · intro trace w p call r permitted turn holds
    have taken : ownSteps index [(w, (⟨index, r⟩ : Label))] = [(p.locals, r)] := by simp [ownSteps, turn.at_]
    rw [ownSteps_append, taken]
    exact advance w p call r _ permitted turn holds

/-! ## The descriptors of a process -/

def Call.opened : Call → Reply → List Handle
  | .pipe id, .ok => [.readEnd id, .writeEnd id]
  | .socket _, r | .accept _, r => r.fd.toList
  | _, _ => []

/-- The descriptor that is gone after a call, whatever the reply. -/
def Call.closed : Call → List Handle
  | .close fd => fd.toList
  | _ => []

def Call.opensSocket : Call → Bool
  | .socket _ | .accept _ => true
  | _ => false

def opens (prog : Program L) (steps : List (L × Reply)) : List Handle :=
  steps.flatMap fun taken =>
    match prog.request taken.1 with
    | some call => call.opened taken.2
    | none => []

def closes (prog : Program L) (steps : List (L × Reply)) : List Handle :=
  steps.flatMap fun taken =>
    match prog.request taken.1 with
    | some call => call.closed
    | none => []

/-- What the process has opened it has closed exactly once. -/
def ClosesOnce (prog : Program L) (steps : List (L × Reply)) : Prop :=
  ∀ h ∈ opens prog steps, (closes prog steps).count h = 1

/-- No call of `socket` or `accept` has given the process a descriptor. -/
def GetsNoSocket (prog : Program L) (steps : List (L × Reply)) : Prop :=
  ∀ taken ∈ steps, ∀ call, prog.request taken.1 = some call → call.opensSocket = true → taken.2.failed = true

instance (steps : List (L × Reply)) : Decidable (GetsNoSocket prog steps) :=
  decidable_of_iff
    (∀ taken ∈ steps, (prog.request taken.1).all (fun call => !call.opensSocket || taken.2.failed) = true) <|
    forall₂_congr fun taken _ => by
      cases prog.request taken.1 with
      | none => simp
      | some call => cases asks : call.opensSocket <;> simp [asks]

theorem opens_snoc {steps : List (L × Reply)} {l : L} {call : Call} (asked : prog.request l = some call) (r : Reply) :
    opens prog (steps ++ [(l, r)]) = opens prog steps ++ call.opened r := by
  simp [opens, asked]

theorem closes_snoc {steps : List (L × Reply)} {l : L} {call : Call} (asked : prog.request l = some call) (r : Reply) :
    closes prog (steps ++ [(l, r)]) = closes prog steps ++ call.closed := by
  simp [closes, asked]

theorem socket_of_possible {w : World L} {p : Proc L} {call : Call} {r : Reply} (possible : w.possible prog p call r = true)
    (opensSocket : call.opensSocket = true) : r.failed = true ∨ ∃ role, r = .handle (.socket role) := by
  cases call <;> simp only [Call.opensSocket, Bool.false_eq_true] at opensSocket <;>
    simp only [World.possible, Bool.or_eq_true, Bool.and_eq_true] at possible
  all_goals
    rcases possible with natural | ⟨-, failed⟩
    case inr => exact .inl failed
  case socket.inl role => exact .inr ⟨role, by simpa [World.natural] using natural⟩
  case accept.inl fd =>
    simp only [World.natural] at natural
    split at natural
    · rw [Bool.and_eq_true, beq_iff_eq] at natural
      exact .inr ⟨.accepted, natural.1⟩
    · exact .inl natural

theorem opened_cases {call : Call} {r : Reply} {h : Handle} (member : h ∈ call.opened r) :
    (∃ id, call = .pipe id ∧ r = .ok) ∨ call.opensSocket = true ∧ r = .handle h := by
  unfold Call.opened at member
  split at member
  · rename_i id
    exact .inl ⟨id, rfl, rfl⟩
  · cases r <;> simp [Reply.fd] at member
    exact .inr ⟨rfl, by rw [member]⟩
  · cases r <;> simp [Reply.fd] at member
    exact .inr ⟨rfl, by rw [member]⟩
  · contradiction

end Oreo.Posix
