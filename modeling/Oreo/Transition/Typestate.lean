import Oreo.Transition.Interaction

namespace Oreo.Transition

/-! # Programs that keep to a protocol

A protocol says which calls a state of it allows, and for each what the reply and the state after
it can be. A program that follows the protocol makes only calls that are allowed, whatever the
replies are.
-/

/-- `protocol l c after`: in `l` the call `c` is allowed, and `after` holds of its reply and the
next state. -/
abbrev Protocol (L C R : Type) := L → C → (R → L → Prop) → Prop

namespace Interaction

variable {L C R α β : Type} {protocol : Protocol L C R}

/-- The program follows the protocol, and when it returns, `post` holds of the value and the state. -/
def Follows (protocol : Protocol L C R) : Interaction C R α → (α → L → Prop) → L → Prop
  | .ret a, post, l => post a l
  | .call c k, post, l => ∃ after, protocol l c after ∧ ∀ r l', after r l' → (k r).Follows protocol post l'

variable {p : Interaction C R α} {f : α → Interaction C R β} {mid post : α → L → Prop} {last : β → L → Prop} {l : L}

theorem Follows.pure {a : α} (holds : post a l) : Follows protocol (pure a : Interaction C R α) post l := holds

theorem Follows.call {c : C} {k : R → Interaction C R α} {after : R → L → Prop} (allowed : protocol l c after)
    (rest : ∀ r l', after r l' → Follows protocol (k r) post l') : Follows protocol (.call c k) post l :=
  ⟨after, allowed, rest⟩

theorem Follows.bind (first : Follows protocol p mid l) (second : ∀ a l', mid a l' → Follows protocol (f a) last l') :
    Follows protocol (p >>= f) last l := by
  induction p generalizing l with
  | ret a => exact second a l first
  | call c k ih =>
      obtain ⟨after, allowed, rest⟩ := first
      exact .call allowed fun r l' seen => ih r (rest r l' seen)

/-- A program stays where it is if each of its calls does. -/
theorem Follows.of_calls {P : C → Prop} (stays : ∀ c, P c → protocol l c fun _ l' => l' = l) (calls : Calls P p) :
    Follows protocol p (fun _ l' => l' = l) l := by
  induction p with
  | ret a => exact .pure rfl
  | call c k ih =>
      refine .call (stays c calls.1) ?_
      rintro r _ rfl
      exact ih r (calls.2 r)

end Interaction

end Oreo.Transition
