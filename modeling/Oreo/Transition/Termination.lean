import Mathlib.Logic.Hydra
import Mathlib.Data.List.Perm.Basic
import Mathlib.Tactic.Abel
import Oreo.Transition.Interaction
import Oreo.Transition.Run

namespace Oreo.Transition

open Relation

/-! # Systems that come to an end whatever they do

Programs that run side by side and copy themselves come to an end because a step replaces a
program by smaller ones.
-/

variable {S : Type u} {Label : Type v} {step : S → Label → Option S}

/-- Every run from the state comes to one with `P`, and none stops before. -/
inductive Inevitable (step : S → Label → Option S) (P : S → Prop) : S → Prop where
  | now {s} : P s → Inevitable step P s
  | later {s} : (∃ label next, step s label = some next) →
      (∀ label next, step s label = some next → Inevitable step P next) → Inevitable step P s

theorem Inevitable.of_progress {P Inv : S → Prop} {s : S}
    (ends : Acc (fun next s => ∃ label, step s label = some next) s) (inv : Inv s)
    (preserved : ∀ s label next, Inv s → step s label = some next → Inv next)
    (progress : ∀ s, Inv s → (∃ label next, step s label = some next) ∨ P s) : Inevitable step P s := by
  induction ends with
  | intro s _ ih =>
      rcases progress s inv with moves | holds
      · exact .later moves fun label next taken => ih next ⟨label, taken⟩ (preserved s label next inv taken)
      · exact .now holds

/-- A step that replaces an element of a list by a smaller one, and adds more that are smaller. -/
theorem cutExpand_set {α : Type u} {r : α → α → Prop} {l added : List α} {index : Nat} {a b : α} (found : l[index]? = some a)
    (smaller : r b a) (others : ∀ x ∈ added, r x a) : CutExpand r (l.set index b ++ added : List α) (l : List α) := by
  refine ⟨(b :: added : List α), a, ?_, ?_⟩
  · intro x member
    rcases List.mem_cons.mp (Multiset.mem_coe.mp member) with rfl | member
    · exact smaller
    · exact others x member
  · obtain ⟨inside, rfl⟩ := List.getElem?_eq_some_iff.mp found
    have before := Multiset.coe_eq_coe.mpr (List.getElem_cons_eraseIdx_perm inside)
    have after := Multiset.coe_eq_coe.mpr (List.set_perm_cons_eraseIdx inside b)
    rw [← Multiset.coe_add, after, ← before]
    simp only [← Multiset.cons_coe, ← Multiset.singleton_add]
    abel

namespace Interaction

variable {C R α : Type}

/-- `q` is what `p` goes on with after a call. -/
inductive Rest : Interaction C R α → Interaction C R α → Prop where
  | reply (c : C) (k : R → Interaction C R α) (r : R) : Rest (k r) (.call c k)

theorem wellFounded_rest : WellFounded (@Rest C R α) := by
  refine ⟨fun p => ?_⟩
  induction p with
  | ret a => exact ⟨_, fun q rest => by cases rest⟩
  | call c k ih =>
      refine ⟨_, fun q rest => ?_⟩
      cases rest with
      | reply _ _ r => exact ih r

end Interaction

end Oreo.Transition
