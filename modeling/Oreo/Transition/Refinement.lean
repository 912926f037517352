import Oreo.Transition.Triples

namespace Oreo.Transition.Effect

/-! # Programs on a part of the state

`Refines view p q`: what `p` does to a state is what `q` does to what `view` shows of it. Both return
the same, or fail alike.
-/

variable {ε σ τ α β : Type} {view : σ → τ}

/-- The two agree on one state. -/
def RefinesAt (view : σ → τ) (s : σ) (p : Effect ε σ α) (q : Effect ε τ α) : Prop :=
  q.result (view s) = ((p.result s).1, view (p.result s).2)

def Refines (view : σ → τ) (p : Effect ε σ α) (q : Effect ε τ α) : Prop := ∀ s, RefinesAt view s p q

variable {s : σ} {p : Effect ε σ α} {q : Effect ε τ α} {f : α → Effect ε σ β} {g : α → Effect ε τ β}

theorem Refines.pure (a : α) : Refines view (pure a : Effect ε σ α) (pure a) := fun _ => rfl

theorem RefinesAt.bind (first : RefinesAt view s p q) (second : ∀ a, Refines view (f a) (g a)) :
    RefinesAt view s (p >>= f) (q >>= g) := by
  unfold RefinesAt
  rw [result_bind, result_bind, first]
  rcases ended : p.result s with ⟨e | a, s'⟩
  · rfl
  · exact second a s'

theorem Refines.bind (first : Refines view p q) (second : ∀ a, Refines view (f a) (g a)) :
    Refines view (p >>= f) (q >>= g) :=
  fun s => (first s).bind second

theorem Refines.forM {ι : Type} {body : ι → Effect ε σ PUnit} {other : ι → Effect ε τ PUnit} {items : List ι}
    (each : ∀ item ∈ items, Refines view (body item) (other item)) : Refines view (items.forM body) (items.forM other) := by
  induction items with
  | nil => exact .pure _
  | cons item items ih =>
      obtain ⟨first, rest⟩ := List.forall_mem_cons.mp each
      exact Refines.bind first fun _ => ih rest

end Oreo.Transition.Effect
