namespace Oreo.Transition

/-! # Programs that change a state and can fail

A failure keeps the state it happens in.
-/

variable {ε σ α β : Type}

abbrev Effect (ε σ α : Type) := ExceptT ε (StateM σ) α

/-- The value a program returns, or its failure, and the state it leaves. -/
def Effect.result (p : Effect ε σ α) (s : σ) : Except ε α × σ := p.run.run s

namespace Effect

variable {p : Effect ε σ α} {f g : α → Effect ε σ β} {s : σ}

@[simp] theorem result_pure (a : α) : result (pure a : Effect ε σ α) s = (.ok a, s) := rfl

@[simp] theorem result_throw (e : ε) : result (throw e : Effect ε σ α) s = (.error e, s) := rfl

@[simp] theorem result_get : result (get : Effect ε σ σ) s = (.ok s, s) := rfl

@[simp] theorem result_modify (change : σ → σ) : result (modify change : Effect ε σ PUnit) s = (.ok ⟨⟩, change s) := rfl

@[simp] theorem result_ite (c : Prop) [Decidable c] (p q : Effect ε σ α) :
    result (if c then p else q) s = if c then result p s else result q s := by
  split <;> rfl

theorem result_bind :
    result (p >>= f) s =
      match result p s with
      | (.ok a, s') => result (f a) s'
      | (.error e, s') => (.error e, s') := by
  change (p.run.run s >>= fun r => (ExceptT.bindCont f r.1).run r.2) = _
  unfold result
  rcases p.run.run s with ⟨_ | _, _⟩ <;> rfl

theorem result_bind_ok {a : α} {s' : σ} (returns : result p s = (.ok a, s')) : result (p >>= f) s = result (f a) s' := by
  rw [result_bind, returns]

theorem result_bind_error {e : ε} {s' : σ} (fails : result p s = (.error e, s')) :
    result (p >>= f) s = (.error e, s') := by
  rw [result_bind, fails]

theorem result_bind_eq_ok {b : β} {s'' : σ} : result (p >>= f) s = (.ok b, s'') ↔
    ∃ a s', result p s = (.ok a, s') ∧ result (f a) s' = (.ok b, s'') := by
  rw [result_bind]
  rcases result p s with ⟨_ | a, s'⟩
  · simp
  · simp [and_assoc]

/-- What comes after a program and only returns leaves its state. -/
theorem state_bind_pure (b : α → β) : (result (p >>= fun a => pure (b a)) s).2 = (result p s).2 := by
  rw [result_bind]
  rcases result p s with ⟨_ | _, _⟩ <;> rfl

@[simp] theorem result_map (b : α → β) : result (b <$> p) s = ((result p s).1.map b, (result p s).2) := by
  change result (p >>= fun a => pure (b a)) s = _
  rw [result_bind]
  rcases result p s with ⟨_ | _, _⟩ <;> rfl

theorem result_discard : result (discard p) s = ((result p s).1.map fun _ => (), (result p s).2) := by
  change result (p >>= fun _ => pure ()) s = _
  rw [result_bind]
  rcases result p s with ⟨_ | _, _⟩ <;> rfl

end Effect

end Oreo.Transition
