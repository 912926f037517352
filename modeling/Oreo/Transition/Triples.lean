import Oreo.Transition.Effects

namespace Oreo.Transition.Effect

/-! # Rules for programs that change a state and can fail

`Ensures` is total correctness: from a state with the precondition the program returns,
and does not fail. `Keeps` is the frame: however the program ends, what `view` shows of
the state is the same.
-/

variable {ε σ α β γ : Type}

def Ensures (P : σ → Prop) (p : Effect ε σ α) (Q : α → σ → Prop) : Prop :=
  ∀ s, P s → ∃ a s', p.result s = (.ok a, s') ∧ Q a s'

def Keeps (view : σ → γ) (p : Effect ε σ α) : Prop := ∀ s, view (p.result s).2 = view s

/-- A loop that counts up from an index and that its body may leave: whether it came to its
end, and the variables then. -/
def loop (body : Nat → β → Effect ε σ (Bool × β)) : Nat → Nat → β → Effect ε σ (Bool × β)
  | 0, _, b => pure (true, b)
  | remaining + 1, idx, b => do
      let (goesOn, b) ← body idx b
      if goesOn then loop body remaining (idx + 1) b else pure (false, b)

section Iteration

variable {body : Nat → β → Effect ε σ (Bool × β)} {b b' : β} {s s' : σ} {idx : Nat}

theorem result_loop_next (remaining : Nat) (goesOn : result (body idx b) s = (.ok (true, b'), s')) :
    result (loop body (remaining + 1) idx b) s = result (loop body remaining (idx + 1) b') s' :=
  result_bind_ok goesOn

theorem result_loop_left (remaining : Nat) (left : result (body idx b) s = (.ok (false, b'), s')) :
    result (loop body (remaining + 1) idx b) s = (.ok (false, b'), s') :=
  result_bind_ok left

theorem result_loop_error {e : ε} (remaining : Nat) (fails : result (body idx b) s = (.error e, s')) :
    result (loop body (remaining + 1) idx b) s = (.error e, s') :=
  result_bind_error fails

end Iteration

variable {P P' : σ → Prop} {Q Q' : α → σ → Prop} {R : β → σ → Prop} {p : Effect ε σ α} {f : α → Effect ε σ β}

theorem Ensures.pure {a : α} (holds : ∀ s, P s → Q a s) : Ensures P (pure a : Effect ε σ α) Q :=
  fun s before => ⟨a, s, rfl, holds s before⟩

theorem Ensures.modify {change : σ → σ} {Q : PUnit → σ → Prop} (holds : ∀ s, P s → Q ⟨⟩ (change s)) :
    Ensures P (modify change : Effect ε σ PUnit) Q :=
  fun s before => ⟨⟨⟩, change s, rfl, holds s before⟩

theorem Ensures.bind (first : Ensures P p Q) (second : ∀ a, Ensures (Q a) (f a) R) : Ensures P (p >>= f) R := by
  intro s before
  obtain ⟨a, s', returned, between⟩ := first s before
  obtain ⟨b, s'', ended, after⟩ := second a s' between
  exact ⟨b, s'', (result_bind_ok returned).trans ended, after⟩

theorem Ensures.ite {c : Prop} [Decidable c] {q : Effect ε σ α} (yes : c → Ensures P p Q) (no : ¬ c → Ensures P q Q) :
    Ensures P (if c then p else q) Q := by
  split
  · exact yes ‹_›
  · exact no ‹_›

theorem Ensures.weaken (ensures : Ensures P p Q) (weaker : ∀ a s, Q a s → Q' a s) : Ensures P p Q' := by
  intro s before
  obtain ⟨a, s', returned, after⟩ := ensures s before
  exact ⟨a, s', returned, weaker a s' after⟩

theorem Ensures.strengthen (ensures : Ensures P p Q) (stronger : ∀ s, P' s → P s) : Ensures P' p Q :=
  fun s before => ensures s (stronger s before)

theorem Ensures.assume {c : Prop} (given : c → Ensures P p Q) : Ensures (fun s => c ∧ P s) p Q :=
  fun s before => given before.1 s before.2

/-- The rule of a loop: its invariant holds of the index and the variables, `left` where the body leaves it. -/
theorem Ensures.loop {body : Nat → β → Effect ε σ (Bool × β)} (I : Nat → β → σ → Prop) (left : β → σ → Prop) (limit : Nat)
    (step : ∀ idx b, idx < limit →
      Ensures (I idx b) (body idx b) fun r s => if r.1 then I (idx + 1) r.2 s else left r.2 s)
    (remaining idx : Nat) (b : β) (bound : idx + remaining = limit) :
    Ensures (I idx b) (loop body remaining idx b) fun r s => if r.1 then I limit r.2 s else left r.2 s := by
  induction remaining generalizing idx b with
  | zero =>
      obtain rfl : idx = limit := bound
      exact .pure fun s holds => by simpa using holds
  | succ remaining ih =>
      refine .bind (step idx b (by omega)) fun r => ?_
      obtain ⟨goesOn, b'⟩ := r
      cases goesOn with
      | true => exact (ih (idx + 1) b' (by omega)).strengthen fun s holds => by simpa using holds
      | false => exact .pure fun s holds => by simpa using holds

/-- A loop that is never left, with an invariant that does not look at the index. -/
theorem Ensures.loop_steady {body : Nat → β → Effect ε σ (Bool × β)} (I : β → σ → Prop)
    (step : ∀ idx b, Ensures (I b) (body idx b) fun r s => r.1 = true ∧ I r.2 s) (remaining idx : Nat) (b : β) :
    Ensures (I b) (Effect.loop body remaining idx b) fun r s => I r.2 s := by
  have ran := Ensures.loop (fun _ => I) (fun _ _ => False) (idx + remaining)
    (fun idx b _ => (step idx b).weaken fun r s after => by simpa [after.1] using after.2) remaining idx b rfl
  refine ran.weaken fun r s after => ?_
  split at after
  · exact after
  · exact after.elim

/-- A loop that may be left. What `J` says of the variables holds in either case, and `P` of the
state if the loop comes to its end. -/
theorem Ensures.loop_guarded {body : Nat → β → Effect ε σ (Bool × β)} (J : β → Prop)
    (step : ∀ idx b, J b → Ensures P (body idx b) fun r s => J r.2 ∧ (r.1 = true → P s)) (remaining idx : Nat) {b : β}
    (holds : J b) : Ensures P (Effect.loop body remaining idx b) fun r s => J r.2 ∧ (r.1 = true → P s) := by
  have ran := Ensures.loop (fun _ b s => J b ∧ P s) (fun b _ => J b) (idx + remaining)
    (fun idx b _ => .assume fun holds => (step idx b holds).weaken fun r s after => by
      split
      · exact ⟨after.1, after.2 ‹_›⟩
      · exact after.1) remaining idx b rfl
  refine (ran.strengthen fun s before => ⟨holds, before⟩).weaken fun r s after => ?_
  split at after
  · exact ⟨after.1, fun _ => after.2⟩
  · exact ⟨after, fun goesOn => absurd goesOn ‹_›⟩

variable {view : σ → γ}

theorem Keeps.pure {a : α} : Keeps view (pure a : Effect ε σ α) := fun _ => rfl

theorem Keeps.throw {e : ε} : Keeps view (throw e : Effect ε σ α) := fun _ => rfl

theorem Keeps.get : Keeps view (get : Effect ε σ σ) := fun _ => rfl

theorem Keeps.modify {change : σ → σ} (same : ∀ s, view (change s) = view s) :
    Keeps view (modify change : Effect ε σ PUnit) := same

theorem Keeps.bind (first : Keeps view p) (second : ∀ a, Keeps view (f a)) : Keeps view (p >>= f) := by
  intro s
  have before := first s
  rw [result_bind]
  generalize result p s = r at before ⊢
  obtain ⟨e | a, s'⟩ := r
  · exact before
  · exact (second a s').trans before

theorem Keeps.comp {δ : Type} (keeps : Keeps view p) (g : γ → δ) : Keeps (fun s => g (view s)) p :=
  fun s => congrArg g (keeps s)

theorem Keeps.ite {c : Prop} [Decidable c] {q : Effect ε σ α} (yes : Keeps view p) (no : Keeps view q) :
    Keeps view (if c then p else q) := by
  split
  · exact yes
  · exact no

theorem Keeps.loop {body : Nat → β → Effect ε σ (Bool × β)} (step : ∀ idx b, Keeps view (body idx b))
    (remaining idx : Nat) (b : β) : Keeps view (loop body remaining idx b) := by
  induction remaining generalizing idx b with
  | zero => exact .pure
  | succ remaining ih =>
      refine .bind (step idx b) fun r => ?_
      exact .ite (ih (idx + 1) r.2) .pure

end Oreo.Transition.Effect
