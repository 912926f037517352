namespace Oreo.Transition

/-! # Programs that make calls and go on with the replies

`Calls` says what a program does whatever the replies are; `exec` runs it in an environment that
answers its calls, and `Completes` says what it has then come to.
-/

inductive Interaction (C R α : Type) : Type where
  | ret (a : α)
  | call (c : C) (k : R → Interaction C R α)

namespace Interaction

variable {C R α β σ γ : Type}

def bind : Interaction C R α → (α → Interaction C R β) → Interaction C R β
  | .ret a, f => f a
  | .call c k, f => .call c fun r => (k r).bind f

instance : Monad (Interaction C R) where
  pure := .ret
  bind := bind

def perform (c : C) : Interaction C R R := .call c .ret

theorem bind_ret (p : Interaction C R α) : p.bind .ret = p := by
  induction p with
  | ret a => rfl
  | call c k ih => exact congrArg (call c) (funext ih)

theorem bind_bind (p : Interaction C R α) (f : α → Interaction C R β) (g : β → Interaction C R γ) :
    (p.bind f).bind g = p.bind fun a => (f a).bind g := by
  induction p with
  | ret a => rfl
  | call c k ih => exact congrArg (call c) (funext ih)

instance : LawfulMonad (Interaction C R) := .mk' _ bind_ret (fun _ _ => rfl) bind_bind

/-- The calls that the program can come to. -/
def Calls (P : C → Prop) : Interaction C R α → Prop
  | .ret _ => True
  | .call c k => P c ∧ ∀ r, (k r).Calls P

section Rules

variable {P : C → Prop} {p : Interaction C R α} {f : α → Interaction C R β}

theorem Calls.pure (a : α) : Calls P (pure a : Interaction C R α) := trivial

theorem Calls.perform {c : C} (permitted : P c) : Calls P (perform c : Interaction C R R) :=
  ⟨permitted, fun _ => trivial⟩

theorem Calls.mono {P' : C → Prop} (calls : Calls P p) (weaker : ∀ c, P c → P' c) : Calls P' p := by
  induction p with
  | ret a => trivial
  | call c k ih => exact ⟨weaker c calls.1, fun r => ih r (calls.2 r)⟩

theorem Calls.bind (first : Calls P p) (second : ∀ a, Calls P (f a)) : Calls P (p >>= f) := by
  induction p with
  | ret a => exact second a
  | call c k ih => exact ⟨first.1, fun r => ih r (first.2 r)⟩

theorem Calls.ite {c : Prop} [Decidable c] {q : Interaction C R α} (yes : Calls P p) (no : Calls P q) :
    Calls P (if c then p else q) := by
  split
  · exact yes
  · exact no

end Rules

/-! ## Running in an environment -/

section Exec

variable {ε : Type} (answer : σ → C → Except ε (R × σ))

def exec : Interaction C R α → σ → Except ε (α × σ)
  | .ret a, s => .ok (a, s)
  | .call c k, s => do
      let (r, s) ← answer s c
      exec (k r) s

/-- From `s` the program returns, and no call of it is an error. -/
def Completes (p : Interaction C R α) (s : σ) (Q : α → σ → Prop) : Prop :=
  ∃ a s', exec answer p s = .ok (a, s') ∧ Q a s'

theorem exec_bind (p : Interaction C R α) (f : α → Interaction C R β) (s : σ) :
    exec answer (p >>= f) s = exec answer p s >>= fun r => exec answer (f r.1) r.2 := by
  induction p generalizing s with
  | ret a => rfl
  | call c k ih =>
      change (answer s c >>= fun r => exec answer (k r.1 >>= f) r.2) = (answer s c >>= fun r => exec answer (k r.1) r.2) >>= _
      rw [bind_assoc]
      exact congrArg (answer s c >>= ·) (funext fun r => ih r.1 r.2)

variable {answer} {p : Interaction C R α} {f : α → Interaction C R β} {Q : α → σ → Prop} {S : β → σ → Prop} {s s' : σ}

theorem Completes.pure {a : α} (holds : Q a s) : Completes answer (pure a : Interaction C R α) s Q := ⟨a, s, rfl, holds⟩

theorem Completes.bind (first : Completes answer p s Q) (second : ∀ a s', Q a s' → Completes answer (f a) s' S) :
    Completes answer (p >>= f) s S := by
  obtain ⟨a, s', returned, between⟩ := first
  obtain ⟨b, s'', ended, after⟩ := second a s' between
  exact ⟨b, s'', by rw [exec_bind, returned]; exact ended, after⟩

/-- Calls that are answered and keep an invariant. -/
theorem Calls.completes {P : C → Prop} {Inv : σ → Prop} (calls : Calls P p)
    (keeps : ∀ s c, P c → Inv s → ∃ r s', answer s c = .ok (r, s') ∧ Inv s') (holds : Inv s) :
    Completes answer p s fun _ => Inv := by
  induction p generalizing s with
  | ret a => exact .pure holds
  | call c k ih =>
      obtain ⟨r, s', replies, kept⟩ := keeps s c calls.1 holds
      obtain ⟨a, s'', returned, last⟩ := ih r (calls.2 r) kept
      exact ⟨a, s'', by rw [exec, replies]; exact returned, last⟩

end Exec

end Interaction

end Oreo.Transition
