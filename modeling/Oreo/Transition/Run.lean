namespace Oreo.Transition

/-! # Runs of a labelled transition system

`step` answers a label with at most one next state, and `allowed` restricts the
labels a run may take: an assumption about the environment is a choice of
`allowed`, the system itself stays the same.
-/

variable {S : Type u} {Label : Type v} {step : S → Label → Option S} {allowed : S → Label → Prop}

abbrev Event (S : Type u) (Label : Type v) := S × Label

inductive Run (step : S → Label → Option S) (allowed : S → Label → Prop) (start : S) :
    List (Event S Label) → S → Prop where
  | nil : Run step allowed start [] start
  | snoc {trace s label next} : Run step allowed start trace s → allowed s label →
      step s label = some next → Run step allowed start (trace ++ [(s, label)]) next

def Reachable (step : S → Label → Option S) (allowed : S → Label → Prop) (start s : S) : Prop :=
  ∃ trace, Run step allowed start trace s

/-- `P` holds in every state reachable from `s`. -/
def Always (step : S → Label → Option S) (allowed : S → Label → Prop) (P : S → Prop) (s : S) : Prop :=
  ∀ next, Reachable step allowed s next → P next

theorem Run.trace_invariant {start s : S} {trace : List (Event S Label)} (run : Run step allowed start trace s)
    (Inv : List (Event S Label) → S → Prop) (initial : Inv [] start)
    (preserved : ∀ trace s label next, Run step allowed start trace s → Inv trace s →
      allowed s label → step s label = some next → Inv (trace ++ [(s, label)]) next) :
    Inv trace s := by
  induction run with
  | nil => exact initial
  | snoc before permitted taken ih => exact preserved _ _ _ _ before ih permitted taken

theorem Run.mono {permitted : S → Label → Prop} {start s : S} {trace : List (Event S Label)}
    (weaker : ∀ s label, allowed s label → permitted s label) (run : Run step allowed start trace s) :
    Run step permitted start trace s := by
  induction run with
  | nil => exact .nil
  | snoc _ permitted taken ih => exact ih.snoc (weaker _ _ permitted) taken

theorem Reachable.refl (s : S) : Reachable step allowed s s := ⟨[], .nil⟩

theorem Reachable.snoc {start s next : S} {label : Label} (reachable : Reachable step allowed start s)
    (permitted : allowed s label) (taken : step s label = some next) :
    Reachable step allowed start next := by
  obtain ⟨trace, run⟩ := reachable
  exact ⟨_, run.snoc permitted taken⟩

/-- An invariant may use that the state it is preserved from is reachable. -/
theorem Reachable.invariant {start s : S} (reachable : Reachable step allowed start s) (Inv : S → Prop)
    (initial : Inv start)
    (preserved : ∀ s label next, Reachable step allowed start s → Inv s →
      allowed s label → step s label = some next → Inv next) : Inv s := by
  obtain ⟨trace, run⟩ := reachable
  exact run.trace_invariant (fun _ s => Inv s) initial
    (fun trace s label next before => preserved s label next ⟨trace, before⟩)

theorem Reachable.mono {permitted : S → Label → Prop} {start s : S}
    (weaker : ∀ s label, allowed s label → permitted s label)
    (reachable : Reachable step allowed start s) : Reachable step permitted start s := by
  obtain ⟨trace, run⟩ := reachable
  exact ⟨trace, run.mono weaker⟩

theorem Always.of_stuck {P : S → Prop} {s : S}
    (stuck : ∀ label, allowed s label → step s label = none) (holds : P s) :
    Always step allowed P s := by
  intro next reachable
  have same : next = s := by
    apply reachable.invariant (fun t => t = s) rfl
    intro t label next _ here permitted taken
    subst here
    rw [stuck label permitted] at taken
    contradiction
  rwa [same]

theorem Run.split {start s : S} {front back : List (Event S Label)} {event : Event S Label}
    {trace : List (Event S Label)} (run : Run step allowed start trace s)
    (position : trace = front ++ event :: back) :
    Run step allowed start front event.1 ∧ allowed event.1 event.2 ∧
      ∃ next, step event.1 event.2 = some next ∧ Run step allowed start (front ++ [event]) next := by
  induction run generalizing back with
  | nil => simp at position
  | @snoc trace s label next before permitted taken ih =>
      rcases back.eq_nil_or_concat with rfl | ⟨rest, last, rfl⟩
      · obtain ⟨rfl, same⟩ := List.append_inj' position rfl
        obtain rfl := List.singleton_inj.mp same
        exact ⟨before, permitted, next, taken, before.snoc permitted taken⟩
      · have shorter : trace = front ++ event :: rest := by
          have regrouped : trace ++ [(s, label)] = (front ++ event :: rest) ++ [last] := by
            simpa using position
          exact (List.append_inj' regrouped rfl).1
        exact ih shorter

/-! ## Replaying a list of labels -/

def replay (step : S → Label → Option S) (permits : S → Label → Bool) :
    List Label → List (Event S Label) × S → Option (List (Event S Label) × S)
  | [], reached => some reached
  | label :: labels, (trace, s) =>
      if permits s label then (step s label).bind fun next => replay step permits labels (trace ++ [(s, label)], next)
      else none

theorem Run.replay {permits : S → Label → Bool} {start s : S} {trace : List (Event S Label)} {labels : List Label}
    {reached : List (Event S Label) × S} (run : Run step allowed start trace s)
    (sound : ∀ s label, permits s label = true → allowed s label)
    (replayed : replay step permits labels (trace, s) = some reached) : Run step allowed start reached.1 reached.2 := by
  induction labels generalizing trace s with
  | nil =>
      obtain rfl := Option.some_inj.mp replayed
      exact run
  | cons label labels ih =>
      obtain ⟨permitted, moved⟩ := Option.ite_none_right_eq_some.mp replayed
      obtain ⟨next, stepped, rest⟩ := Option.bind_eq_some_iff.mp moved
      exact ih (run.snoc (sound s label permitted) stepped) rest

theorem exists_run_of_replay {permits : S → Label → Bool} {start : S} (labels : List Label)
    {check : List (Event S Label) × S → Bool} (sound : ∀ s label, permits s label = true → allowed s label)
    (checked : (Transition.replay step permits labels ([], start)).any check = true) :
    ∃ trace s, Run step allowed start trace s ∧ check (trace, s) = true := by
  obtain ⟨reached, replayed, holds⟩ := (Option.any_eq_true ..).mp checked
  exact ⟨reached.1, reached.2, Run.nil.replay sound replayed, holds⟩

end Oreo.Transition
