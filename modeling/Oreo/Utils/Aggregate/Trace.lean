import Oreo.Utils.Aggregate.Invariant
import Mathlib.Data.List.Chain
import Mathlib.Order.Interval.Set.Basic

namespace Oreo.Utils.Aggregate

open Oreo.Sampling

variable {K : Type*} [Field K] [LinearOrder K]

def Locals.interval (s : Locals K) : Set K :=
  Set.Ioo (s._avg - tolerance * s._stddev) (s._avg + tolerance * s._stddev)

/-- The pass ran from a state of the loop condition, with the loop's own body. -/
structure Pass.Ran (sqrt : K → K) (data : List K) (p : Pass K) : Prop where
  entry : Entry sqrt data p.entry
  running : p.entry.changed = true
  body : p.exit = pass sqrt data p.entry

/-- `q` is the pass the loop runs directly after `p`. -/
structure Consecutive (sqrt : K → K) (data : List K) (p q : Pass K) : Prop where
  earlier : p.Ran sqrt data
  later : q.Ran sqrt data
  continued : p.exit = .next q.entry

variable {sqrt : K → K} {data : List K}

/-- The result of the loop is what its last pass left, if it ran one. -/
theorem loop_eq_last (remaining : Nat) (s : Locals K) :
    loop sqrt data remaining s =
      ((passes sqrt data remaining s).getLast?.map fun p => p.exit.locals).getD s := by
  induction remaining generalizing s with
  | zero => rfl
  | succ remaining ih =>
      by_cases running : s.changed = true
      · simp only [loop, passes, if_pos running, List.getLast?_cons]
        cases body : pass sqrt data s with
        | tooMuchNoise s' => rfl
        | precise s' => rfl
        | next s' =>
            dsimp only
            rw [ih s']
            cases passes sqrt data remaining s' with
            | nil => rfl
            | cons first rest => simp [List.getLast?_cons]
      · simp [loop, passes, running]

theorem passes_start_ne_nil (sqrt : K → K) (data : List K) : passes sqrt data maxIter (start data.length) ≠ [] := by
  simp [maxIter, passes, start]

theorem passes_head (remaining : Nat) (s : Locals K) :
    ∀ p ∈ (passes sqrt data remaining s).head?, p.entry = s := by
  intro p first
  cases remaining with
  | zero => simp [passes] at first
  | succ remaining =>
      by_cases running : s.changed = true
      · simp only [passes, if_pos running, List.head?_cons, Option.mem_some_iff] at first
        rw [← first]
      · simp [passes, running] at first

variable [IsStrictOrderedRing K]

theorem passes_ran (root : IsSquareRoot sqrt) (nonempty : data ≠ []) (remaining : Nat) {s : Locals K}
    (entry : Entry sqrt data s) : ∀ p ∈ passes sqrt data remaining s, p.Ran sqrt data := by
  induction remaining generalizing s with
  | zero => simp [passes]
  | succ remaining ih =>
      by_cases running : s.changed = true
      · intro p member
        rw [passes, if_pos running] at member
        rcases List.mem_cons.mp member with rfl | later
        · exact ⟨entry, running, rfl⟩
        · cases body : pass sqrt data s with
          | tooMuchNoise s' => simp [body] at later
          | precise s' => simp [body] at later
          | next s' =>
              rw [body] at later
              exact ih (.inr ⟨_, entry.next root nonempty body⟩) p later
      · simp [passes, running]

theorem passes_consecutive (root : IsSquareRoot sqrt) (nonempty : data ≠ []) (remaining : Nat)
    {s : Locals K} (entry : Entry sqrt data s) :
    (passes sqrt data remaining s).IsChain (Consecutive sqrt data) := by
  induction remaining generalizing s with
  | zero => exact .nil
  | succ remaining ih =>
      by_cases running : s.changed = true
      · rw [passes, if_pos running]
        cases body : pass sqrt data s with
        | tooMuchNoise s' => exact .singleton _
        | precise s' => exact .singleton _
        | next s' =>
            have nextEntry : Entry sqrt data s' := .inr ⟨_, entry.next root nonempty body⟩
            apply List.IsChain.cons (ih nextEntry)
            intro q first
            have ran := passes_ran root nonempty remaining nextEntry q (List.mem_of_mem_head? first)
            exact ⟨⟨entry, running, body.symm⟩, ran, by rw [passes_head remaining s' q first]⟩
      · simp [passes, running]

namespace Consecutive

variable {p q : Pass K}

theorem clipped (root : IsSquareRoot sqrt) (nonempty : data ≠ []) (pair : Consecutive sqrt data p q) :
    Clipped sqrt data q.entry (p.entry.retained data) :=
  pair.earlier.entry.next root nonempty (pair.earlier.body.symm.trans pair.continued)

theorem accepts (root : IsSquareRoot sqrt) (pair : Consecutive sqrt data p q) {x : K}
    (accepted : q.entry.accepts x = true) : p.entry.accepts x = true :=
  accepts_of_next root pair.earlier.entry (pair.earlier.body.symm.trans pair.continued) accepted

theorem interval_subset (root : IsSquareRoot sqrt) (nonempty : data ≠ []) (pair : Consecutive sqrt data p q) :
    q.exit.locals.interval ⊆ p.exit.locals.interval := by
  have clipped := pair.clipped root nonempty
  obtain ⟨iter, locals⟩ := pass_locals sqrt (clipped.retained_nonempty root)
  have contracted := clipped.shift_add_le root
  rw [pair.continued, pair.later.body, locals]
  obtain ⟨left, right⟩ := abs_le.mp (le_refl |mean (q.entry.retained data) - q.entry._avg|)
  apply Set.Ioo_subset_Ioo
  · simp only [Step.locals, Locals.report]
    linarith only [contracted, left]
  · simp only [Step.locals, Locals.report]
    linarith only [contracted, right]

end Consecutive

theorem passes_rejection_persists (root : IsSquareRoot sqrt) (nonempty : data ≠ []) (remaining : Nat)
    {s : Locals K} (entry : Entry sqrt data s) :
    (passes sqrt data remaining s).Pairwise fun p q =>
      ∀ x, p.entry.accepts x = false → q.entry.accepts x = false := by
  have chain : (passes sqrt data remaining s).IsChain fun p q =>
      ∀ x, p.entry.accepts x = false → q.entry.accepts x = false := by
    apply (passes_consecutive root nonempty remaining entry).imp
    intro p q pair x rejected
    by_contra accepted
    have before := pair.accepts root (Bool.eq_true_of_not_eq_false accepted)
    simp [rejected] at before
  have : Trans (fun p q : Pass K => ∀ x, p.entry.accepts x = false → q.entry.accepts x = false)
      (fun p q : Pass K => ∀ x, p.entry.accepts x = false → q.entry.accepts x = false)
      (fun p q : Pass K => ∀ x, p.entry.accepts x = false → q.entry.accepts x = false) :=
    ⟨fun first second x rejected => second x (first x rejected)⟩
  exact chain.pairwise

end Oreo.Utils.Aggregate
