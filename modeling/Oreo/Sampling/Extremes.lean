import Mathlib.Order.Lattice
import Mathlib.Order.Monotone.Basic
import Mathlib.Order.OrderDual

namespace Oreo.Sampling

/-! # Running extremes of a scan that starts from a seed -/

variable {K : Type*} [LinearOrder K]

def largest (seed : K) (xs : List K) : K :=
  xs.foldl (fun best x => if x > best then x else best) seed

def smallest (seed : K) (xs : List K) : K :=
  xs.foldl (fun best x => if x < best then x else best) seed

theorem largest_nil (seed : K) : largest seed [] = seed := rfl

theorem largest_cons (seed x : K) (xs : List K) :
    largest seed (x :: xs) = largest (if x > seed then x else seed) xs := rfl

theorem smallest_cons (seed x : K) (xs : List K) :
    smallest seed (x :: xs) = smallest (if x < seed then x else seed) xs := rfl

theorem le_largest (seed : K) (xs : List K) :
    seed ≤ largest seed xs ∧ ∀ x ∈ xs, x ≤ largest seed xs := by
  induction xs generalizing seed with
  | nil => simp [largest]
  | cons x xs ih =>
      obtain ⟨fromSeed, others⟩ := ih (if x > seed then x else seed)
      rw [largest_cons]
      have either : seed ≤ (if x > seed then x else seed) ∧ x ≤ (if x > seed then x else seed) := by
        split
        · exact ⟨le_of_lt ‹x > seed›, le_refl x⟩
        · exact ⟨le_refl seed, le_of_not_gt ‹¬x > seed›⟩
      refine ⟨le_trans either.1 fromSeed, ?_⟩
      intro y member
      rcases List.mem_cons.mp member with rfl | later
      · exact le_trans either.2 fromSeed
      · exact others y later

theorem largest_eq_seed_or_mem (seed : K) (xs : List K) :
    largest seed xs = seed ∨ largest seed xs ∈ xs := by
  induction xs generalizing seed with
  | nil => exact .inl rfl
  | cons x xs ih =>
      rw [largest_cons]
      rcases ih (if x > seed then x else seed) with same | later
      · rw [same]
        split
        · exact .inr List.mem_cons_self
        · exact .inl rfl
      · exact .inr (List.mem_cons_of_mem x later)

/-- A seed no element lies below is displaced by the first element, or equals it. -/
theorem largest_mem {seed : K} {xs : List K} (nonempty : xs ≠ []) (above : ∀ x ∈ xs, seed ≤ x) :
    largest seed xs ∈ xs := by
  rcases largest_eq_seed_or_mem seed xs with same | member
  · obtain ⟨x, inList⟩ := List.exists_mem_of_ne_nil xs nonempty
    have reached := (le_largest seed xs).2 x inList
    rw [same] at reached ⊢
    rwa [le_antisymm (above x inList) reached]
  · exact member

theorem smallest_le (seed : K) (xs : List K) :
    smallest seed xs ≤ seed ∧ ∀ x ∈ xs, smallest seed xs ≤ x :=
  le_largest (K := Kᵒᵈ) seed xs

theorem smallest_eq_seed_or_mem (seed : K) (xs : List K) : smallest seed xs = seed ∨ smallest seed xs ∈ xs :=
  largest_eq_seed_or_mem (K := Kᵒᵈ) seed xs

theorem smallest_mem {seed : K} {xs : List K} (nonempty : xs ≠ []) (below : ∀ x ∈ xs, x ≤ seed) :
    smallest seed xs ∈ xs :=
  largest_mem (K := Kᵒᵈ) nonempty below

/-- The order of a scan does not matter: each result bounds the elements of the other. -/
theorem largest_perm {xs ys : List K} (reordered : xs.Perm ys) (seed : K) :
    largest seed xs = largest seed ys := by
  have bounded {as bs : List K} (subset : as ⊆ bs) : largest seed as ≤ largest seed bs := by
    rcases largest_eq_seed_or_mem seed as with same | member
    · rw [same]
      exact (le_largest seed bs).1
    · exact (le_largest seed bs).2 _ (subset member)
  exact le_antisymm (bounded reordered.subset) (bounded reordered.symm.subset)

theorem smallest_perm {xs ys : List K} (reordered : xs.Perm ys) (seed : K) :
    smallest seed xs = smallest seed ys :=
  largest_perm (K := Kᵒᵈ) reordered seed

/-- A monotone map of the elements maps the result, if no seed is left over. -/
theorem largest_map {f : K → K} (monotone : Monotone f) {seed seed' : K} {xs : List K} (nonempty : xs ≠ [])
    (above : ∀ x ∈ xs, seed ≤ x) (above' : ∀ x ∈ xs, seed' ≤ f x) :
    largest seed' (xs.map f) = f (largest seed xs) := by
  have mapped : largest seed' (xs.map f) ∈ xs.map f :=
    largest_mem (by simpa using nonempty) (by simpa using above')
  obtain ⟨x, member, same⟩ := List.mem_map.mp mapped
  apply le_antisymm
  · rw [← same]
    exact monotone ((le_largest seed xs).2 x member)
  · exact (le_largest seed' (xs.map f)).2 _ (List.mem_map_of_mem (largest_mem nonempty above))

theorem smallest_map {f : K → K} (monotone : Monotone f) {seed seed' : K} {xs : List K} (nonempty : xs ≠ [])
    (below : ∀ x ∈ xs, x ≤ seed) (below' : ∀ x ∈ xs, f x ≤ seed') :
    smallest seed' (xs.map f) = f (smallest seed xs) :=
  largest_map (K := Kᵒᵈ) monotone.dual nonempty below below'

end Oreo.Sampling
