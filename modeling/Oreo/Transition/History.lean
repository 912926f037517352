namespace Oreo.Transition

/-! # What the history of a run says -/

variable {E : Type u} {α : Type v}

/-- The mark of the last event that has one. -/
def latest (mark : E → Option α) (history : List E) : Option α :=
  history.foldl (fun last event => (mark event).or last) none

theorem latest_snoc (mark : E → Option α) (history : List E) (event : E) :
    latest mark (history ++ [event]) = (mark event).or (latest mark history) := by
  simp [latest]

/-- The entries of a table below `reached` are in place, and the history justifies them. -/
structure Filled (Justified : List E → Nat → α → Prop) (size : Nat) (history : List E) (reached : Nat) (table : List α) :
    Prop where
  room : table.length = size
  entries : ∀ idx < reached, ∃ a, table[idx]? = some a ∧ Justified history idx a

namespace Filled

variable {Justified : List E → Nat → α → Prop} {size reached : Nat} {history : List E} {table : List α}

theorem start (room : table.length = size) : Filled Justified size history 0 table :=
  ⟨room, fun idx below => absurd below (Nat.not_lt_zero idx)⟩

/-- What is justified stays so as the history goes on. -/
theorem snoc (filled : Filled Justified size history reached table) (event : E)
    (stays : ∀ idx a, Justified history idx a → Justified (history ++ [event]) idx a) :
    Filled Justified size (history ++ [event]) reached table := by
  refine ⟨filled.room, fun idx below => ?_⟩
  obtain ⟨a, stored, justified⟩ := filled.entries idx below
  exact ⟨a, stored, stays idx a justified⟩

theorem set {a : α} (filled : Filled Justified size history reached table) (below : reached < size)
    (justified : Justified history reached a) : Filled Justified size history (reached + 1) (table.set reached a) := by
  refine ⟨by rw [List.length_set, filled.room], fun idx upTo => ?_⟩
  rcases Nat.lt_or_eq_of_le (Nat.le_of_lt_succ upTo) with earlier | rfl
  · obtain ⟨b, stored, before⟩ := filled.entries idx earlier
    exact ⟨b, (List.getElem?_set_ne (Nat.ne_of_gt earlier)).trans stored, before⟩
  · exact ⟨a, List.getElem?_set_self (by rw [filled.room]; exact below), justified⟩

end Filled

end Oreo.Transition
