namespace Oreo.Tables

/-! # Tables that grow by rows under the header of the first -/

inductive Headed (H R : Type) where
  | empty
  | headed (header : H) (rows : List R)
deriving DecidableEq, Repr

namespace Headed

variable {H R C : Type}

def append : Headed H R → H → R → Headed H R
  | empty, h, r => headed h [r]
  | headed header rows, _, r => headed header (rows ++ [r])

/-- Add rows, each with the header it would have a table of its own under. -/
def appendAll (t : Headed H R) (entries : List (H × R)) : Headed H R :=
  entries.foldl (fun t entry => t.append entry.1 entry.2) t

def render (header : H → List C) (row : R → List C) : Headed H R → List C
  | empty => []
  | headed h rows => header h ++ rows.flatMap row

theorem appendAll_append (t : Headed H R) (front back : List (H × R)) :
    t.appendAll (front ++ back) = (t.appendAll front).appendAll back := List.foldl_append ..

theorem appendAll_headed (h : H) (rows : List R) (entries : List (H × R)) :
    (headed h rows).appendAll entries = headed h (rows ++ entries.map Prod.snd) := by
  induction entries generalizing rows with
  | nil => simp [appendAll]
  | cons entry entries ih =>
      change (headed h (rows ++ [entry.2])).appendAll entries = _
      rw [ih]
      simp

/-- The first entry decides on the header of all. -/
theorem appendAll_empty (entry : H × R) (entries : List (H × R)) :
    (empty : Headed H R).appendAll (entry :: entries) = headed entry.1 (entry.2 :: entries.map Prod.snd) :=
  appendAll_headed entry.1 [entry.2] entries

/-- Entries that agree on their header make a text of this header and their rows. -/
theorem render_appendAll {h : H} {entries : List (H × R)} (some : entries ≠ []) (agree : ∀ entry ∈ entries, entry.1 = h)
    (header : H → List C) (row : R → List C) :
    ((empty : Headed H R).appendAll entries).render header row =
      header h ++ entries.flatMap fun entry => row entry.2 := by
  cases entries with
  | nil => contradiction
  | cons entry entries =>
      rw [appendAll_empty, agree entry List.mem_cons_self, render]
      simp [List.flatMap_map]

variable {header : H → List C} {row : R → List C} (visible : ∀ h, header h ≠ [])
include visible

/-- Who appends to the text tells from its emptiness whether the header is still to come. -/
theorem render_append (t : Headed H R) (h : H) (r : R) :
    (t.append h r).render header row =
      t.render header row ++ ((if (t.render header row).head? = none then header h else []) ++ row r) := by
  cases t with
  | empty => simp [append, render]
  | headed h' rows =>
      have started : ((headed h' rows).render header row).head? ≠ none := by
        simp [render, visible h']
      rw [if_neg started]
      simp [append, render]

theorem length_append (seen : ∀ r, row r ≠ []) (t : Headed H R) (h : H) (r : R) :
    (t.render header row).length < ((t.append h r).render header row).length := by
  rw [render_append visible, List.length_append, List.length_append]
  have grows := List.length_pos_iff.mpr (seen r)
  omega

theorem length_appendAll (seen : ∀ r, row r ≠ []) (t : Headed H R) (entries : List (H × R)) :
    (t.render header row).length + entries.length ≤ ((t.appendAll entries).render header row).length := by
  induction entries generalizing t with
  | nil => exact Nat.le_refl _
  | cons entry entries ih =>
      have one := length_append visible seen t entry.1 entry.2
      have rest := ih (t.append entry.1 entry.2)
      rw [List.length_cons]
      change _ ≤ (((t.append entry.1 entry.2).appendAll entries).render header row).length
      omega

end Headed

end Oreo.Tables
