import Oreo.Posix.Files
import Mathlib.Algebra.Ring.Nat
import Mathlib.Tactic.TypeStar

namespace Oreo.Posix

/-! # Tables that give out the lowest free number -/

section Table

variable {α : Type*}

/-- How many of the numbers below `bound` are in use. -/
def inUse (bound : Nat) (table : List (Option α)) : Nat := (table.take bound).countP Option.isSome

/-- The lowest free entry is taken. -/
def occupy (a : α) : List (Option α) → List (Option α)
  | [] => [some a]
  | none :: table => some a :: table
  | some b :: table => some b :: occupy a table

theorem inUse_le (bound : Nat) (table : List (Option α)) : inUse bound table ≤ bound := by
  have counted : inUse bound table ≤ (table.take bound).length := List.countP_le_length
  rw [List.length_take] at counted
  omega

theorem findIdx_isNone_lt_iff {bound : Nat} {table : List (Option α)} :
    table.findIdx Option.isNone < bound ↔ inUse bound table < bound := by
  induction table generalizing bound with
  | nil => simp [inUse]
  | cons entry table ih =>
      cases bound with
      | zero => simp
      | succ bound =>
          cases entry with
          | none =>
              have rest := inUse_le bound table
              simp only [inUse] at rest
              simp [inUse, List.findIdx_cons]
              omega
          | some b =>
              have rest := @ih bound
              simp only [inUse] at rest
              simp [inUse, List.findIdx_cons, rest]

theorem inUse_occupy (bound : Nat) (a : α) (table : List (Option α)) :
    inUse bound (occupy a table) = min bound (inUse bound table + 1) := by
  induction table generalizing bound with
  | nil => cases bound <;> simp [inUse, occupy]
  | cons entry table ih =>
      cases bound with
      | zero => simp [inUse]
      | succ bound =>
          cases entry with
          | none =>
              have rest := inUse_le bound table
              simp only [inUse] at rest
              simp [inUse, occupy]
              omega
          | some b =>
              have rest := ih bound
              simp only [inUse] at rest
              simp [inUse, occupy, rest]

theorem length_occupy_le (a : α) (table : List (Option α)) : (occupy a table).length ≤ table.length + 1 := by
  induction table with
  | nil => exact Nat.le_refl 1
  | cons entry table ih => cases entry <;> simp [occupy, ih]

theorem occupy_eq (a : α) (table : List (Option α)) :
    occupy a table =
      if table.findIdx Option.isNone < table.length then table.set (table.findIdx Option.isNone) (some a)
      else table ++ [some a] := by
  induction table with
  | nil => rfl
  | cons entry table ih =>
      cases entry with
      | none => simp [occupy, List.findIdx_cons]
      | some b =>
          rw [occupy, ih]
          simp only [List.findIdx_cons, Option.isNone_some, cond_false, List.length_cons, Nat.add_lt_add_iff_right]
          split <;> simp

end Table

namespace Files

/-- `socket`: the lowest free number, unless the kernel refuses or an `int` cannot hold it. -/
def socket (granted : Bool) (fs : Files) : Files × Int32 :=
  if granted && decide (fs.lowest < 2 ^ 31) then
    ({ fs with fresh := fs.fresh + 1 }.install ⟨fs.fresh, 0⟩, Int32.ofNat fs.lowest)
  else (fs, -1)

def afterSockets (granted : Nat → Bool) (fs : Files) : Nat → Files
  | 0 => fs
  | idx + 1 => ((fs.afterSockets granted idx).socket (granted idx)).1

/-- What call `idx` of `socket` returns if nothing is closed in between. -/
def socketReply (granted : Nat → Bool) (fs : Files) (idx : Nat) : Int32 :=
  ((fs.afterSockets granted idx).socket (granted idx)).2

variable {fs : Files} {granted : Bool}

theorem descriptors_install (fs : Files) (d : Description) : (fs.install d).descriptors = occupy d fs.descriptors :=
  (occupy_eq d fs.descriptors).symm

theorem socket_valid (valid : 0 ≤ (fs.socket granted).2) :
    (fs.socket granted).1.descriptors = occupy ⟨fs.fresh, 0⟩ fs.descriptors ∧
      (fs.socket granted).2.toInt = fs.lowest := by
  unfold socket at valid ⊢
  split at valid
  · rename_i possible
    rw [if_pos possible]
    have small : fs.lowest < 2 ^ 31 := by
      simp only [Bool.and_eq_true, decide_eq_true_eq] at possible
      exact possible.2
    exact ⟨descriptors_install _ _, Int32.toInt_ofNat_of_lt small⟩
  · have negative : ¬ (0 : Int32) ≤ -1 := by decide
    exact absurd valid negative

theorem length_socket_le (granted : Bool) (fs : Files) :
    (fs.socket granted).1.descriptors.length ≤ fs.descriptors.length + 1 := by
  unfold socket
  split
  · rw [descriptors_install]
    exact length_occupy_le _ _
  · exact Nat.le_succ _

theorem length_afterSockets_le (granted : Nat → Bool) (fs : Files) (idx : Nat) :
    (fs.afterSockets granted idx).descriptors.length ≤ fs.descriptors.length + idx := by
  induction idx with
  | zero => exact Nat.le_refl _
  | succ idx ih =>
      have step := length_socket_le (granted idx) (fs.afterSockets granted idx)
      rw [afterSockets]
      omega

theorem socketReply_nonneg {granted : Nat → Bool} {idx : Nat} (accepted : granted idx = true)
    (small : fs.descriptors.length + idx < 2 ^ 31) : 0 ≤ fs.socketReply granted idx := by
  have grown := length_afterSockets_le granted fs idx
  have bound : (fs.afterSockets granted idx).lowest ≤ (fs.afterSockets granted idx).descriptors.length :=
    List.findIdx_le_length
  have fits : (fs.afterSockets granted idx).lowest < 2 ^ 31 := by omega
  have number : (Int32.ofNat (fs.afterSockets granted idx).lowest).toInt = (fs.afterSockets granted idx).lowest :=
    Int32.toInt_ofNat_of_lt fits
  simp only [socketReply, socket, accepted, fits, decide_true, Bool.and_self, if_true]
  rw [Int32.le_iff_toInt_le, number]
  exact Int.natCast_nonneg _

/-- `idx` sockets take the `idx` lowest free numbers. -/
theorem inUse_afterSockets (granted : Nat → Bool) (bound : Nat) {idx : Nat}
    (valid : ∀ earlier < idx, 0 ≤ fs.socketReply granted earlier) :
    inUse bound (fs.afterSockets granted idx).descriptors = min bound (inUse bound fs.descriptors + idx) := by
  induction idx with
  | zero =>
      have below := inUse_le bound fs.descriptors
      simp only [afterSockets]
      omega
  | succ idx ih =>
      obtain ⟨taken, -⟩ := socket_valid (valid idx (Nat.lt_succ_self idx))
      rw [afterSockets, taken, inUse_occupy, ih fun earlier before => valid earlier (by omega)]
      omega

theorem socketReply_lt_iff (granted : Nat → Bool) (bound : Nat) {idx : Nat}
    (valid : ∀ earlier ≤ idx, 0 ≤ fs.socketReply granted earlier) :
    (fs.socketReply granted idx).toInt < bound ↔ inUse bound fs.descriptors + idx < bound := by
  obtain ⟨-, number⟩ := socket_valid (valid idx (Nat.le_refl idx))
  have lowest : (fs.afterSockets granted idx).lowest < bound ↔ _ := findIdx_isNone_lt_iff
  rw [inUse_afterSockets granted bound fun earlier before => valid earlier (by omega)] at lowest
  rw [socketReply, number, Int.ofNat_lt, lowest]
  omega

end Files

end Oreo.Posix
