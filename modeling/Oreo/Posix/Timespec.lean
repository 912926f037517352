import Mathlib.Algebra.Ring.Int.Defs
import Mathlib.Tactic.TypeStar

namespace Oreo.Posix

/-! # `struct timespec` -/

/-- The fields are of type `Int64` in the program, and integers where its arithmetic is taken to
be exact. -/
structure Timespec (α : Type) where
  sec : α
  nsec : α
deriving DecidableEq, Repr

namespace Timespec

def nanos (t : Timespec Int) : Int := t.sec * 1000000000 + t.nsec

structure Normalised (t : Timespec Int) : Prop where
  nonneg : 0 ≤ t.nsec
  below : t.nsec < 1000000000

instance (t : Timespec Int) : Decidable t.Normalised :=
  decidable_of_iff (0 ≤ t.nsec ∧ t.nsec < 1000000000) ⟨fun h => ⟨h.1, h.2⟩, fun h => ⟨h.nonneg, h.below⟩⟩

/-- The numbers that the fields stand for. -/
def exact (t : Timespec Int64) : Timespec Int := ⟨t.sec.toInt, t.nsec.toInt⟩

@[simp] theorem exact_sec (t : Timespec Int64) : t.exact.sec = t.sec.toInt := rfl
@[simp] theorem exact_nsec (t : Timespec Int64) : t.exact.nsec = t.nsec.toInt := rfl

end Timespec

end Oreo.Posix
