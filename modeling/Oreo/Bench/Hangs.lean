import Oreo.Bench.Recv.Hangs
import Oreo.Bench.Send.Hangs

namespace Oreo.Bench

open Oreo.Bench.Socket

/-! # Which failures of the setup the socket tests survive -/

theorem socketTests_hangFree_iff (iterCnt msgSize : Nat) (loops : 1 ≤ iterCnt) (parent child : Faults) :
    (HangFree (Send.program iterCnt msgSize) (.setup .allocDiffs) parent child ↔ child.noServer = false) ∧
      (HangFree (Recv.program iterCnt msgSize) (.setup .allocDiffs) parent child ↔
        parent.noServer = true ∨ child.noClient = false) :=
  ⟨Send.hangFree_iff, Recv.hangFree_iff loops⟩

/-- The parent's `connect` and the child's `accept` fail in `send_test`, the parent's `bind` in `recv_test`. -/
theorem socketTests_hangFree_iff_harmless :
    HangFree (Send.program 1 1) (.setup .allocDiffs) { Faults.none with connect := true } { Faults.none with accept := true } ∧
      HangFree (Recv.program 1 1) (.setup .allocDiffs) { Faults.none with bind := true } Faults.none :=
  ⟨(socketTests_hangFree_iff 1 1 (Nat.le_refl 1) _ _).1.mpr rfl, (socketTests_hangFree_iff 1 1 (Nat.le_refl 1) _ _).2.mpr (.inl rfl)⟩

/-- The child's `bind` fails in `send_test`, its `connect` in `recv_test`. -/
theorem socketTests_hang :
    ¬ HangFree (Send.program 1 1) (.setup .allocDiffs) Faults.none { Faults.none with bind := true } ∧
      ¬ HangFree (Recv.program 1 1) (.setup .allocDiffs) Faults.none { Faults.none with connect := true } :=
  ⟨Send.not_hangFree_of_noServer rfl, Recv.not_hangFree_of_noClient rfl rfl Nat.one_pos⟩

end Oreo.Bench
