import Oreo.Blindside.Counters
import Oreo.Blindside.Silence

namespace Oreo.Blindside

open Oreo.Transition

/-! # The module as a counter of reads

The arithmetic of the test functions shows nowhere but in the trap that a zero counter causes, and
the pointer of a command shows nowhere at all.
-/

/-- What the module's variables say: how often it was read, and what it has done. -/
structure View where
  reads : Nat
  fooPtr : UInt64
  jumps : List UInt64
  log : List Message

/-- The counter is zero after so many reads. -/
def Wrapped (reads : Nat) : Prop := (reads + 1) % 2 ^ 32 = 0

instance (reads : Nat) : Decidable (Wrapped reads) := inferInstanceAs (Decidable (_ = _))

/-- What loading the module leaves. -/
def View.start : View where
  reads := 0
  fooPtr := 0
  jumps := []
  log := [.text "Init Blindside kernel module\n", .text "/proc/blindside_victim created\n"]

/-- The variables of the module. -/
def View.kernel (v : View) : Kernel where
  fooX := 1 - BitVec.ofNat 32 (v.reads + 1)
  fooY := BitVec.ofNat 32 (v.reads + 1)
  secretLeakLimit := numTrain
  fooPtr := v.fooPtr
  jumps := v.jumps
  log := v.log

variable (layout : Layout)

/-- The functions that a well formed command has the module call. -/
def targets (idx : UInt64) : List UInt64 :=
  if idx = numTrain then [layout.testFoo1] else [layout.testFoo, layout.testFoo]

/-- What a well formed command logs before its first indirect call. -/
def announcement : List Message :=
  [.text "1\n", .text "2\n", .addresses layout.testFoo layout.testFoo1 layout.testFoo2]

def View.obey (v : View) (idx : UInt64) : Except Trap Int64 × View :=
  if Wrapped v.reads then
    (.error .divideError, { v with
      fooPtr := layout.trained idx
      jumps := v.jumps ++ [layout.trained idx]
      log := v.log ++ announcement layout })
  else
    (.ok commandSize.toInt64, { v with
      fooPtr := layout.trained idx
      jumps := v.jumps ++ targets layout idx
      log := v.log ++ announcement layout ++ [.text "Blindside\n"] })

def View.step (v : View) : Call → Except Trap Int64 × View
  | .read => (.ok 0, { v with reads := v.reads + 1 })
  | .write len command uncopied =>
      if len ≠ commandSize then (.ok len.toInt64, v)
      else if uncopied ≠ 0 then (.ok faulted, v)
      else v.obey layout command.idx

def View.run : List Call → View → List (Except Trap Int64) × View
  | [], v => ([], v)
  | c :: calls, v =>
      let (result, v) := v.step layout c
      let (results, v) := View.run calls v
      (result :: results, v)

variable {layout} {k : Kernel} {v : View}

theorem kernel_start : View.start.kernel = procfs2Init := rfl

theorem kernel_counters (v : View) : v.kernel.fooX = 1 - v.kernel.fooY := rfl

theorem kernel_wrapped : v.kernel.fooY = 0 ↔ Wrapped v.reads := by
  change BitVec.ofNat 32 (v.reads + 1) = 0 ↔ _
  rw [← BitVec.toNat_inj, BitVec.toNat_ofNat]
  rfl

/-- A call of a trained function is recorded, and fails exactly on a zero counter. -/
theorem jump_known (counters : k.fooX = 1 - k.fooY) {address : UInt64}
    (known : address = layout.testFoo ∨ address = layout.testFoo1) :
    Effect.result (jumpToAddress layout address) k =
      (if k.fooY = 0 then .error .divideError else .ok (), k.record address) := by
  have divides : (Effect.result (jumpToAddress layout address) k).1 = .error .divideError ↔ k.fooY = 0 :=
    ⟨divisor_of_jump counters, fun zero => jump_of_divisor layout zero known⟩
  rcases jump_cases layout k address with ⟨line, gadget, member, result⟩ | ⟨not, not1, -⟩
  · have same : (k.record address).greet line = k.record address := if_neg (counters_differ counters)
    rw [result] at divides ⊢
    refine Prod.ext ?_ same
    split
    · next zero => exact divides.mpr zero
    · next positive =>
        cases value : quotient ((k.fooX * gadget.1 - k.fooY.srem gadget.2) * k.fooX) k.fooY with
        | ok a => rfl
        | error trap =>
            refine absurd (divides.mp ?_) positive
            rw [value]
            unfold quotient at value
            split at value
            · cases value
              rfl
            · contradiction
  · exact absurd known (not_or.mpr ⟨not, not1⟩)

/-- The second call of a command is made for every index but the limit. -/
theorem blindside_kernel (v : View) (fPtr idx : UInt64) :
    Effect.result (blindside layout fPtr idx) v.kernel =
      (if Wrapped v.reads then .error .divideError else .ok (),
        { v.kernel with
          fooPtr := layout.trained idx
          jumps := v.jumps ++ if Wrapped v.reads then [layout.trained idx] else targets layout idx
          log := v.log ++ [.addresses layout.testFoo layout.testFoo1 layout.testFoo2] }) := by
  have first := @jump_known layout (v.kernel.aim layout idx) (kernel_counters v) _ (trained_known layout idx)
  have divisor : (v.kernel.aim layout idx).fooY = 0 ↔ Wrapped v.reads := kernel_wrapped
  rw [result_blindside, first]
  by_cases wrapped : Wrapped v.reads
  · rw [if_pos (divisor.mpr wrapped), if_pos wrapped, if_pos wrapped]
    rfl
  · have second := @jump_known layout ((v.kernel.aim layout idx).record (layout.trained idx)) (kernel_counters v) _ (.inl rfl)
    have zero : ((v.kernel.aim layout idx).record (layout.trained idx)).fooY = 0 ↔ Wrapped v.reads := kernel_wrapped
    rw [if_neg (mt divisor.mp wrapped), if_neg wrapped, if_neg wrapped]
    by_cases limit : idx = numTrain
    · subst limit
      rfl
    · have passes : idx ≠ ((v.kernel.aim layout idx).record (layout.trained idx)).secretLeakLimit := limit
      simp only [if_pos passes, if_neg limit, second]
      rw [if_neg (mt zero.mp wrapped)]
      simp [Kernel.record, Kernel.aim, View.kernel, targets, Layout.trained, limit]

/-- A call of the module does what its view says. -/
theorem result_kernel (v : View) (c : Call) : c.result layout v.kernel = ((v.step layout c).1, (v.step layout c).2.kernel) := by
  cases c with
  | read =>
      simp only [Call.result, Call.perform, result_read, View.step, View.kernel, Prod.mk.injEq, Kernel.mk.injEq, true_and, and_true]
      constructor
      · bv_omega
      · exact (BitVec.ofNat_add ..).symm
  | write len command uncopied =>
      simp only [Call.result, Call.perform]
      by_cases entered : accepted len uncopied
      · have entry : v.kernel.enter = ({ v with log := v.log ++ [.text "1\n"] ++ [.text "2\n"] } : View).kernel := rfl
        rw [result_write_accepted layout _ entered, entry, blindside_kernel]
        obtain ⟨rfl, rfl⟩ := entered
        by_cases wrapped : Wrapped v.reads
        · simp [View.step, View.obey, View.kernel, announcement, wrapped]
        · simp [View.step, View.obey, View.kernel, announcement, wrapped]
      · rw [result_write_refused layout _ entered]
        by_cases size : len = commandSize
        · have failed : uncopied ≠ 0 := fun copied => entered ⟨size, copied⟩
          simp [View.step, size, failed]
        · simp [View.step, size]

theorem run_kernel (calls : List Call) (v : View) :
    run layout calls v.kernel = ((v.run layout calls).1, (v.run layout calls).2.kernel) := by
  induction calls generalizing v with
  | nil => rfl
  | cons c calls ih =>
      simp only [run, View.run, result_kernel, ih]

variable (layout)

/-- After any sequence of calls of the loaded module: what the calls return and all of its variables
follow from the number of reads and the lengths and indices of the commands. -/
theorem blindside_refines_view (calls : List Call) :
    run layout calls procfs2Init = ((View.start.run layout calls).1, (View.start.run layout calls).2.kernel) := by
  rw [← kernel_start]
  exact run_kernel calls View.start

end Oreo.Blindside
