import Oreo.Blindside.Model

namespace Oreo.Blindside

open Oreo.Transition

/-! # What the functions of the module do -/

variable (layout : Layout) (k : Kernel)

def quotient (dividend divisor : BitVec 32) : Except Trap (BitVec 32) :=
  if divisor = 0 ∨ dividend = BitVec.intMin 32 ∧ divisor = -1 then .error .divideError
  else .ok (dividend.sdiv divisor)

theorem result_divide (dividend divisor : BitVec 32) :
    Effect.result (divide dividend divisor) k = (quotient dividend divisor, k) := by
  unfold divide quotient
  split <;> rfl

def Kernel.greet (line : String) : Kernel :=
  if k.fooX = k.fooY then { k with log := k.log ++ [.text line] } else k

theorem result_testFooWith (line : String) (factor modulus : BitVec 32) :
    Effect.result (testFooWith line factor modulus) k =
      (quotient ((k.fooX * factor - k.fooY.srem modulus) * k.fooX) k.fooY, k.greet line) := by
  by_cases same : k.fooX = k.fooY
  · simp [testFooWith, Effect.result_bind, result_divide, prInfo, Kernel.greet, same]
  · simp [testFooWith, Effect.result_bind, result_divide, prInfo, Kernel.greet, same]

def gadgets : List (BitVec 32 × BitVec 32) := [(353, 23), (53, 233), (3, 232)]

def Kernel.record (address : UInt64) : Kernel := { k with jumps := k.jumps ++ [address] }

theorem jump_cases (address : UInt64) :
    (∃ line, ∃ gadget ∈ gadgets, Effect.result (jumpToAddress layout address) k =
      ((quotient ((k.fooX * gadget.1 - k.fooY.srem gadget.2) * k.fooX) k.fooY).map fun _ => (),
        (k.record address).greet line)) ∨
    (address ≠ layout.testFoo ∧ address ≠ layout.testFoo1 ∧
      Effect.result (jumpToAddress layout address) k = (.error (.escaped address), k.record address)) := by
  unfold jumpToAddress
  simp only [Effect.result_bind, Effect.result_modify, Effect.result_ite, Effect.result_discard, testFoo, testFoo1,
    testFoo2, result_testFooWith, Effect.result_throw]
  split
  · exact .inl ⟨"test_foo\n", (353, 23), by simp [gadgets], rfl⟩
  · split
    · exact .inl ⟨"test_foo1\n", (53, 233), by simp [gadgets], rfl⟩
    · split
      · exact .inl ⟨"test_foo2\n", (3, 232), by simp [gadgets], rfl⟩
      · exact .inr ⟨‹_›, ‹_›, rfl⟩

theorem jump_state (address : UInt64) :
    ∃ log, (Effect.result (jumpToAddress layout address) k).2 = { k.record address with log } := by
  have greeted (line : String) : ∃ log, (k.record address).greet line = { k.record address with log } := by
    unfold Kernel.greet
    split
    · exact ⟨_, rfl⟩
    · exact ⟨k.log, rfl⟩
  rcases jump_cases layout k address with ⟨line, gadget, -, result⟩ | ⟨-, -, result⟩
  · rw [result]
    exact greeted line
  · rw [result]
    exact ⟨k.log, rfl⟩

def Layout.trained (idx : UInt64) : UInt64 := if idx = numTrain then layout.testFoo1 else layout.testFoo

theorem trained_known (idx : UInt64) :
    layout.trained idx = layout.testFoo ∨ layout.trained idx = layout.testFoo1 := by
  unfold Layout.trained
  split
  · exact .inr rfl
  · exact .inl rfl

def Kernel.aim (idx : UInt64) : Kernel :=
  { k with
    fooPtr := layout.trained idx
    log := k.log ++ [.addresses layout.testFoo layout.testFoo1 layout.testFoo2] }

theorem result_blindside (fPtr idx : UInt64) :
    Effect.result (blindside layout fPtr idx) k =
      match Effect.result (jumpToAddress layout (layout.trained idx)) (k.aim layout idx) with
      | (.ok _, k') =>
          if idx ≠ k'.secretLeakLimit then
            Effect.result (jumpToAddress layout (if idx = numTrain then fPtr else layout.testFoo)) k'
          else (.ok (), k')
      | (.error trap, k') => (.error trap, k') := by
  simp only [blindside, prInfo, Effect.result_bind, Effect.result_modify, Effect.result_get, Effect.result_ite,
    Effect.result_pure, Layout.trained, Kernel.aim]
  generalize Effect.result (jumpToAddress layout (if idx = numTrain then layout.testFoo1 else layout.testFoo)) _ = first
  rcases first with ⟨_ | _, _⟩ <;> rfl

def accepted (len uncopied : UInt64) : Prop := len = commandSize ∧ uncopied = 0

instance (len uncopied : UInt64) : Decidable (accepted len uncopied) := inferInstanceAs (Decidable (_ ∧ _))

theorem result_write_refused {len uncopied : UInt64} (refused : ¬ accepted len uncopied) (command : BlindsideCommand) :
    Effect.result (procfileWrite layout len command uncopied) k =
      (.ok (if len = commandSize then faulted else len.toInt64), k) := by
  by_cases size : len = commandSize
  · have failed : uncopied ≠ 0 := fun copied => refused ⟨size, copied⟩
    simp [procfileWrite, size, failed]
  · simp [procfileWrite, size]

def Kernel.enter : Kernel := { k with log := k.log ++ [.text "1\n"] ++ [.text "2\n"] }

theorem result_write_accepted {len uncopied : UInt64} (entered : accepted len uncopied) (command : BlindsideCommand) :
    Effect.result (procfileWrite layout len command uncopied) k =
      match Effect.result (blindside layout command.fPtr command.idx) k.enter with
      | (.ok _, k') => (.ok len.toInt64, { k' with log := k'.log ++ [.text "Blindside\n"] })
      | (.error trap, k') => (.error trap, k') := by
  obtain ⟨rfl, rfl⟩ := entered
  simp only [procfileWrite, prInfo, ne_eq, not_true_eq_false, if_false, Effect.result_bind, Effect.result_modify,
    Effect.result_pure, Kernel.enter]
  generalize Effect.result (blindside layout command.fPtr command.idx) _ = ended
  rcases ended with ⟨_ | _, _⟩ <;> rfl

/-- What holds of the module's variables after a write: `P` is kept by the lines of the log, by
the choice of the target and by every indirect call. -/
theorem write_invariant {P : Kernel → Prop} (logs : ∀ k line, line ∈ ["1\n", "2\n", "Blindside\n"] → P k →
      P { k with log := k.log ++ [.text line] })
    (aims : ∀ k idx, P k → P (k.aim layout idx))
    (jumps : ∀ k address, P k → P (Effect.result (jumpToAddress layout address) k).2)
    {k : Kernel} (holds : P k) (len : UInt64) (command : BlindsideCommand) (uncopied : UInt64) :
    P (Effect.result (procfileWrite layout len command uncopied) k).2 := by
  by_cases entered : accepted len uncopied
  · have entry : P k.enter := logs _ _ (by simp) (logs _ _ (by simp) holds)
    have first := jumps _ (layout.trained command.idx) (aims _ command.idx entry)
    have called : P (Effect.result (blindside layout command.fPtr command.idx) k.enter).2 := by
      rw [result_blindside]
      split
      · next k' same =>
          rw [same] at first
          split
          · exact jumps _ _ first
          · exact first
      · next k' same => rwa [same] at first
    rw [result_write_accepted layout k entered]
    split
    · next k' same =>
        rw [same] at called
        exact logs _ _ (by simp) called
    · next k' same => rwa [same] at called
  · rw [result_write_refused layout k entered]
    exact holds

theorem result_read :
    Effect.result procfileRead k = (.ok 0, { k with fooX := k.fooX - 1, fooY := k.fooY + 1 }) := by
  simp only [procfileRead, Effect.result_bind, Effect.result_modify, Effect.result_pure]

end Oreo.Blindside
