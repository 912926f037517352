import Oreo.Blindside.Rules
import Mathlib.Algebra.Ring.Nat

namespace Oreo.Blindside

open Oreo.Transition

/-! # The counters and the division by one of them -/

/-- The counters after `reads` calls of `procfile_read`. -/
structure Counted (reads : Nat) (k : Kernel) : Prop where
  fooY : k.fooY = BitVec.ofNat 32 (reads + 1)
  fooX : k.fooX = 1 - k.fooY

variable (layout : Layout) {k k' : Kernel} {reads : Nat}

theorem counted_init : Counted 0 procfs2Init := ⟨rfl, rfl⟩

theorem Counted.read (counted : Counted reads k) : Counted (reads + 1) (Effect.result procfileRead k).2 := by
  obtain ⟨fooY, fooX⟩ := counted
  rw [result_read]
  constructor
  · simp only [fooY]
    exact (BitVec.ofNat_add ..).symm
  · simp only [fooX]
    bv_omega

theorem Counted.of_same (counted : Counted reads k) (fooX : k'.fooX = k.fooX) (fooY : k'.fooY = k.fooY) :
    Counted reads k' :=
  ⟨fooY.trans counted.fooY, by rw [fooX, fooY, counted.fooX]⟩

/-- No dividend of a test function overflows: at the divisor -1 the other counter is 2. -/
theorem quotient_eq {x y : BitVec 32} (counters : x = 1 - y) {gadget : BitVec 32 × BitVec 32}
    (member : gadget ∈ gadgets) :
    quotient ((x * gadget.1 - y.srem gadget.2) * x) y = .error .divideError ↔ y = 0 := by
  have bounded (negative : y = -1) : (x * gadget.1 - y.srem gadget.2) * x ≠ BitVec.intMin 32 := by
    subst negative counters
    simp only [gadgets, List.mem_cons, List.not_mem_nil, or_false] at member
    rcases member with rfl | rfl | rfl <;> decide
  unfold quotient
  constructor
  · intro divides
    split at divides
    · next trapped => exact trapped.resolve_right fun overflow => bounded overflow.2 overflow.1
    · contradiction
  · intro zero
    rw [if_pos (.inl zero)]

variable {layout} in
theorem divisor_of_jump (counters : k.fooX = 1 - k.fooY) {address : UInt64}
    (divides : (Effect.result (jumpToAddress layout address) k).1 = .error .divideError) : k.fooY = 0 := by
  rcases jump_cases layout k address with ⟨line, gadget, member, result⟩ | ⟨-, -, result⟩
  · rw [result] at divides
    apply (quotient_eq counters member).mp
    generalize quotient ((k.fooX * gadget.1 - k.fooY.srem gadget.2) * k.fooX) k.fooY = value at divides ⊢
    cases value with
    | ok a => contradiction
    | error trap => exact congrArg Except.error (Except.error.inj divides)
  · simp [result] at divides

theorem jump_of_divisor (zero : k.fooY = 0) {address : UInt64}
    (known : address = layout.testFoo ∨ address = layout.testFoo1) :
    (Effect.result (jumpToAddress layout address) k).1 = .error .divideError := by
  rcases jump_cases layout k address with ⟨line, gadget, member, result⟩ | ⟨not, not1, -⟩
  · simp [result, quotient, zero, Except.map]
  · exact absurd known (not_or.mpr ⟨not, not1⟩)

theorem Counted.jump (counted : Counted reads k) (address : UInt64) :
    Counted reads (Effect.result (jumpToAddress layout address) k).2 := by
  obtain ⟨log, after⟩ := jump_state layout k address
  rw [after]
  exact counted.of_same rfl rfl

theorem Counted.aim (counted : Counted reads k) (idx : UInt64) : Counted reads (k.aim layout idx) :=
  counted.of_same rfl rfl

theorem Counted.blindside_divides (counted : Counted reads k) (fPtr idx : UInt64) :
    (Effect.result (Blindside.blindside layout fPtr idx) k).1 = .error .divideError ↔ k.fooY = 0 := by
  have first := counted.aim layout idx
  have after := first.jump layout (layout.trained idx)
  rw [result_blindside]
  constructor
  · intro divides
    split at divides
    · next k' same =>
        rw [same] at after
        split at divides
        · have zero := divisor_of_jump after.fooX divides
          rwa [after.fooY, ← counted.fooY] at zero
        · contradiction
    · next trap k' same =>
        obtain rfl := Except.error.inj divides
        exact divisor_of_jump (k := k.aim layout idx) first.fooX (by rw [same])
  · intro zero
    have traps := jump_of_divisor layout (k := k.aim layout idx) zero (trained_known layout idx)
    split
    · next k' same => simp [same] at traps
    · next trap k' same => simpa [same] using traps

def Call.Enters : Call → Prop
  | .read => False
  | .write len _ uncopied => accepted len uncopied

theorem Counted.result (counted : Counted reads k) (c : Call) :
    Counted (reads + [c].count .read) (c.result layout k).2 := by
  cases c with
  | read => exact counted.read
  | write len command uncopied =>
      refine write_invariant layout ?_ ?_ ?_ counted len command uncopied
      · exact fun k line _ counted => counted.of_same rfl rfl
      · exact fun k idx counted => counted.aim layout idx
      · exact fun k address counted => counted.jump layout address

theorem Counted.result_divides (counted : Counted reads k) (c : Call) :
    (c.result layout k).1 = .error .divideError ↔ c.Enters ∧ (reads + 1) % 2 ^ 32 = 0 := by
  have zero : k.fooY = 0 ↔ (reads + 1) % 2 ^ 32 = 0 := by
    rw [counted.fooY, ← BitVec.toNat_inj, BitVec.toNat_ofNat]
    rfl
  rw [← zero]
  cases c with
  | read => simp [Call.result, Call.perform, result_read, Call.Enters]
  | write len command uncopied =>
      simp only [Call.result, Call.perform, Call.Enters]
      by_cases entered : accepted len uncopied
      · have logged : Counted reads k.enter := counted.of_same rfl rfl
        rw [result_write_accepted layout k entered]
        rw [and_iff_right entered]
        refine Iff.trans ?_ (logged.blindside_divides layout command.fPtr command.idx)
        split
        · next k' same => simp [same]
        · next trap k' same => simp [same]
      · simp [result_write_refused layout k entered, entered]

/-- The run traps on a division if some call gets to `blindside` after a number of reads
at which the counter `foo_y` has wrapped around to zero. -/
theorem Counted.run_divides (counted : Counted reads k) (calls : List Call) :
    .error .divideError ∈ (run layout calls k).1 ↔
      ∃ before c after, calls = before ++ c :: after ∧ c.Enters ∧
        (reads + before.count .read + 1) % 2 ^ 32 = 0 := by
  induction calls generalizing k reads with
  | nil => simp [run]
  | cons c calls ih =>
      have head := counted.result_divides layout c
      have tail := ih (counted.result layout c)
      simp only [run, List.mem_cons, tail]
      constructor
      · intro either
        rcases either with here | ⟨before, d, after, rfl, enters, wrapped⟩
        · obtain ⟨enters, wrapped⟩ := head.mp here.symm
          exact ⟨[], c, calls, rfl, enters, wrapped⟩
        · refine ⟨c :: before, d, after, rfl, enters, ?_⟩
          rw [List.count_cons, Nat.add_comm (before.count .read)]
          simpa [List.count_cons, Nat.add_assoc] using wrapped
      · intro found
        obtain ⟨before, d, after, split, enters, wrapped⟩ := found
        cases before with
        | nil =>
            obtain ⟨rfl, rfl⟩ := List.cons.inj split
            exact .inl (head.mpr ⟨enters, wrapped⟩).symm
        | cons first before =>
            obtain ⟨rfl, rfl⟩ := List.cons.inj split
            refine .inr ⟨before, d, after, rfl, enters, ?_⟩
            rw [List.count_cons, Nat.add_comm (before.count .read)] at wrapped
            simpa [List.count_cons, Nat.add_assoc] using wrapped

/-- From the state `procfs2_init` sets up, a sequence of calls runs without a trap on a
division exactly if none of its calls gets to `blindside` after `2 ^ 32 - 1` reads,
modulo `2 ^ 32`. -/
theorem blindside_never_divides_iff (layout : Layout) (calls : List Call) :
    .error .divideError ∉ (run layout calls procfs2Init).1 ↔
      ∀ before c after, calls = before ++ c :: after → c.Enters →
        before.count .read % 2 ^ 32 ≠ 2 ^ 32 - 1 := by
  rw [counted_init.run_divides layout calls]
  constructor
  · intro clear before c after split enters full
    exact clear ⟨before, c, after, split, enters, by omega⟩
  · intro clear found
    obtain ⟨before, c, after, split, enters, wrapped⟩ := found
    have partway := clear before c after split enters
    omega

/-- Reads until `foo_y` is zero, then a well formed command. -/
theorem blindside_divides_by_zero :
    .error .divideError ∈
      (run ⟨4096, 4160, 4224⟩ (List.replicate (2 ^ 32 - 1) .read ++ [.write 16 ⟨0, 0⟩ 0]) procfs2Init).1 := by
  apply (counted_init.run_divides _ _).mpr
  refine ⟨List.replicate (2 ^ 32 - 1) .read, .write 16 ⟨0, 0⟩ 0, [], rfl, ⟨rfl, rfl⟩, ?_⟩
  have reads : (List.replicate (2 ^ 32 - 1) Call.read).count .read = 2 ^ 32 - 1 := List.count_replicate_self
  omega

end Oreo.Blindside
