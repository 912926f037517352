import Oreo.Blindside.Rules

namespace Oreo.Blindside

open Oreo.Transition

/-! # The counters never meet -/

/-- The lines that the test functions log when the counters are equal. -/
def greetings : List String := ["test_foo\n", "test_foo1\n", "test_foo2\n"]

def testFunctions : List (KernelM (BitVec 32)) := [testFoo, testFoo1, testFoo2]

/-- The sum of the counters is odd, modulo `2 ^ 32`, and nothing has been greeted. -/
structure Silent (k : Kernel) : Prop where
  counters : k.fooX = 1 - k.fooY
  log : ∀ line ∈ greetings, .text line ∉ k.log

variable {layout : Layout} {k : Kernel}

theorem counters_differ {x y : BitVec 32} (counters : x = 1 - y) : x ≠ y := by
  bv_omega

theorem silent_init : Silent procfs2Init := by
  refine ⟨rfl, fun line greeting => ?_⟩
  simp only [greetings, List.mem_cons, List.not_mem_nil, or_false] at greeting
  rcases greeting with rfl | rfl | rfl <;> decide

theorem Silent.greet (silent : Silent k) (line : String) : k.greet line = k :=
  if_neg (counters_differ silent.counters)

theorem Silent.logs (silent : Silent k) {message : Message} (other : ∀ line ∈ greetings, .text line ≠ message) :
    Silent { k with log := k.log ++ [message] } := by
  refine ⟨silent.counters, fun line greeting member => ?_⟩
  rcases List.mem_append.mp member with earlier | last
  · exact silent.log line greeting earlier
  · exact other line greeting (List.mem_singleton.mp last)

theorem Silent.jump (silent : Silent k) (address : UInt64) :
    Silent (Effect.result (jumpToAddress layout address) k).2 := by
  have recorded : Silent (k.record address) := ⟨silent.counters, silent.log⟩
  rcases jump_cases layout k address with ⟨line, gadget, -, result⟩ | ⟨-, -, result⟩
  · rwa [result, recorded.greet line]
  · rwa [result]

theorem Silent.result (silent : Silent k) (c : Call) : Silent (c.result layout k).2 := by
  cases c with
  | read =>
      simp only [Call.result, Call.perform, result_read]
      refine ⟨?_, silent.log⟩
      simp only [silent.counters]
      bv_omega
  | write len command uncopied =>
      refine write_invariant layout ?_ ?_ ?_ silent len command uncopied
      · intro k line printed silent
        refine silent.logs fun greeting member same => ?_
        obtain rfl := Message.text.inj same
        simp only [greetings, List.mem_cons, List.not_mem_nil, or_false] at member printed
        rcases member with rfl | rfl | rfl <;> revert printed <;> decide
      · intro k idx silent
        have noGreeting : ∀ line ∈ greetings, Message.text line ≠ .addresses layout.testFoo layout.testFoo1 layout.testFoo2 :=
          fun line _ => Message.noConfusion
        have aimed := silent.logs noGreeting
        exact ⟨aimed.counters, aimed.log⟩
      · exact fun k address silent => silent.jump address

theorem Silent.run (silent : Silent k) (calls : List Call) : Silent (run layout calls k).2 := by
  induction calls generalizing k with
  | nil => exact silent
  | cons c calls ih => exact ih (silent.result c)

theorem Silent.testFunction (silent : Silent k) {f : KernelM (BitVec 32)} (member : f ∈ testFunctions) :
    (Effect.result f k).2 = k := by
  simp only [testFunctions, List.mem_cons, List.not_mem_nil, or_false] at member
  rcases member with rfl | rfl | rfl
  · exact (congrArg Prod.snd (result_testFooWith k _ _ _)).trans (silent.greet _)
  · exact (congrArg Prod.snd (result_testFooWith k _ _ _)).trans (silent.greet _)
  · exact (congrArg Prod.snd (result_testFooWith k _ _ _)).trans (silent.greet _)

/-- After every sequence of calls `foo_x` and `foo_y` differ, no test function has printed its
line, and a call of one of them leaves the variables of the module as they are. -/
theorem blindside_test_functions_stay_silent (layout : Layout) (calls : List Call) :
    (run layout calls procfs2Init).2.fooX ≠ (run layout calls procfs2Init).2.fooY ∧
      (∀ line ∈ greetings, .text line ∉ (run layout calls procfs2Init).2.log) ∧
        ∀ f ∈ testFunctions, (Effect.result f (run layout calls procfs2Init).2).2 = (run layout calls procfs2Init).2 := by
  have silent : Silent (run layout calls procfs2Init).2 := silent_init.run calls
  exact ⟨counters_differ silent.counters, silent.log, fun f member => silent.testFunction member⟩

end Oreo.Blindside
