import Oreo.Blindside.Rules

namespace Oreo.Blindside

open Oreo.Transition

/-! # The user's pointer is never called -/

/-- The limit is as it was loaded, and only the trained functions have been called. -/
structure Guarded (layout : Layout) (k : Kernel) : Prop where
  limit : k.secretLeakLimit = numTrain
  targets : ∀ target ∈ k.jumps, target = layout.testFoo ∨ target = layout.testFoo1

variable {layout : Layout} {k : Kernel}

theorem guarded_init (layout : Layout) : Guarded layout procfs2Init :=
  ⟨rfl, by simp [procfs2Init]⟩

theorem Guarded.jump (guarded : Guarded layout k) {address : UInt64}
    (known : address = layout.testFoo ∨ address = layout.testFoo1) :
    Guarded layout (Effect.result (jumpToAddress layout address) k).2 := by
  obtain ⟨log, after⟩ := jump_state layout k address
  rw [after]
  refine ⟨guarded.limit, ?_⟩
  intro target member
  rcases List.mem_append.mp member with earlier | last
  · exact guarded.targets target earlier
  · rwa [List.mem_singleton.mp last]

theorem Guarded.aim (guarded : Guarded layout k) (idx : UInt64) : Guarded layout (k.aim layout idx) :=
  ⟨guarded.limit, guarded.targets⟩

theorem Guarded.blindside (guarded : Guarded layout k) (fPtr idx : UInt64) :
    Guarded layout (Effect.result (blindside layout fPtr idx) k).2 := by
  have first := (guarded.aim idx).jump (trained_known layout idx)
  rw [result_blindside]
  split
  · next k' same =>
      rw [same] at first
      split
      · next leaks =>
          -- the limit is `NUM_TRAIN`, so the index that selects the pointer does not get here
          rw [first.limit] at leaks
          rw [if_neg leaks]
          exact first.jump (.inl rfl)
      · exact first
  · next k' same => rwa [same] at first

/-- The pointer is selected for the one index that the limit turns away. -/
theorem Guarded.blind (guarded : Guarded layout k) (fPtr fPtr' idx : UInt64) :
    Effect.result (Blindside.blindside layout fPtr idx) k = Effect.result (Blindside.blindside layout fPtr' idx) k := by
  have first := (guarded.aim idx).jump (trained_known layout idx)
  rw [result_blindside, result_blindside]
  split
  · next k' same =>
      rw [same] at first
      split
      · next leaks =>
          rw [first.limit] at leaks
          rw [if_neg leaks, if_neg leaks]
      · rfl
  · rfl

def Call.forgetPointer : Call → Call
  | .read => .read
  | .write len command uncopied => .write len { command with fPtr := 0 } uncopied

theorem Guarded.result (guarded : Guarded layout k) (c : Call) : Guarded layout (c.result layout k).2 := by
  cases c with
  | read =>
      simp only [Call.result, Call.perform, result_read]
      exact ⟨guarded.limit, guarded.targets⟩
  | write len command uncopied =>
      simp only [Call.result, Call.perform]
      by_cases entered : accepted len uncopied
      · have logged : Guarded layout k.enter := ⟨guarded.limit, guarded.targets⟩
        have after := logged.blindside command.fPtr command.idx
        rw [result_write_accepted layout k entered]
        split
        · next k' same =>
            rw [same] at after
            exact ⟨after.limit, after.targets⟩
        · next k' same => rwa [same] at after
      · rw [result_write_refused layout k entered]
        exact guarded

theorem Guarded.result_forgetPointer (guarded : Guarded layout k) (c : Call) :
    c.forgetPointer.result layout k = c.result layout k := by
  cases c with
  | read => rfl
  | write len command uncopied =>
      simp only [Call.forgetPointer, Call.result, Call.perform]
      by_cases entered : accepted len uncopied
      · have logged : Guarded layout k.enter := ⟨guarded.limit, guarded.targets⟩
        rw [result_write_accepted layout k entered, result_write_accepted layout k entered,
          logged.blind 0 command.fPtr command.idx]
      · rw [result_write_refused layout k entered, result_write_refused layout k entered]

theorem Guarded.run (guarded : Guarded layout k) (calls : List Call) : Guarded layout (run layout calls k).2 := by
  induction calls generalizing k with
  | nil => exact guarded
  | cons c calls ih => exact ih (guarded.result c)

theorem Guarded.run_forgetPointer (guarded : Guarded layout k) (calls : List Call) :
    Blindside.run layout (calls.map Call.forgetPointer) k = Blindside.run layout calls k := by
  induction calls generalizing k with
  | nil => rfl
  | cons c calls ih =>
      simp only [List.map_cons, Blindside.run, guarded.result_forgetPointer c]
      rw [ih (guarded.result c)]

/-- From the state the module is loaded in, whatever is written to it: every call
goes to `test_foo` or `test_foo1`, and sequences that differ in the pointers only have
the same results and leave the same state, with the same targets. -/
theorem blindside_isolates_pointer (layout : Layout) (calls calls' : List Call)
    (same : calls.map Call.forgetPointer = calls'.map Call.forgetPointer) :
    (∀ target ∈ (run layout calls procfs2Init).2.jumps, target = layout.testFoo ∨ target = layout.testFoo1) ∧
      run layout calls procfs2Init = run layout calls' procfs2Init := by
  have guarded := guarded_init layout
  refine ⟨(guarded.run calls).targets, ?_⟩
  rw [← guarded.run_forgetPointer calls, same, guarded.run_forgetPointer calls']

theorem blindside_isolates_pointer_pair :
    (∀ target ∈ (run ⟨4096, 4160, 4224⟩ [.write 16 ⟨7, 1⟩ 0] procfs2Init).2.jumps, target = 4096 ∨ target = 4160) ∧
      run ⟨4096, 4160, 4224⟩ [.write 16 ⟨7, 1⟩ 0] procfs2Init =
        run ⟨4096, 4160, 4224⟩ [.write 16 ⟨8, 1⟩ 0] procfs2Init :=
  blindside_isolates_pointer ⟨4096, 4160, 4224⟩ _ _ rfl

end Oreo.Blindside
