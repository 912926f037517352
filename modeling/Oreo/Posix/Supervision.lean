import Oreo.Posix.Pair

namespace Oreo.Posix

/-! # A parent that waits for its child -/

variable {L : Type*} {prog : Program L} {inUse waited : L → Bool} {w : World L} {p c : Proc L} {call : Call} {r : Reply}

/-- The parent runs, the child runs as long as it is `inUse`, and the parent is past
its `wait` exactly when the child has ended and been collected. -/
structure Supervised (prog : Program L) (inUse waited : L → Bool) (p c : Proc L) : Prop where
  parentRunning : p.status = .running
  childRunning : inUse c.locals = true → c.status = .running
  collected : waited p.locals = true → c.finished prog = true
  unreaped : waited p.locals = false → c.status ≠ .reaped

theorem not_finished (running : p.status = .running) (asked : prog.request p.locals = some call) :
    p.finished prog = false := by
  simp [Proc.finished, running, asked]

variable (supervised : Supervised prog inUse waited p c) (procs : w.procs = [p, c])
include supervised procs

/-- The parent sends no signals; only its `wait` gets it past the `wait`. -/
theorem Supervised.parent_step (turn : Turn prog w 0 p call r) (natural : w.natural prog p call r = true)
    (busy : ∀ l, inUse l = true → (prog.request l).isSome = true)
    (calls : call.signals = false ∧ waited (prog.resume p.locals r) = waited p.locals ∨
      call = .wait ∧ waited (prog.resume p.locals r) = true) :
    Supervised prog inUse waited { p.advance prog call r with status := w.fate prog 0 0 p call r }
      { c with status := w.fate prog 0 1 c call r } := by
  rcases calls with ⟨silent, same⟩ | ⟨rfl, after⟩
  · refine ⟨(fate_of_silent silent).trans supervised.parentRunning, fun used => ?_, fun past => ?_, fun before => ?_⟩
    · exact (fate_of_silent silent).trans (supervised.childRunning used)
    · exact finished_fate (supervised.collected (same.symm.trans past))
    · have before : waited p.locals = false := same.symm.trans before
      simpa only [fate_of_silent silent] using supervised.unreaped before
  · obtain rfl := ok_of_plain natural rfl
    obtain ⟨index, zombie⟩ := Option.isSome_iff_exists.mp natural
    obtain ⟨rfl, finished⟩ := zombie_of_pair procs zombie
    refine ⟨?_, fun used => ?_, fun _ => finished_fate finished, fun before => ?_⟩
    · simp [World.fate, zombie, supervised.parentRunning]
    · have asked := busy _ used
      simp only [Proc.finished, supervised.childRunning used, bne_self_eq_false, Bool.false_or] at finished
      rw [Option.isNone_iff_eq_none.mp finished] at asked
      contradiction
    · exact absurd (after.symm.trans before) (by simp)

omit procs in
/-- The child signals nobody but itself, and only when it is no longer needed. -/
theorem Supervised.child_step (turn : Turn prog w 1 c call r)
    (calls : call.signals = false ∨ call = .killSelf ∧ inUse (prog.resume c.locals r) = false) :
    Supervised prog inUse waited { p with status := w.fate prog 1 0 p call r }
      { c.advance prog call r with status := w.fate prog 1 1 c call r } := by
  have alive := not_finished turn.running turn.request
  have notCollected : waited p.locals = false := by
    by_contra past
    rw [supervised.collected (by simpa using past)] at alive
    contradiction
  rcases calls with silent | ⟨rfl, after⟩
  · refine ⟨(fate_of_silent silent).trans supervised.parentRunning, fun _ => ?_, fun past => ?_, fun _ => ?_⟩
    · exact (fate_of_silent silent).trans turn.running
    · exact absurd (notCollected.symm.trans past) (by simp)
    · simp only [fate_of_silent silent, turn.running]
      simp
  · refine ⟨?_, fun used => ?_, fun past => ?_, fun _ => ?_⟩
    · cases r <;> simp [World.fate, supervised.parentRunning]
    · exact absurd (after.symm.trans used) (by simp)
    · exact absurd (notCollected.symm.trans past) (by simp)
    · cases r <;> simp only [World.fate, turn.running, Status.kill]
      case ok => split <;> simp
      all_goals simp

end Oreo.Posix
