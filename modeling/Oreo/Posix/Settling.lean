import Oreo.Posix.Rules

namespace Oreo.Posix

open Oreo.Transition

/-! # Programs that are on their way out -/

/-- Calls that wait for another process. -/
def Call.blocks : Call → Bool
  | .read _ | .write _ | .accept _ | .connect _ | .wait => true
  | _ => false

variable {L V : Type}

/-- Whatever the kernel replies, from here on the program makes a bounded number of calls that do
not block, touches nothing, and ends as `final` says. -/
inductive Settles (prog : Program L) (touches : L → Reply → Prop) (final : L → Prop) : L → Prop where
  | ended {l} : prog.request l = none → final l → Settles prog touches final l
  | next {l call} : prog.request l = some call → call.blocks = false → (∀ r, ¬ touches l r) →
      (∀ r, Settles prog touches final (prog.resume l r)) → Settles prog touches final l

/-- What a program does with its memory: the variable that takes the result of an allocation, and
the ones it uses as a pointer in a call or with the reply to it. -/
structure MemoryUse (L V : Type) where
  target : L → V
  uses : L → Reply → List V

/-- The failed allocation made at `l` is never used, and the program returns an error. -/
def HandlesFailure (prog : Program L) (memory : MemoryUse L V) (final : L → Prop) (l : L) (r : Reply) : Prop :=
  memory.target l ∉ memory.uses l r ∧
    Settles prog (fun l' r' => memory.target l ∈ memory.uses l' r') final (prog.resume l r)

/-- In a run every process handles the failures of its allocations. -/
def RunHandlesFailures (prog : Program L) (memory : MemoryUse L V) (final : L → Prop) (trace : List (World L × Label)) :
    Prop :=
  ∀ step ∈ trace, ∀ p, step.1.procs[step.2.proc]? = some p → prog.request p.locals = some .allocate →
    step.2.reply.failed = true → HandlesFailure prog memory final p.locals step.2.reply

theorem procs_of_mem_trace {prog : Program L} {allowed : World L → Label → Prop} {start w : World L}
    {trace : List (World L × Label)} {P : Proc L → Prop} (run : Run (step prog) allowed start trace w)
    (always : ∀ w', Reachable (step prog) allowed start w' → ∀ (index : Nat) (p : Proc L), w'.procs[index]? = some p → P p)
    {taken : World L × Label} (member : taken ∈ trace) {p : Proc L} (found : taken.1.procs[taken.2.proc]? = some p) : P p := by
  obtain ⟨front, back, position⟩ := List.append_of_mem member
  obtain ⟨before, -⟩ := run.split position
  exact always taken.1 ⟨front, before⟩ _ p found

end Oreo.Posix
