import Oreo.Posix.Ledger

namespace Oreo.Posix

open Oreo.Transition

/-! # A parent and the one child it forks -/

variable {L : Type*} {prog : Program L} {allowed : World L → Label → Prop}
variable {w w' start : World L} {p c q : Proc L} {call : Call} {r : Reply} {index : Nat}

/-- A program that forks at most once: `Before` holds of the local states before the
`fork`, and `pidOf` is the variable that receives its result. -/
structure ForksOnce (prog : Program L) (Before : L → Prop) (pidOf : L → Int) : Prop where
  before : ∀ l, prog.request l = some .fork → Before l
  after : ∀ l r, prog.request l = some .fork → ¬ Before (prog.resume l r)
  stays : ∀ l call r, prog.request l = some call → call ≠ .fork → ¬ Before l → ¬ Before (prog.resume l r)
  result : ∀ l n, prog.request l = some .fork → pidOf (prog.resume l (.pid n)) = n
  keeps : ∀ l call r, prog.request l = some call → call ≠ .fork → ¬ Before l →
    pidOf (prog.resume l r) = pidOf l

/-- The world of a parent and its child, and what their `pid` variables hold. -/
structure IsPair (Before : L → Prop) (pidOf : L → Int) (w : World L) (p c : Proc L) : Prop where
  procs : w.procs = [p, c]
  parentAfter : ¬ Before p.locals
  childAfter : ¬ Before c.locals
  parentPid : pidOf p.locals = c.id
  childPid : pidOf c.locals = 0
  positive : 0 < c.id
  distinct : p.id ≠ c.id

@[simp] theorem Proc.advance_locals (prog : Program L) (p : Proc L) (call : Call) (r : Reply) :
    (p.advance prog call r).locals = prog.resume p.locals r := rfl

@[simp] theorem Proc.advance_id (prog : Program L) (p : Proc L) (call : Call) (r : Reply) :
    (p.advance prog call r).id = p.id := rfl

@[simp] theorem Proc.advance_handles (prog : Program L) (p : Proc L) (call : Call) (r : Reply) :
    (p.advance prog call r).handles = chargeHandles p.handles call r := rfl

@[simp] theorem Proc.advance_tally (prog : Program L) (p : Proc L) (call : Call) (r : Reply) :
    (p.advance prog call r).tally = p.tally.charge call r := rfl

@[simp] theorem Proc.spawn_locals (prog : Program L) (p : Proc L) (id : Int) :
    (p.spawn prog id).locals = prog.resume p.locals (.pid 0) := rfl

@[simp] theorem Proc.spawn_id (prog : Program L) (p : Proc L) (id : Int) : (p.spawn prog id).id = id := rfl

@[simp] theorem Proc.spawn_status (prog : Program L) (p : Proc L) (id : Int) :
    (p.spawn prog id).status = .running := rfl

@[simp] theorem Proc.spawn_handles (prog : Program L) (p : Proc L) (id : Int) :
    (p.spawn prog id).handles = p.handles := rfl

@[simp] theorem Proc.spawn_tally (prog : Program L) (p : Proc L) (id : Int) :
    (p.spawn prog id).tally = .zero := rfl

theorem Turn.of_pair (turn : Turn prog w index q call r) (procs : w.procs = [p, c]) :
    (index = 0 ∧ q = p) ∨ (index = 1 ∧ q = c) := by
  have found := turn.at_
  rw [procs] at found
  match index with
  | 0 => exact .inl ⟨rfl, (Option.some.inj found).symm⟩
  | 1 => exact .inr ⟨rfl, (Option.some.inj found).symm⟩
  | index + 2 => simp at found

theorem Turn.of_single (turn : Turn prog w index q call r) (procs : w.procs = [p]) : index = 0 ∧ q = p := by
  have found := turn.at_
  rw [procs] at found
  cases index with
  | zero => exact ⟨rfl, (Option.some.inj found).symm⟩
  | succ index => simp at found

theorem procs_after_single (procs : w.procs = [p]) :
    (w.answer prog 0 p call r).procs =
      { p.advance prog call r with status := w.fate prog 0 0 p call r } :: p.offspring prog call r := by
  simp [World.answer, World.signalled, procs, Proc.advance]

theorem IsPair.notFork {Before : L → Prop} {pidOf : L → Int} (pair : IsPair Before pidOf w p c)
    (once : ForksOnce prog Before pidOf) (turn : Turn prog w index q call r) : call ≠ .fork := by
  intro same
  subst same
  rcases turn.of_pair pair.procs with ⟨-, rfl⟩ | ⟨-, rfl⟩
  · exact pair.parentAfter (once.before _ turn.request)
  · exact pair.childAfter (once.before _ turn.request)

theorem offspring_eq_nil (p : Proc L) (noChild : ∀ n, ¬ (call = .fork ∧ r = .pid n)) :
    p.offspring prog call r = [] := by
  unfold Proc.offspring
  split
  · exact absurd ⟨rfl, rfl⟩ (noChild _)
  · rfl

theorem procs_after_parent (procs : w.procs = [p, c]) (notFork : call ≠ .fork) :
    (w.answer prog 0 p call r).procs =
      [{ p.advance prog call r with status := w.fate prog 0 0 p call r },
        { c with status := w.fate prog 0 1 c call r }] := by
  have none : p.offspring prog call r = [] := offspring_eq_nil p fun _ both => notFork both.1
  simp [World.answer, World.signalled, procs, none, Proc.advance]

theorem procs_after_child (procs : w.procs = [p, c]) (notFork : call ≠ .fork) :
    (w.answer prog 1 c call r).procs =
      [{ p with status := w.fate prog 1 0 p call r },
        { c.advance prog call r with status := w.fate prog 1 1 c call r }] := by
  have none : c.offspring prog call r = [] := offspring_eq_nil c fun _ both => notFork both.1
  simp [World.answer, World.signalled, procs, none, Proc.advance]

theorem total_pair (procs : w.procs = [p, c]) (count : Tally → Nat) :
    w.total count = count p.tally + count c.tally := by
  simp [World.total, procs]

theorem zombie_of_pair {index : Nat} (procs : w.procs = [p, c]) (zombie : w.zombie? prog = some index) :
    index = 1 ∧ c.finished prog = true := by
  obtain ⟨positive, q, found, finished⟩ := zombie_found zombie
  rw [procs] at found
  match index, positive with
  | 1, _ =>
      obtain rfl : c = q := Option.some.inj found
      exact ⟨rfl, finished⟩
  | index + 2, _ => simp at found

theorem zombie_of_finished (procs : w.procs = [p, c]) (finished : c.finished prog = true)
    (waiting : c.status ≠ .reaped) : w.zombie? prog = some 1 := by
  simp [World.zombie?, procs, List.range_succ, finished, waiting]

section Invariant

variable {Before : L → Prop} {pidOf : L → Int}

/-- The parent keeps `Alone` until it forks; the fork establishes `Inv`, and every
step of either process keeps it. -/
theorem pair_invariant (Alone : Proc L → Prop) (Inv : Proc L → Proc L → Prop)
    (once : ForksOnce prog Before pidOf) {first : Proc L}
    (single : start.procs = [first]) (initial : Alone first)
    (alone : ∀ w p call r, allowed w ⟨0, r⟩ → Turn prog w 0 p call r →
      (∀ n, ¬ (call = .fork ∧ r = .pid n)) → Alone p →
      Alone { p.advance prog call r with status := w.fate prog 0 0 p call r })
    (forked : ∀ w p n, allowed w ⟨0, .pid n⟩ → Turn prog w 0 p .fork (.pid n) → Alone p →
      Inv (p.advance prog .fork (.pid n)) (p.spawn prog n))
    (parent : ∀ w p c call r, Reachable (step prog) allowed start w → IsPair Before pidOf w p c →
      allowed w ⟨0, r⟩ → Turn prog w 0 p call r → Inv p c →
      Inv { p.advance prog call r with status := w.fate prog 0 0 p call r }
        { c with status := w.fate prog 0 1 c call r })
    (child : ∀ w p c call r, Reachable (step prog) allowed start w → IsPair Before pidOf w p c →
      allowed w ⟨1, r⟩ → Turn prog w 1 c call r → Inv p c →
      Inv { p with status := w.fate prog 1 0 p call r }
        { c.advance prog call r with status := w.fate prog 1 1 c call r })
    (reachable : Reachable (step prog) allowed start w) :
    (∃ p, w.procs = [p] ∧ Alone p) ∨ ∃ p c, IsPair Before pidOf w p c ∧ Inv p c := by
  apply reachable.invariant _ (.inl ⟨first, single, initial⟩)
  intro w label next reachable shape permitted stepped
  obtain ⟨index, reply⟩ := label
  obtain ⟨q, call, turn, rfl⟩ := step_eq_some.mp stepped
  dsimp only at turn ⊢
  rcases shape with ⟨p, procs, holds⟩ | ⟨p, c, pair, holds⟩
  · -- a fork makes a pair, anything else leaves the parent alone
    obtain ⟨rfl, rfl⟩ := turn.of_single procs
    by_cases forks : ∃ n, call = .fork ∧ reply = .pid n
    · obtain ⟨n, rfl, rfl⟩ := forks
      have fresh : 0 < n ∧ q.id ≠ n := by
        simpa [World.possible, World.natural, Reply.failed, procs] using turn.possible
      refine .inr ⟨q.advance prog .fork (.pid n), q.spawn prog n, ⟨?_, ?_, ?_, ?_, ?_, fresh.1, fresh.2⟩,
        forked _ _ _ permitted turn holds⟩
      · exact procs_after_single procs
      · exact once.after _ _ turn.request
      · exact once.after _ _ turn.request
      · exact once.result _ _ turn.request
      · exact once.result _ _ turn.request
    · have noChild : ∀ n, ¬ (call = .fork ∧ reply = .pid n) := fun n both => forks ⟨n, both⟩
      refine .inl ⟨_, ?_, alone _ _ _ _ permitted turn noChild holds⟩
      rw [procs_after_single procs, offspring_eq_nil q noChild]
  · have notFork := pair.notFork once turn
    right
    rcases turn.of_pair pair.procs with ⟨rfl, rfl⟩ | ⟨rfl, rfl⟩
    · refine ⟨_, _, ⟨procs_after_parent pair.procs notFork, ?_, pair.childAfter, ?_, pair.childPid,
        pair.positive, pair.distinct⟩, parent _ _ _ _ _ reachable pair permitted turn holds⟩
      · exact once.stays _ _ _ turn.request notFork pair.parentAfter
      · exact (once.keeps _ _ _ turn.request notFork pair.parentAfter).trans pair.parentPid
    · refine ⟨_, _, ⟨procs_after_child pair.procs notFork, pair.parentAfter, ?_, pair.parentPid, ?_,
        pair.positive, pair.distinct⟩, child _ _ _ _ _ reachable pair permitted turn holds⟩
      · exact once.stays _ _ _ turn.request notFork pair.childAfter
      · exact (once.keeps _ _ _ turn.request notFork pair.childAfter).trans pair.childPid

end Invariant

end Oreo.Posix
