import Oreo.Bench.Socket.Model

namespace Oreo.Bench.Socket

open Oreo.Posix

/-! # Loops around a non-blocking `send` -/

inductive Outcome (msgSize : Nat) where
  | full
  | short (n : Nat) (positive : 0 < n) (incomplete : n < msgSize)
  | fail (errno : Errno)

structure Attempt (msgSize : Nat) where
  outcome : Outcome msgSize
  began : UInt64
  ended : UInt64

variable {msgSize : Nat} {L : Type*}

def Outcome.isFull : Outcome msgSize → Bool
  | .full => true
  | _ => false

def Outcome.reply : Outcome msgSize → Reply
  | .full => .size msgSize
  | .short n _ _ => .size n
  | .fail e => .fail e

theorem possible_send_iff {prog : Program L} {w : World L} {p : Proc L} {h : Handle} {r : Reply}
    (positive : 0 < msgSize) :
    w.possible prog p (.send (some h) msgSize) r = true ↔ ∃ outcome : Outcome msgSize, r = outcome.reply := by
  constructor
  · intro possible
    cases r with
    | size n =>
        obtain ⟨some_, bounded⟩ : 0 < n ∧ n ≤ msgSize := by
          simpa [World.possible, World.natural, Reply.failed] using possible
        rcases Nat.eq_or_lt_of_le bounded with rfl | less
        · exact ⟨.full, rfl⟩
        · exact ⟨.short n some_ less, rfl⟩
    | fail e => exact ⟨.fail e, rfl⟩
    | _ => simp [World.possible, World.natural, Reply.failed] at possible
  · intro some_
    obtain ⟨outcome, rfl⟩ := some_
    cases outcome with
    | full => simp [World.possible, World.natural, Outcome.reply, positive]
    | short n some_ less => simp [World.possible, World.natural, Outcome.reply, some_, Nat.le_of_lt less]
    | fail e => simp [World.possible, Outcome.reply, Call.fallible]

theorem Outcome.count_eq_iff (outcome : Outcome msgSize) :
    outcome.reply.count = msgSize ↔ outcome.isFull = true := by
  cases outcome with
  | full => simp [Outcome.reply, Outcome.isFull]
  | short n positive incomplete =>
      simp only [Outcome.reply, Outcome.isFull, Reply.count_size, Bool.false_eq_true, iff_false]
      omega
  | fail e =>
      simp only [Outcome.reply, Outcome.isFull, Reply.count_fail, Bool.false_eq_true, iff_false]
      omega

/-- `good` holds of every pass of a loop that is entered inside of it. -/
def EveryPass (inside : L → Prop) (pass : L → Attempt msgSize → L) (good : L → Attempt msgSize → Prop) :
    L → List (Attempt msgSize) → Prop
  | _, [] => True
  | l, attempt :: rest => inside l → good l attempt ∧ EveryPass inside pass good (pass l attempt) rest

/-- Until `left` sends were full, none fails with an `errno` other than `EAGAIN`, and
none is short while `errno` holds another value. -/
def Untainted : Nat → Errno → List (Outcome msgSize) → Prop
  | 0, _, _ => True
  | _ + 1, _, [] => True
  | left + 1, errno, .full :: rest => Untainted left errno rest
  | left + 1, errno, .short _ _ _ :: rest => errno = .eagain ∧ Untainted (left + 1) errno rest
  | left + 1, _, .fail e :: rest => e = .eagain ∧ Untainted (left + 1) e rest

/-- What an attempt leaves of the number of samples to take. -/
def Outcome.leaves (outcome : Outcome msgSize) (left : Nat) : Nat :=
  if outcome.isFull then left - 1 else left

theorem untainted_cons {left : Nat} (loops : 0 < left) (errno : Errno) (outcome : Outcome msgSize)
    (rest : List (Outcome msgSize)) :
    Untainted left errno (outcome :: rest) ↔
      (outcome.isFull = true ∨ outcome.reply.errno errno = .eagain) ∧
        Untainted (outcome.leaves left) (outcome.reply.errno errno) rest := by
  obtain ⟨left, rfl⟩ : ∃ n, left = n + 1 := ⟨left - 1, by omega⟩
  cases outcome <;> simp [Untainted, Outcome.isFull, Outcome.leaves, Outcome.reply, Reply.errno]

/-- A loop that makes a pass for every attempt until `left` of them were full, and
goes wrong exactly where an attempt is not full and `errno` is not `EAGAIN`. -/
theorem everyPass_iff {inside : L → Prop} {pass : L → Attempt msgSize → L} {good : L → Attempt msgSize → Prop}
    (AtHead : Nat → Errno → L → Prop)
    (inside_iff : ∀ left errno l, AtHead left errno l → (inside l ↔ 0 < left))
    (good_iff : ∀ left errno l attempt, 0 < left → AtHead left errno l →
      (good l attempt ↔ attempt.outcome.isFull = true ∨ attempt.outcome.reply.errno errno = .eagain))
    (next : ∀ left errno l attempt, 0 < left → AtHead left errno l → good l attempt →
      AtHead (attempt.outcome.leaves left) (attempt.outcome.reply.errno errno) (pass l attempt))
    {left : Nat} {errno : Errno} {l : L} (atHead : AtHead left errno l) (attempts : List (Attempt msgSize)) :
    EveryPass inside pass good l attempts ↔ Untainted left errno (attempts.map Attempt.outcome) := by
  induction attempts generalizing left errno l with
  | nil => cases left <;> simp [EveryPass, Untainted]
  | cons attempt rest ih =>
      rw [EveryPass, inside_iff left errno l atHead, List.map_cons]
      rcases Nat.eq_zero_or_pos left with rfl | loops
      · simp [Untainted]
      · rw [untainted_cons loops, ← good_iff left errno l attempt loops atHead]
        simp only [loops, true_implies]
        exact and_congr_right fun holds => ih (next left errno l attempt loops atHead holds)

end Oreo.Bench.Socket
