import Oreo.Posix.Blocking
import Oreo.Transition.History

namespace Oreo.Posix

open Oreo.Transition

/-! # A parent that makes one child after the other

Process 0 collects every child before it makes the next.
-/

variable {L : Type*} {prog : Program L} {w : World L} {p q c : Proc L} {call : Call} {r : Reply} {index n : Nat}

/-- Process 0 has made `n` children, and has collected them. -/
structure Alone (w : World L) (n : Nat) : Prop where
  count : w.procs.length = n + 1
  collected : ∀ index q, 0 < index → w.procs[index]? = some q → q.status = .reaped

/-- Process 0 has made one more child, which it has not collected. -/
structure Attends (w : World L) (n : Nat) (c : Proc L) : Prop where
  count : w.procs.length = n + 2
  collected : ∀ index q, 0 < index → index ≤ n → w.procs[index]? = some q → q.status = .reaped
  found : w.procs[n + 1]? = some c
  present : c.status ≠ .reaped

theorem length_answer : (w.answer prog index p call r).procs.length = w.procs.length + (p.offspring prog call r).length := by
  simp [World.answer, World.signalled]

theorem fate_of_reaped {actor other : Nat} (reaped : q.status = .reaped) :
    w.fate prog actor other q call r = .reaped := by
  unfold World.fate
  split <;> simp [reaped, Status.kill]

theorem zombie_unreaped (zombie : w.zombie? prog = some index) :
    ∃ q, w.procs[index]? = some q ∧ 0 < index ∧ q.status ≠ .reaped ∧ q.finished prog = true := by
  have holds := List.find?_some zombie
  grind

theorem fork_reply (possible : w.possible prog p .fork r = true) :
    (∃ id, 0 < id ∧ r = .pid id) ∨ ∃ errno, r = .fail errno := by
  cases r <;> simp [World.possible, World.natural, Call.fallible, Reply.failed] at possible ⊢
  exact possible.1

theorem clock_reply (possible : w.possible prog p .clock r = true) : ∃ t, r = .time t := by
  cases r <;> simp [World.possible, World.natural, Call.fallible] at possible ⊢

/-- What a call leaves of the process that makes it. -/
theorem answer_self (turn : Turn prog w index p call r) : (w.answer prog index p call r).procs[index]? =
    some { p.advance prog call r with status := w.fate prog index index p call r } := by
  have inside : index < w.procs.length := (List.getElem?_eq_some_iff.mp turn.at_).1
  have next := List.getElem?_eq_getElem (l := (w.answer prog index p call r).procs) (i := index)
    (by rw [length_answer]; omega)
  rcases answer_procs_cases turn next with ⟨other, -⟩ | ⟨-, same⟩ | ⟨last, -⟩
  · exact absurd rfl other
  · rw [next, same]
  · omega

theorem answer_other (turn : Turn prog w index p call r) {other : Nat} (different : other ≠ index)
    (found : w.procs[other]? = some q) :
    (w.answer prog index p call r).procs[other]? = some { q with status := w.fate prog index other q call r } := by
  have inside : other < w.procs.length := (List.getElem?_eq_some_iff.mp found).1
  have next := List.getElem?_eq_getElem (l := (w.answer prog index p call r).procs) (i := other)
    (by rw [length_answer]; omega)
  rcases answer_procs_cases turn next with ⟨-, q', same, after⟩ | ⟨here, -⟩ | ⟨last, -⟩
  · obtain rfl := Option.some_inj.mp (same.symm.trans found)
    rw [next, after]
  · exact absurd here different
  · omega

theorem collected_answer (turn : Turn prog w index p call r) {other : Nat} (different : other ≠ index)
    (old : other ≠ w.procs.length) (collected : ∀ q, w.procs[other]? = some q → q.status = .reaped)
    (found : (w.answer prog index p call r).procs[other]? = some q) : q.status = .reaped := by
  rcases answer_procs_cases turn found with ⟨-, q', same, rfl⟩ | ⟨here, -⟩ | ⟨last, -⟩
  · exact fate_of_reaped (collected q' same)
  · exact absurd here different
  · exact absurd last old

theorem old_of_noChild (noChild : p.offspring prog call r = []) {other : Nat}
    (found : (w.answer prog index p call r).procs[other]? = some q) : other ≠ w.procs.length := by
  have inside := (List.getElem?_eq_some_iff.mp found).1
  rw [length_answer, noChild, List.length_nil] at inside
  omega

namespace Alone

theorem boot (machine : Machine) (locals : L) : Alone (World.boot machine locals) 0 := by
  refine ⟨rfl, fun index q positive found => ?_⟩
  rw [World.boot, List.getElem?_eq_none (Nat.succ_le_of_lt positive)] at found
  contradiction

variable (alone : Alone w n)
include alone

theorem actor (turn : Turn prog w index p call r) : index = 0 := by
  by_contra other
  have reaped := alone.collected index p (Nat.pos_of_ne_zero other) turn.at_
  rw [turn.running] at reaped
  contradiction

theorem answer (turn : Turn prog w 0 p call r) (noChild : p.offspring prog call r = []) :
    Alone (w.answer prog 0 p call r) n := by
  refine ⟨by rw [length_answer, noChild, alone.count]; rfl, fun index q positive found => ?_⟩
  exact collected_answer turn (Nat.ne_of_gt positive) (old_of_noChild noChild found)
    (fun q before => alone.collected index q positive before) found

theorem fork {child : Int} (turn : Turn prog w 0 p .fork (.pid child)) :
    Attends (w.answer prog 0 p .fork (.pid child)) n (p.spawn prog child) := by
  have count : (w.answer prog 0 p .fork (.pid child)).procs.length = n + 2 := by
    rw [length_answer, alone.count]
    rfl
  refine ⟨count, fun index q positive upTo found => ?_, ?_, by simp [Proc.spawn]⟩
  · have before := alone.count
    exact collected_answer turn (Nat.ne_of_gt positive) (by omega) (fun q before => alone.collected index q positive before) found
  · have next := List.getElem?_eq_getElem (l := (w.answer prog 0 p .fork (.pid child)).procs) (i := n + 1) (by omega)
    rcases answer_procs_cases turn next with ⟨-, q', same, -⟩ | ⟨here, -⟩ | ⟨-, m, -, reply, born⟩
    · rw [List.getElem?_eq_none (by rw [alone.count])] at same
      contradiction
    · contradiction
    · obtain rfl := Reply.pid.inj reply
      rw [next, born]

end Alone

namespace Attends

variable (attends : Attends w n c)
include attends

theorem actor (turn : Turn prog w index p call r) : index = 0 ∨ index = n + 1 ∧ p = c := by
  have inside : index < w.procs.length := (List.getElem?_eq_some_iff.mp turn.at_).1
  have count := attends.count
  by_cases first : index = 0
  · exact .inl first
  · by_cases earlier : index ≤ n
    · have reaped := attends.collected index p (Nat.pos_of_ne_zero first) earlier turn.at_
      rw [turn.running] at reaped
      contradiction
    · obtain rfl : index = n + 1 := by omega
      exact .inr ⟨rfl, Option.some_inj.mp (turn.at_.symm.trans attends.found)⟩

theorem parent (turn : Turn prog w 0 p call r) (silent : call.signals = false) (noChild : p.offspring prog call r = []) :
    Attends (w.answer prog 0 p call r) n c := by
  refine ⟨by rw [length_answer, noChild, attends.count]; rfl, fun index q positive upTo found => ?_, ?_, attends.present⟩
  · exact collected_answer turn (Nat.ne_of_gt positive) (old_of_noChild noChild found)
      (fun q before => attends.collected index q positive upTo before) found
  · rw [answer_other turn (Nat.succ_ne_zero n) attends.found, fate_of_silent silent]

theorem child (turn : Turn prog w (n + 1) c call r) (noChild : c.offspring prog call r = [])
    (present : w.fate prog (n + 1) (n + 1) c call r ≠ .reaped) : Attends (w.answer prog (n + 1) c call r) n
      { c.advance prog call r with status := w.fate prog (n + 1) (n + 1) c call r } := by
  refine ⟨by rw [length_answer, noChild, attends.count]; rfl, fun index q positive upTo found => ?_, answer_self turn, present⟩
  exact collected_answer turn (by omega) (old_of_noChild noChild found)
    (fun q before => attends.collected index q positive upTo before) found

/-- The child that `wait` finds is the last one, and it has ended. -/
theorem wait (turn : Turn prog w 0 p .wait .ok) :
    c.finished prog = true ∧ Alone (w.answer prog 0 p .wait .ok) (n + 1) := by
  have natural : w.natural prog p .wait .ok = true := by simpa [World.possible] using turn.possible
  obtain ⟨index, zombie⟩ := Option.isSome_iff_exists.mp natural
  obtain ⟨q, found, positive, unreaped, finished⟩ := zombie_unreaped zombie
  have last : index = n + 1 := by
    by_contra other
    have inside : index < w.procs.length := (List.getElem?_eq_some_iff.mp found).1
    have count := attends.count
    exact unreaped (attends.collected index q positive (by omega) found)
  subst last
  obtain rfl := Option.some_inj.mp (found.symm.trans attends.found)
  refine ⟨finished, by rw [length_answer, attends.count]; rfl, fun index q' positive after => ?_⟩
  by_cases last : index = n + 1
  · subst last
    rw [answer_other turn (Nat.succ_ne_zero n) attends.found] at after
    obtain rfl := Option.some_inj.mp after
    simp [World.fate, zombie]
  · have inside : index < (w.answer prog 0 p .wait .ok).procs.length := (List.getElem?_eq_some_iff.mp after).1
    have count : (w.answer prog 0 p .wait .ok).procs.length = n + 2 := by rw [length_answer, attends.count]; rfl
    have before := attends.count
    exact collected_answer turn (Nat.ne_of_gt positive) (by omega)
      (fun q same => attends.collected index q positive (by omega) same) after

end Attends

/-! ## The value in shared memory -/

/-- Who wrote the shared value last, and what. -/
def lastStamp (prog : Program L) : List (World L × Label) → Option (Nat × UInt64) :=
  latest fun taken =>
    if (taken.1.procs[taken.2.proc]?).bind (fun p => prog.request p.locals) = some .stampShared then
      some (taken.2.proc, taken.2.reply.stamp)
    else none

theorem lastStamp_stamp (turn : Turn prog w index p .stampShared r) (trace : List (World L × Label)) :
    lastStamp prog (trace ++ [(w, ⟨index, r⟩)]) = some (index, r.stamp) := by
  simp [lastStamp, latest_snoc, turn.at_, turn.request]

theorem lastStamp_other (turn : Turn prog w index p call r) (unstamped : call ≠ .stampShared)
    (trace : List (World L × Label)) : lastStamp prog (trace ++ [(w, ⟨index, r⟩)]) = lastStamp prog trace := by
  simp [lastStamp, latest_snoc, turn.at_, turn.request, unstamped]

theorem shared_account (unstamped : call ≠ .stampShared) : (w.account call r).shared = w.shared := by
  unfold World.account
  split <;> first | rfl | contradiction

end Oreo.Posix
