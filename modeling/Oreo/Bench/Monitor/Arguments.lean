import Oreo.Bench.Monitor.Select
import Oreo.Posix.Descriptors
import Mathlib.Algebra.Ring.Int.Defs

namespace Oreo.Bench.Select

open Oreo.Posix Oreo.Posix.Action Oreo.Sampling

/-! # The arguments of `select` and `FD_SET` -/

variable {o : Outcomes}

def sockets (o : Outcomes) (fdCount : Nat) : List Int32 := (List.range fdCount).map o.socket

theorem mem_sockets {fdCount : Nat} {fd : Int32} : fd ∈ sockets o fdCount ↔ ∃ idx < fdCount, o.socket idx = fd := by
  simp [sockets]

theorem opened_length_iff {fdCount : Nat} :
    (opened o fdCount 0).length = fdCount ↔ ∀ idx < fdCount, 0 ≤ o.socket idx := by
  constructor
  · intro complete idx inside
    have all : opened o fdCount 0 = sockets o fdCount := by
      rw [sockets, List.range_eq_range']
      exact (List.takeWhile_prefix _).eq_of_length (by rw [← opened, complete]; simp)
    have member : o.socket idx ∈ opened o fdCount 0 := by
      rw [all]
      exact mem_sockets.mpr ⟨idx, inside, rfl⟩
    have valid := List.mem_takeWhile_imp (p := fun fd => decide (0 ≤ fd)) member
    exact of_decide_eq_true valid
  · intro valid
    rw [opened_all valid]
    simp

theorem readSets_eq_nil_iff {remaining idy : Nat} {monitored : List Int32} :
    readSets o remaining idy monitored = [] ↔ remaining = 0 := by
  cases remaining <;> simp [readSets]

theorem mem_select_events {fdCount iterCnt : Nat} {h : Host} {nfds : Int32} {readfds : List Int32} :
    .select nfds readfds ∈ (run o fdCount iterCnt).events h ↔
      Measures o fdCount iterCnt ∧ nfds = largest o.maxFd (sockets o fdCount) + 1 ∧
        readfds ∈ readSets o iterCnt 0 (sockets o fdCount) := by
  by_cases memory : o.fds = true ∧ o.diffs = true
  · obtain ⟨samples, closed, log⟩ := run_events fdCount iterCnt h memory.1 memory.2
    rw [log]
    by_cases complete : (opened o fdCount 0).length = fdCount
    · have valid := opened_length_iff.mp complete
      rw [if_pos complete, opened_all valid]
      have measured : readfds ∈ readSets o iterCnt 0 (sockets o fdCount) → Measures o fdCount iterCnt := by
        intro member
        refine ⟨memory.1, memory.2, ?_, valid⟩
        apply Nat.pos_of_ne_zero
        intro none
        rw [readSets_eq_nil_iff.mpr none] at member
        contradiction
      simp only [List.mem_append, List.mem_map, reduceCtorEq, and_false, exists_false, false_or, or_false,
        Event.select.injEq]
      constructor
      · intro passed
        obtain ⟨set, member, rfl, rfl⟩ := passed
        exact ⟨measured member, rfl, member⟩
      · intro passed
        obtain ⟨-, rfl, member⟩ := passed
        exact ⟨readfds, member, rfl, rfl⟩
    · rw [if_neg complete]
      have early : ¬ Measures o fdCount iterCnt := fun measures => complete (opened_length_iff.mpr measures.sockets)
      simp [early]
  · obtain ⟨closed, log⟩ := run_events_exhausted fdCount iterCnt h memory
    rw [log]
    have early : ¬ Measures o fdCount iterCnt := fun measures => memory ⟨measures.fds, measures.diffs⟩
    simp [early]

/-! ## `nfds` -/

/-- `nfds` is 1 more than the largest one of the descriptors. -/
def Bounds (nfds : Int32) (fds : List Int32) : Prop :=
  ∃ fd ∈ fds, (∀ other ∈ fds, other ≤ fd) ∧ nfds.toInt = fd.toInt + 1

theorem toInt_add_one {fd : Int32} (below : fd ≠ Int32.maxValue) : (fd + 1).toInt = fd.toInt + 1 := by
  have upper : fd.toInt < 2 ^ 31 := fd.toInt_lt
  have lower : -2 ^ 31 ≤ fd.toInt := fd.le_toInt
  have distinct : fd.toInt ≠ 2 ^ 31 - 1 := by
    rw [← Int32.toInt_maxValue]
    exact fun same => below (Int32.toInt_inj.mp same)
  have one : (1 : Int32).toInt = 1 := rfl
  rw [Int32.toInt_add, one]
  exact Int.bmod_eq_of_le (by omega) (by omega)

theorem maxValue_add_one : ((Int32.maxValue + 1 : Int32)).toInt = -2 ^ 31 := by decide

/-- A running maximum gives the bound if it does not keep the value it starts from. -/
theorem bounds_largest_iff {fds : List Int32} (valid : ∀ fd ∈ fds, 0 ≤ fd) (seed : Int32) :
    Bounds (largest seed fds + 1) fds ↔ (∃ fd ∈ fds, seed ≤ fd) ∧ ∀ fd ∈ fds, fd ≠ Int32.maxValue := by
  obtain ⟨fromSeed, above⟩ := le_largest seed fds
  constructor
  · intro bounds
    obtain ⟨fd, member, upper, next⟩ := bounds
    have nonneg : 0 ≤ fd.toInt := Int32.le_iff_toInt_le.mp (valid fd member)
    have small : largest seed fds ≠ Int32.maxValue := by
      intro greatest
      rw [greatest, maxValue_add_one] at next
      omega
    have same : largest seed fds = fd := by
      rw [toInt_add_one small] at next
      exact Int32.toInt_inj.mp (by omega)
    refine ⟨⟨fd, member, same ▸ fromSeed⟩, ?_⟩
    intro other inList greatest
    apply small
    exact le_antisymm (Int32.le_iff_toInt_le.mpr (Int32.toInt_le _)) (greatest ▸ above other inList)
  · intro displaced
    obtain ⟨⟨fd, member, le⟩, small⟩ := displaced
    have inList : largest seed fds ∈ fds := by
      rcases largest_eq_seed_or_mem seed fds with same | found
      · have equal : largest seed fds = fd := le_antisymm (same.le.trans le) (above fd member)
        rwa [equal]
      · exact found
    exact ⟨_, inList, above, toInt_add_one (small _ inList)⟩

/-- `select_test` passes the right `nfds`, unless what happens to be in `max_fd` is larger than
every socket (or a socket has the largest number there is, and `max_fd + 1` overflows). -/
theorem selectTest_bounds_iff (config : BenchConfig) (o : Outcomes) (h : Host) :
    (∀ nfds readfds, .select nfds readfds ∈ (selectTest config o).events h →
        Bounds nfds (sockets o (fdCount config.iSize))) ↔
      ¬ Measures o (fdCount config.iSize) config.iter ∨
        (∃ fd ∈ sockets o (fdCount config.iSize), o.maxFd ≤ fd) ∧
          ∀ fd ∈ sockets o (fdCount config.iSize), fd ≠ Int32.maxValue := by
  unfold selectTest
  generalize fdCount config.iSize = count
  by_cases measures : Measures o count config.iter
  · have valid : ∀ fd ∈ sockets o count, 0 ≤ fd := by
      intro fd member
      obtain ⟨idx, inside, rfl⟩ := mem_sockets.mp member
      exact measures.sockets idx inside
    obtain ⟨readfds, passed⟩ : ∃ readfds, readfds ∈ readSets o config.iter 0 (sockets o count) :=
      List.exists_mem_of_ne_nil _ fun none => Nat.ne_of_gt measures.iterated (readSets_eq_nil_iff.mp none)
    simp only [measures, not_true_eq_false, false_or]
    rw [← bounds_largest_iff valid]
    constructor
    · exact fun bounds => bounds _ _ (mem_select_events.mpr ⟨measures, rfl, passed⟩)
    · intro bounds nfds readfds called
      rw [(mem_select_events.mp called).2.1]
      exact bounds
  · simp only [measures, not_false_eq_true, true_or, iff_true]
    intro nfds readfds called
    exact absurd (mem_select_events.mp called).1 measures

/-- A run with one socket, number 3. -/
def Outcomes.single (maxFd : Int32) (isReady : Bool) : Outcomes :=
  ⟨true, true, maxFd, fun _ => 3, fun _ => some fun _ => isReady, fun _ => 0, fun _ => 0⟩

/-- 100 is left over in `max_fd`. -/
theorem selectTest_keeps_garbage :
    .select 101 [3] ∈ (selectTest ⟨1, .test⟩ (.single 100 true)).events .bare ∧
      ¬ Bounds 101 (sockets (.single 100 true) (fdCount .test)) := by
  refine ⟨by decide, ?_⟩
  intro bounds
  obtain ⟨fd, member, -, next⟩ := bounds
  obtain rfl : fd = 3 := List.mem_singleton.mp member
  exact absurd next (by decide)

/-! ## `readfds` -/

/-- No set lacks a descriptor of the first one if every call that another one follows finds
all of them ready. -/
theorem readSets_full_iff (o : Outcomes) (remaining idy : Nat) (monitored : List Int32) :
    (∀ set ∈ readSets o remaining idy monitored, monitored ⊆ set) ↔
      ∀ count ready, count + 1 < remaining → (∀ earlier < count, (o.ready (idy + earlier)).isSome = true) →
        o.ready (idy + count) = some ready → ∀ fd ∈ monitored, ready fd = true := by
  induction remaining generalizing idy with
  | zero => simp [readSets]
  | succ remaining ih =>
      cases answer : o.ready idy with
      | none =>
          constructor
          · intro _ count ready _ before found
            cases count with
            | zero => simp [answer] at found
            | succ count => simpa [answer] using before 0 (Nat.succ_pos count)
          · simp [readSets, answer]
      | some ready =>
          have sets : readSets o (remaining + 1) idy monitored =
              monitored :: readSets o remaining (idy + 1) (monitored.filter ready) := by
            simp only [readSets, answer]
          have later (count : Nat) : idy + 1 + count = idy + (count + 1) := by omega
          rw [sets]
          constructor
          · intro full count ready' bound before found
            have next : monitored ⊆ monitored.filter ready := by
              apply full
              cases remaining with
              | zero => omega
              | succ remaining => simp [readSets]
            have all : ∀ fd ∈ monitored, ready fd = true := fun fd member => (List.mem_filter.mp (next member)).2
            cases count with
            | zero =>
                obtain rfl := Option.some.inj (answer.symm.trans found)
                exact all
            | succ count =>
                rw [List.filter_eq_self.mpr all] at full
                apply (ih (idy + 1)).mp (fun set member => full set (List.mem_cons_of_mem _ member)) count ready' (by omega)
                · intro earlier bound
                  rw [later]
                  exact before (earlier + 1) (by omega)
                · rw [later]
                  exact found
          · intro reports set member
            rcases List.mem_cons.mp member with rfl | inRest
            · exact List.Subset.refl set
            · have another : 0 < remaining := by
                apply Nat.pos_of_ne_zero
                intro none
                rw [readSets_eq_nil_iff.mpr none] at inRest
                contradiction
              rw [List.filter_eq_self.mpr (reports 0 ready (by omega) (by simp) answer)] at inRest
              apply (ih (idy + 1)).mpr _ set inRest
              intro count ready' bound before found
              rw [later] at found
              apply reports (count + 1) ready' (by omega) _ found
              intro earlier within
              cases earlier with
              | zero => simp [answer]
              | succ earlier =>
                  have answered := before earlier (by omega)
                  rwa [later] at answered

/-- Every timed `select` of `select_test` monitors all the sockets, if each one before it found
all of them ready: the set that the kernel leaves is what the next call gets. -/
theorem selectTest_monitors_all_iff (config : BenchConfig) (o : Outcomes) (h : Host) :
    (∀ nfds readfds, .select nfds readfds ∈ (selectTest config o).events h →
        sockets o (fdCount config.iSize) ⊆ readfds) ↔
      ¬ Measures o (fdCount config.iSize) config.iter ∨
        ∀ idy ready, idy + 1 < config.iter → (∀ earlier < idy, (o.ready earlier).isSome = true) →
          o.ready idy = some ready → ∀ fd ∈ sockets o (fdCount config.iSize), ready fd = true := by
  unfold selectTest
  generalize fdCount config.iSize = count
  by_cases measures : Measures o count config.iter
  · have full := readSets_full_iff o config.iter 0 (sockets o count)
    simp only [Nat.zero_add] at full
    simp only [measures, not_true_eq_false, false_or]
    rw [← full]
    constructor
    · intro monitors set passed
      exact monitors _ set (mem_select_events.mpr ⟨measures, rfl, passed⟩)
    · intro all nfds readfds called
      exact all readfds (mem_select_events.mp called).2.2
  · simp only [measures, not_false_eq_true, true_or, iff_true]
    intro nfds readfds called
    exact absurd (mem_select_events.mp called).1 measures

/-- The only socket is not ready: the second call monitors nothing. -/
theorem selectTest_forgets_sockets :
    .select 4 [] ∈ (selectTest ⟨2, .test⟩ (.single 0 false)).events .bare ∧
      ¬ sockets (.single 0 false) (fdCount .test) ⊆ [] := by
  decide

/-! ## `FD_SET` -/

def fdSetSize : Nat := 1024

/-- The sockets get the lowest numbers that the process has not in use yet. -/
def Outcomes.lowestFree (o : Outcomes) (granted : Nat → Bool) (fs : Files) : Outcomes :=
  { o with socket := fs.socketReply granted }

@[simp] theorem lowestFree_socket (o : Outcomes) (granted : Nat → Bool) (fs : Files) :
    (o.lowestFree granted fs).socket = fs.socketReply granted := rfl

theorem mem_fdSet_events {fdCount iterCnt : Nat} {h : Host} {fd : Int32} :
    .fdSet fd ∈ (run o fdCount iterCnt).events h ↔ (o.fds = true ∧ o.diffs = true) ∧ fd ∈ opened o fdCount 0 := by
  by_cases memory : o.fds = true ∧ o.diffs = true
  · obtain ⟨samples, closed, log⟩ := run_events fdCount iterCnt h memory.1 memory.2
    rw [log]
    simp [memory]
  · obtain ⟨closed, log⟩ := run_events_exhausted fdCount iterCnt h memory
    rw [log]
    simp only [memory, false_and]
    simp

/-- `FD_SET` stays inside of the `fd_set` if there is room below `FD_SETSIZE`: for each socket,
and for the descriptors that are open there when the test starts. -/
theorem selectTest_inside_fdSet_iff (config : BenchConfig) (o : Outcomes) (granted : Nat → Bool) (h : Host) :
    (∀ fd, .fdSet fd ∈ (selectTest config (o.lowestFree granted h.files)).events h → fd.toInt < (fdSetSize : Int)) ↔
      ¬ (o.fds = true ∧ o.diffs = true) ∨
        ∀ idx < fdCount config.iSize, (∀ earlier ≤ idx, 0 ≤ h.files.socketReply granted earlier) →
          inUse fdSetSize h.files.descriptors + idx < fdSetSize := by
  unfold selectTest
  generalize fdCount config.iSize = count
  have memory : (o.lowestFree granted h.files).fds = o.fds ∧ (o.lowestFree granted h.files).diffs = o.diffs := ⟨rfl, rfl⟩
  simp only [mem_fdSet_events, memory.1, memory.2, mem_opened, Nat.zero_add]
  by_cases memory : o.fds = true ∧ o.diffs = true
  · simp only [memory, true_and, and_self, not_true_eq_false, false_or]
    constructor
    · intro inside idx bound valid
      exact (Files.socketReply_lt_iff granted fdSetSize valid).mp (inside _ ⟨idx, bound, rfl, valid⟩)
    · intro room fd put
      obtain ⟨idx, bound, rfl, valid⟩ := put
      exact (Files.socketReply_lt_iff granted fdSetSize valid).mpr (room idx bound valid)
  · simp [memory]

/-- A process that has 25 descriptors open when the test starts. -/
def crowded : Host := ⟨⟨fun _ => none, fun _ => [], 1, List.replicate 25 (some ⟨0, 0⟩)⟩, false, []⟩

/-- The last one of 1000 sockets has the number 1024. -/
theorem selectTest_leaves_fdSet :
    ∃ fd, .fdSet fd ∈ (selectTest ⟨1, .large⟩ ((Outcomes.single 0 true).lowestFree (fun _ => true) crowded.files)).events crowded ∧
      ¬ fd.toInt < (fdSetSize : Int) := by
  have valid : ∀ idx ≤ 999, 0 ≤ crowded.files.socketReply (fun _ => true) idx := by
    intro idx bound
    apply Files.socketReply_nonneg rfl
    have length : crowded.files.descriptors.length = 25 := rfl
    omega
  have taken : inUse fdSetSize crowded.files.descriptors = 25 := by decide
  refine ⟨crowded.files.socketReply (fun _ => true) 999, mem_fdSet_events.mpr ⟨⟨rfl, rfl⟩, mem_opened.mpr ?_⟩, ?_⟩
  · simp only [lowestFree_socket, Nat.zero_add]
    exact ⟨999, by decide, rfl, valid⟩
  · rw [Files.socketReply_lt_iff _ fdSetSize valid, taken]
    decide

end Oreo.Bench.Select
