import Oreo.Posix.Descriptors
import Mathlib.Data.List.Nodup

namespace Oreo.Posix.Files

/-! # Sockets that are opened and closed again -/

/-- `close` of an `int`: no descriptor has a negative number. -/
def closeInt (fs : Files) (fd : Int32) : Files := if 0 ≤ fd then fs.close fd.toNatClampNeg else fs

def closeInts (fs : Files) (fds : List Int32) : Files := fds.foldl closeInt fs

/-- The same numbers are in use. -/
def SameUse (fs fs' : Files) : Prop := ∀ n, (fs.description n).isSome = (fs'.description n).isSome

/-- What `fds` holds are the numbers that have been given out. -/
structure Opens (fs fs' : Files) (fds : List Int32) : Prop where
  fresh : ∀ n : Nat, (∃ fd ∈ fds, fd.toInt = n) → fs.description n = none
  held : ∀ n : Nat, (∃ fd ∈ fds, fd.toInt = n) → fs'.description n ≠ none
  others : ∀ n : Nat, (¬ ∃ fd ∈ fds, fd.toInt = n) → fs'.description n = fs.description n
  distinct : (fds.filter fun fd => 0 ≤ fd).Nodup

variable {fs fs' : Files} {fds : List Int32} {granted : Bool}

theorem closeInt_description (fs : Files) (fd : Int32) (n : Nat) :
    (fs.closeInt fd).description n = if fd.toInt = n then none else fs.description n := by
  unfold closeInt
  by_cases nonneg : 0 ≤ fd
  · have number : n = fd.toNatClampNeg ↔ fd.toInt = n := by
      rw [Int32.le_iff_toInt_le] at nonneg
      have nonneg : 0 ≤ fd.toInt := nonneg
      change n = fd.toInt.toNat ↔ _
      omega
    simp only [if_pos nonneg, description_close, number]
  · have other : fd.toInt ≠ n := by
      rw [Int32.le_iff_toInt_le] at nonneg
      have negative : ¬ 0 ≤ fd.toInt := nonneg
      omega
    rw [if_neg nonneg, if_neg other]

theorem closeInts_description (fs : Files) (fds : List Int32) (n : Nat) :
    (fs.closeInts fds).description n = if ∃ fd ∈ fds, fd.toInt = n then none else fs.description n := by
  induction fds generalizing fs with
  | nil => simp [closeInts]
  | cons fd fds ih =>
      have rest := ih (fs.closeInt fd)
      rw [closeInts, List.foldl_cons]
      refine rest.trans ?_
      rw [closeInt_description]
      by_cases later : ∃ other ∈ fds, other.toInt = n
      · have either : ∃ other ∈ fd :: fds, other.toInt = n := by
          obtain ⟨other, member, same⟩ := later
          exact ⟨other, List.mem_cons_of_mem _ member, same⟩
        rw [if_pos later, if_pos either]
      · have either : (∃ other ∈ fd :: fds, other.toInt = n) ↔ fd.toInt = n := by simp [later]
        rw [if_neg later]
        simp only [either]

/-- Closing them leads back. -/
theorem Opens.restored (opens : Opens fs fs' fds) (n : Nat) : (fs'.closeInts fds).description n = fs.description n := by
  rw [closeInts_description]
  split
  · next given => exact (opens.fresh n given).symm
  · next kept => exact opens.others n kept

theorem opens_nil (fs : Files) : Opens fs fs [] := ⟨by simp, by simp, by simp, by simp⟩

/-- A socket that is refused is no number. -/
theorem socket_cases (granted : Bool) (fs : Files) :
    (fs.socket granted).2.toInt = fs.lowest ∧ (∀ n, n ≠ fs.lowest → (fs.socket granted).1.description n = fs.description n) ∧
        (fs.socket granted).1.description fs.lowest ≠ none ∧ granted = true ∧ fs.lowest < 2 ^ 31 ∨
      (fs.socket granted).2 = -1 ∧ (fs.socket granted).1 = fs ∧ ¬ (granted = true ∧ fs.lowest < 2 ^ 31) := by
  unfold socket
  by_cases possible : granted = true ∧ fs.lowest < 2 ^ 31
  · have given : (granted && decide (fs.lowest < 2 ^ 31)) = true := by
      rw [possible.1, decide_eq_true possible.2]
      rfl
    rw [if_pos given]
    refine .inl ⟨Int32.toInt_ofNat_of_lt possible.2, fun n ne => ?_, ?_, possible⟩
    · exact description_install_ne { fs with fresh := fs.fresh + 1 } _ ne
    · have held := description_install { fs with fresh := fs.fresh + 1 } ⟨fs.fresh, 0⟩
      exact fun none => by
        have same : ({ fs with fresh := fs.fresh + 1 } : Files).lowest = fs.lowest := rfl
        rw [same, none] at held
        contradiction
  · have refused : ¬ (granted && decide (fs.lowest < 2 ^ 31)) = true := by simpa using possible
    rw [if_neg refused]
    exact .inr ⟨rfl, rfl, possible⟩

theorem Opens.socket (opens : Opens fs fs' fds) (granted : Bool) :
    Opens fs (fs'.socket granted).1 (fds ++ [(fs'.socket granted).2]) := by
  rcases socket_cases granted fs' with ⟨number, others, held, -, -⟩ | ⟨refused, same, -⟩
  · have free := fs'.description_lowest
    have new : ¬ ∃ fd ∈ fds, fd.toInt = fs'.lowest := fun given => opens.held _ given free
    have split (n : Nat) : (∃ fd ∈ fds ++ [(fs'.socket granted).2], fd.toInt = n) ↔
        (∃ fd ∈ fds, fd.toInt = n) ∨ fs'.lowest = n := by
      simp only [List.mem_append, List.mem_singleton, or_and_right, exists_or, exists_eq_left, number, Int.natCast_inj]
    refine ⟨fun n given => ?_, fun n given => ?_, fun n missing => ?_, ?_⟩
    · rcases (split n).mp given with earlier | rfl
      · exact opens.fresh n earlier
      · rw [← opens.others _ new]
        exact free
    · rcases (split n).mp given with earlier | rfl
      · have ne : n ≠ fs'.lowest := by
          rintro rfl
          exact new earlier
        rw [others n ne]
        exact opens.held n earlier
      · exact held
    · rw [split, not_or] at missing
      rw [others n (Ne.symm missing.2)]
      exact opens.others n missing.1
    · rw [List.filter_append, List.nodup_append]
      refine ⟨opens.distinct, ?_, ?_⟩
      · exact (List.nodup_singleton _).filter _
      · intro fd member other last same
        subst same
        obtain rfl := List.mem_singleton.mp (List.mem_filter.mp last).1
        exact new ⟨_, (List.mem_filter.mp member).1, number⟩
  · have split (n : Nat) : (∃ fd ∈ fds ++ [(fs'.socket granted).2], fd.toInt = n) ↔ ∃ fd ∈ fds, fd.toInt = n := by
      simp [or_and_right, exists_or, refused]
    rw [same]
    refine ⟨fun n given => opens.fresh n ((split n).mp given), fun n given => opens.held n ((split n).mp given),
      fun n missing => opens.others n (mt (split n).mpr missing), ?_⟩
    have negative : ¬ (0 : Int32) ≤ -1 := by decide
    rw [refused, List.filter_append]
    simpa [negative] using opens.distinct

theorem socketReply_nonneg_iff {granted : Nat → Bool} {idx : Nat} (small : (fs.afterSockets granted idx).lowest < 2 ^ 31) :
    0 ≤ fs.socketReply granted idx ↔ granted idx = true := by
  rcases socket_cases (granted idx) (fs.afterSockets granted idx) with ⟨number, -, -, given, -⟩ | ⟨refused, -, impossible⟩
  · rw [socketReply, Int32.le_iff_toInt_le, number]
    exact iff_of_true (Int.natCast_nonneg _) given
  · rw [socketReply, refused]
    exact iff_of_false (by decide) fun given => impossible ⟨given, small⟩

/-- All of them are numbered below the bound if they are granted and there is room for them. -/
theorem socketReplies_below_iff (granted : Nat → Bool) {bound : Nat} (small : bound < 2 ^ 31) (fs : Files) (count : Nat) :
    (∀ i < count, 0 ≤ fs.socketReply granted i ∧ (fs.socketReply granted i).toInt < bound) ↔
      (∀ i < count, granted i = true) ∧ inUse bound fs.descriptors + count ≤ bound := by
  induction count with
  | zero => simpa using inUse_le bound fs.descriptors
  | succ count ih =>
      rw [Nat.forall_lt_succ_right, Nat.forall_lt_succ_right]
      constructor
      · rintro ⟨earlier, last, below⟩
        obtain ⟨all, -⟩ := ih.mp earlier
        have valid : ∀ i ≤ count, 0 ≤ fs.socketReply granted i := fun i inside =>
          (Nat.lt_or_eq_of_le inside).elim (fun before => (earlier i before).1) fun same => same ▸ last
        have room := (socketReply_lt_iff granted bound valid).mp below
        have number := (socket_valid last).2
        rw [socketReply, number] at below
        exact ⟨⟨all, (socketReply_nonneg_iff (by omega)).mp last⟩, by omega⟩
      · rintro ⟨⟨all, last⟩, room⟩
        have earlier := ih.mpr ⟨all, by omega⟩
        have used := inUse_afterSockets granted bound fun i before => (earlier i before).1
        have lowest : (fs.afterSockets granted count).lowest < bound := findIdx_isNone_lt_iff.mpr (by omega)
        have valid : 0 ≤ fs.socketReply granted count := (socketReply_nonneg_iff (by omega)).mpr last
        refine ⟨earlier, valid, ?_⟩
        rw [socketReply, (socket_valid valid).2]
        omega

/-- What a number of calls of `socket` return. -/
def replies (granted : Nat → Bool) (fs : Files) (count : Nat) : List Int32 := (List.range count).map (fs.socketReply granted)

theorem Opens.afterSockets (opens : Opens fs fs' fds) (granted : Nat → Bool) (count : Nat) :
    Opens fs (fs'.afterSockets granted count) (fds ++ fs'.replies granted count) := by
  induction count with
  | zero => simpa [replies, Files.afterSockets] using opens
  | succ count ih =>
      rw [replies, List.range_succ, List.map_append, ← List.append_assoc]
      exact ih.socket (granted count)

/-! ## The numbers depend on nothing but which are in use -/

/-- The lowest free number is the first that is not in use. -/
theorem lowest_eq_iff (fs : Files) (n : Nat) :
    fs.lowest = n ↔ (fs.description n).isSome = false ∧ ∀ m < n, (fs.description m).isSome = true := by
  have below : ∀ m < fs.lowest, (fs.description m).isSome = true := by
    intro m before
    have inside : m < fs.descriptors.length := Nat.lt_of_lt_of_le before List.findIdx_le_length
    have used := List.not_of_lt_findIdx before
    rw [description, List.getElem?_eq_getElem inside]
    simpa using used
  have free : (fs.description fs.lowest).isSome = false := by rw [fs.description_lowest]; rfl
  constructor
  · rintro rfl
    exact ⟨free, below⟩
  · intro first
    obtain ⟨here, before⟩ := first
    rcases Nat.lt_trichotomy fs.lowest n with less | same | more
    · rw [before _ less] at free
      contradiction
    · exact same
    · rw [below n more] at here
      contradiction

theorem SameUse.lowest (same : SameUse fs fs') : fs.lowest = fs'.lowest := by
  rw [lowest_eq_iff]
  obtain ⟨here, before⟩ := (lowest_eq_iff fs' _).mp rfl
  exact ⟨(same _).trans here, fun m below => (same m).trans (before m below)⟩

theorem SameUse.socket (same : SameUse fs fs') (granted : Bool) :
    (fs.socket granted).2 = (fs'.socket granted).2 ∧ SameUse (fs.socket granted).1 (fs'.socket granted).1 := by
  have lowest := same.lowest
  rcases socket_cases granted fs with ⟨number, others, held, given⟩ | ⟨refused, unchanged, not⟩
  · rcases socket_cases granted fs' with ⟨number', others', held', -⟩ | ⟨-, -, not⟩
    · refine ⟨Int32.toInt_inj.mp (by rw [number, number', lowest]), fun n => ?_⟩
      by_cases here : n = fs.lowest
      · subst here
        rw [Option.isSome_iff_ne_none.mpr held, lowest, Option.isSome_iff_ne_none.mpr held']
      · rw [others n here, others' n (by rwa [← lowest])]
        exact same n
    · rw [lowest] at given
      exact absurd given not
  · rcases socket_cases granted fs' with ⟨-, -, -, given⟩ | ⟨refused', unchanged', -⟩
    · rw [← lowest] at given
      exact absurd given not
    · rw [refused, refused', unchanged, unchanged']
      exact ⟨rfl, same⟩

theorem SameUse.afterSockets (same : SameUse fs fs') (granted : Nat → Bool) (count : Nat) :
    SameUse (fs.afterSockets granted count) (fs'.afterSockets granted count) := by
  induction count with
  | zero => exact same
  | succ count ih => exact (ih.socket (granted count)).2

theorem SameUse.socketReply (same : SameUse fs fs') (granted : Nat → Bool) (idx : Nat) :
    fs.socketReply granted idx = fs'.socketReply granted idx :=
  ((same.afterSockets granted idx).socket (granted idx)).1

end Oreo.Posix.Files
