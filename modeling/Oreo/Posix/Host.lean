import Oreo.Posix.Files
import Oreo.Transition.Triples
import Mathlib.Tactic.TypeStar

namespace Oreo.Posix

open Oreo.Transition

/-! # A test that runs alone: its memory, its files, and what it passes on -/

/-- The accesses that end a process. -/
inductive Fault where
  | nullPointer
  /-- An access through `MAP_FAILED`. -/
  | mapFailed
  /-- An access to a mapping behind the end of its file. -/
  | bus
deriving DecidableEq, Repr

inductive Event where
  /-- The samples `collect_results` gets. -/
  | collect (samples : List Nat)
  | fdSet (fd : Int32)
  /-- `select` with `nfds` and the members of `readfds`. -/
  | select (nfds : Int32) (readfds : List Int32)
  | close (fd : Int32)
deriving DecidableEq, Repr

structure Host where
  files : Files
  /-- Whether `malloc`, `calloc` or `mmap` has failed. -/
  exhausted : Bool
  log : List Event

abbrev Action := Effect Fault Host

/-- A pointer to an array, `none` being `NULL`. -/
abbrev Pointer (α : Type) := Option (List α)

/-- What `mmap` returns for a file, `none` being `MAP_FAILED`. -/
abbrev Mapping := Option Nat

namespace Host

def exhaust (h : Host) : Host := { h with exhausted := true }

def append (h : Host) (events : List Event) : Host := { h with log := h.log ++ events }

def record (event : Event) (h : Host) : Host := h.append [event]

@[simp] theorem append_nil (h : Host) : h.append [] = h := by simp [append]

@[simp] theorem append_append (h : Host) (front back : List Event) :
    (h.append front).append back = h.append (front ++ back) := by
  simp [append]

@[simp] theorem append_exhausted (h : Host) (events : List Event) : (h.append events).exhausted = h.exhausted := rfl

/-- No file, nothing open and nothing done. -/
def bare : Host := ⟨⟨fun _ => none, fun _ => [], 0, []⟩, false, []⟩

@[simp] theorem append_files (h : Host) (events : List Event) : (h.append events).files = h.files := rfl

end Host

namespace Action

variable {α : Type}

/-- `malloc` and `calloc` of an array with these contents. -/
def allocate (granted : Bool) (contents : List α) : Action (Pointer α) :=
  if granted then pure (some contents)
  else do
    modify Host.exhaust
    pure none

def dereference (pointer : Pointer α) : Action (List α) :=
  match pointer with
  | some contents => pure contents
  | none => throw .nullPointer

def memset (pointer : Pointer α) (a : α) : Action (Pointer α) := do
  let contents ← dereference pointer
  pure (some (contents.map fun _ => a))

/-- `pointer[idx] = a`. -/
def store (pointer : Pointer α) (idx : Nat) (a : α) : Action (Pointer α) := do
  let contents ← dereference pointer
  pure (some (contents.set idx a))

def collectResults (diffs : Pointer Nat) : Action Unit := do
  let samples ← dereference diffs
  modify (Host.record (.collect samples))

def mmap (granted : Bool) (fd : Nat) : Action Mapping := do
  let h ← get
  match if granted then h.files.description fd else none with
  | some d => pure (some d.file)
  | none => do
      modify Host.exhaust
      pure none

/-- Reading the first byte of a mapping. -/
def firstByte (addr : Mapping) : Action UInt8 := do
  let h ← get
  match addr with
  | some file =>
      match h.files.bytes file with
      | byte :: _ => pure byte
      | [] => throw .bus
  | none => throw .mapFailed

/-- `close` of every descriptor in an array. -/
def closeAll (fds : Pointer Int32) : Action Unit := do
  let fds ← dereference fds
  modify fun h => h.append (fds.map .close)

/-- Mappings are not counted, and a failed call has no effect. -/
def munmap (_addr : Mapping) : Action Unit := pure ()

def changeFiles (change : Files → Files) : Action Unit := modify fun h => { h with files := change h.files }

def close (fd : Option Nat) : Action Unit :=
  changeFiles fun fs =>
    match fd with
    | some fd => fs.close fd
    | none => fs

def remove (removed : Bool) (path : String) : Action Unit :=
  changeFiles fun fs => if removed then fs.remove path else fs

/-- What a test that starts with an empty log passes on. -/
def events (test : Action α) (h : Host) : List Event := (test.result { h with log := [] }).2.log

/-! ## What the actions return -/

section Results

variable (h : Host) (contents : List α)

@[simp] theorem result_allocate (granted : Bool) :
    (allocate granted contents).result h =
      (.ok (if granted then some contents else none), if granted then h else h.exhaust) := by
  cases granted <;> rfl

@[simp] theorem result_dereference_some : (dereference (some contents)).result h = (.ok contents, h) := rfl

@[simp] theorem result_memset_some (a : α) :
    (memset (some contents) a).result h = (.ok (some (contents.map fun _ => a)), h) := rfl

@[simp] theorem result_store_some (idx : Nat) (a : α) :
    (store (some contents) idx a).result h = (.ok (some (contents.set idx a)), h) := rfl

@[simp] theorem result_collectResults_some (samples : List Nat) :
    (collectResults (some samples)).result h = (.ok ⟨⟩, h.append [.collect samples]) := rfl

@[simp] theorem result_closeAll_some (fds : List Int32) :
    (closeAll (some fds)).result h = (.ok ⟨⟩, h.append (fds.map .close)) := rfl

end Results

/-! ## The actions that leave the files alone -/

section Frame

open Effect

theorem keeps_files_allocate (granted : Bool) (contents : List α) : Keeps Host.files (allocate granted contents) := by
  cases granted
  · exact .bind (.modify fun _ => rfl) fun _ => .pure
  · exact .pure

theorem keeps_files_dereference (pointer : Pointer α) : Keeps Host.files (dereference pointer) := by
  cases pointer with
  | none => exact .throw
  | some contents => exact .pure

theorem keeps_files_memset (pointer : Pointer α) (a : α) : Keeps Host.files (memset pointer a) :=
  .bind (keeps_files_dereference pointer) fun _ => .pure

theorem keeps_files_store (pointer : Pointer α) (idx : Nat) (a : α) : Keeps Host.files (store pointer idx a) :=
  .bind (keeps_files_dereference pointer) fun _ => .pure

theorem keeps_files_collectResults (diffs : Pointer Nat) : Keeps Host.files (collectResults diffs) :=
  .bind (keeps_files_dereference diffs) fun _ => .modify fun _ => rfl

theorem keeps_files_mmap (granted : Bool) (fd : Nat) : Keeps Host.files (mmap granted fd) := by
  refine .bind .get fun h => ?_
  cases if granted then h.files.description fd else none with
  | none => exact .bind (.modify fun _ => rfl) fun _ => .pure
  | some d => exact .pure

theorem keeps_files_firstByte (addr : Mapping) : Keeps Host.files (firstByte addr) := by
  refine .bind .get fun h => ?_
  cases addr with
  | none => exact .throw
  | some file =>
      dsimp only
      cases h.files.bytes file with
      | nil => exact .throw
      | cons byte rest => exact .pure

end Frame

/-! ## What the actions do to the failure of an allocation -/

def Fresh (h : Host) : Prop := h.exhausted = false

/-- The result of a test tells whether an allocation failed. -/
def Reported (ret : Bool) (h : Host) : Prop := h.exhausted = true → ret = true

theorem reported_true (h : Host) : Reported true h := fun _ => rfl

theorem Fresh.reported {h : Host} (fresh : Fresh h) (ret : Bool) : Reported ret h := by
  intro failed
  rw [fresh] at failed
  contradiction

/-- A failed allocation is not used, and the test reports it. -/
def ChecksAllocations (test : Action Bool) (h : Host) : Prop :=
  (test.result h).1 ≠ .error .nullPointer ∧ (test.result h).1 ≠ .error .mapFailed ∧
    ((test.result h).2.exhausted = true → (test.result h).1 = .ok true)

theorem checksAllocations_of_true {test : Action Bool} {h : Host} (returned : (test.result h).1 = .ok true) :
    ChecksAllocations test h := by
  unfold ChecksAllocations
  rw [returned]
  exact ⟨by simp, by simp, fun _ => rfl⟩

theorem checksAllocations_of_ensures {test : Action Bool} {h : Host} (ensures : Effect.Ensures Fresh test Reported)
    (fresh : Fresh h) : ChecksAllocations test h := by
  obtain ⟨ret, h', returned, reported⟩ := ensures h fresh
  unfold ChecksAllocations
  rw [returned]
  refine ⟨by simp, by simp, ?_⟩
  intro failed
  exact congrArg Except.ok (reported failed)

section Ensures

open Effect

variable {P : Host → Prop}

theorem allocate_ensures_after (earlier : Prop) (granted : Bool) (contents : List α) :
    Ensures (fun h => earlier → Fresh h) (allocate granted contents) fun pointer h =>
      earlier → pointer.isSome = true → Fresh h := by
  intro h fresh
  refine ⟨_, _, result_allocate h contents granted, ?_⟩
  cases granted with
  | true => exact fun first _ => fresh first
  | false => simp

theorem allocate_ensures (granted : Bool) (contents : List α) :
    Ensures Fresh (allocate granted contents) fun pointer h => pointer.isSome = true → Fresh h :=
  ((allocate_ensures_after True granted contents).strengthen fun _ fresh _ => fresh).weaken
    fun _ _ after => after trivial

theorem dereference_ensures {pointer : Pointer α} (memory : pointer.isSome = true) :
    Ensures P (dereference pointer) fun _ => P := by
  obtain ⟨contents, rfl⟩ := Option.isSome_iff_exists.mp memory
  exact fun h before => ⟨contents, h, rfl, before⟩

theorem memset_ensures {pointer : Pointer α} (memory : pointer.isSome = true) (a : α) :
    Ensures P (memset pointer a) fun pointer h => pointer.isSome = true ∧ P h :=
  .bind (dereference_ensures memory) fun _ => .pure fun _ before => ⟨rfl, before⟩

theorem store_ensures {pointer : Pointer α} (memory : pointer.isSome = true) (idx : Nat) (a : α) :
    Ensures P (store pointer idx a) fun pointer h => pointer.isSome = true ∧ P h :=
  .bind (dereference_ensures memory) fun _ => .pure fun _ before => ⟨rfl, before⟩

theorem collectResults_ensures {diffs : Pointer Nat} (memory : diffs.isSome = true) :
    Ensures Fresh (collectResults diffs) fun _ => Fresh :=
  .bind (dereference_ensures memory) fun _ => .modify fun _ fresh => fresh

theorem closeAll_ensures {fds : Pointer Int32} (memory : fds.isSome = true) {ret : Bool} :
    Ensures (Reported ret) (closeAll fds) fun _ => Reported ret :=
  .bind (dereference_ensures memory) fun _ => .modify fun _ reported => reported

theorem changeFiles_ensures (change : Files → Files) (kept : ∀ h fs, P h → P { h with files := fs }) :
    Ensures P (changeFiles change) fun _ => P :=
  .modify fun h before => kept h _ before

theorem mmap_ensures (granted : Bool) (fd : Nat) :
    Ensures Fresh (mmap granted fd) fun addr h => addr.isSome = true → Fresh h := by
  intro h fresh
  unfold mmap
  rw [result_bind_ok result_get]
  cases if granted then h.files.description fd else none with
  | none => exact ⟨none, h.exhaust, rfl, by simp⟩
  | some d => exact ⟨some d.file, h, rfl, fun _ => fresh⟩

end Ensures

end Action

end Oreo.Posix
