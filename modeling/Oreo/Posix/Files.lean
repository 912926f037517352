import Mathlib.Tactic.ByContra

namespace Oreo.Posix

/-! # Regular files and the descriptors of one process -/

/-- An open file description: a file, and where the next transfer starts. -/
structure Description where
  file : Nat
  offset : Nat
deriving DecidableEq, Repr

structure Files where
  /-- The files that paths lead to. -/
  names : String → Option Nat
  bytes : Nat → List UInt8
  /-- The number the next new file gets. -/
  fresh : Nat
  /-- The descriptor table of the process. -/
  descriptors : List (Option Description)

namespace Files

def description (fs : Files) (fd : Nat) : Option Description := (fs.descriptors[fd]?).join

def lowest (fs : Files) : Nat := fs.descriptors.findIdx Option.isNone

def install (fs : Files) (d : Description) : Files :=
  { fs with
    descriptors := if fs.lowest < fs.descriptors.length then fs.descriptors.set fs.lowest (some d)
      else fs.descriptors ++ [some d] }

/-- A successful `remove`: the file goes out of reach of the path, not of its descriptors. -/
def remove (fs : Files) (path : String) : Files :=
  { fs with names := fun other => if other = path then none else fs.names other }

def create (fs : Files) (path : String) : Files :=
  { fs with
    names := fun other => if other = path then some fs.fresh else fs.names other
    bytes := fun other => if other = fs.fresh then [] else fs.bytes other
    fresh := fs.fresh + 1 }

/-- A successful `open` with `O_RDWR | O_CREAT`: an existing file keeps its contents. -/
def openCreate (fs : Files) (path : String) : Files × Nat :=
  match fs.names path with
  | some file => (fs.install ⟨file, 0⟩, fs.lowest)
  | none => ((fs.create path).install ⟨fs.fresh, 0⟩, fs.lowest)

def close (fs : Files) (fd : Nat) : Files := { fs with descriptors := fs.descriptors.set fd none }

def seek (fs : Files) (fd : Nat) (d : Description) (offset : Nat) : Files :=
  { fs with descriptors := fs.descriptors.set fd (some { d with offset }) }

/-- The contents of a file after `data` is written at `offset`. -/
def overwrite (contents : List UInt8) (offset : Nat) (data : List UInt8) : List UInt8 :=
  contents.take offset ++ List.replicate (offset - contents.length) 0 ++ data ++
    contents.drop (offset + data.length)

/-- `write` of all of `data` at the offset of the descriptor. -/
def write (fs : Files) (fd : Nat) (data : List UInt8) : Files :=
  match fs.description fd with
  | some d =>
      { fs.seek fd d (d.offset + data.length) with
        bytes := fun other =>
          if other = d.file then overwrite (fs.bytes d.file) d.offset data else fs.bytes other }
  | none => fs

/-- The bytes a `read` of `size` bytes transfers: those left from the offset on, `size` at most. -/
def available (fs : Files) (fd size : Nat) : Nat :=
  match fs.description fd with
  | some d => min size ((fs.bytes d.file).length - d.offset)
  | none => 0

def read (fs : Files) (fd size : Nat) : Files :=
  match fs.description fd with
  | some d => fs.seek fd d (d.offset + fs.available fd size)
  | none => fs

theorem description_install (fs : Files) (d : Description) :
    (fs.install d).description fs.lowest = some d := by
  have bound : fs.lowest ≤ fs.descriptors.length := List.findIdx_le_length
  unfold description install
  by_cases inside : fs.lowest < fs.descriptors.length
  · simp [inside]
  · have last : fs.lowest = fs.descriptors.length := by omega
    simp [last]

theorem description_install_ne (fs : Files) (d : Description) {other : Nat} (ne : other ≠ fs.lowest) :
    (fs.install d).description other = fs.description other := by
  have bound : fs.lowest ≤ fs.descriptors.length := List.findIdx_le_length
  unfold description install
  by_cases inside : fs.lowest < fs.descriptors.length
  · simp [inside, List.getElem?_set_ne (Ne.symm ne)]
  · have last : fs.lowest = fs.descriptors.length := by omega
    rw [if_neg inside]
    rcases Nat.lt_or_ge other fs.descriptors.length with below | above
    · rw [List.getElem?_append_left below]
    · have outside : (fs.descriptors ++ [some d]).length ≤ other := by simp; omega
      rw [List.getElem?_eq_none above, List.getElem?_eq_none outside]

/-- The lowest free number is free. -/
theorem description_lowest (fs : Files) : fs.description fs.lowest = none := by
  rcases Nat.lt_or_ge fs.lowest fs.descriptors.length with below | above
  · have found := List.findIdx_getElem (w := below)
    have free : fs.descriptors[fs.lowest] = none := Option.isNone_iff_eq_none.mp found
    rw [description, List.getElem?_eq_getElem below, free]
    rfl
  · rw [description, List.getElem?_eq_none above]
    rfl

theorem description_close (fs : Files) (fd other : Nat) :
    (fs.close fd).description other = if other = fd then none else fs.description other := by
  unfold description close
  split
  · next same =>
      subst same
      rw [List.getElem?_set_self']
      cases fs.descriptors[other]? <;> rfl
  · next ne => rw [List.getElem?_set_ne (Ne.symm ne)]

theorem description_seek_ne (fs : Files) {fd other : Nat} (ne : other ≠ fd) (d : Description) (offset : Nat) :
    (fs.seek fd d offset).description other = fs.description other := by
  simp [description, seek, List.getElem?_set_ne (Ne.symm ne)]

theorem description_read_ne (fs : Files) {fd other : Nat} (ne : other ≠ fd) (size : Nat) :
    (fs.read fd size).description other = fs.description other := by
  unfold read
  split
  · exact fs.description_seek_ne ne _ _
  · rfl

theorem description_write_ne (fs : Files) {fd other : Nat} (ne : other ≠ fd) (data : List UInt8) :
    (fs.write fd data).description other = fs.description other := by
  unfold write
  split
  · exact fs.description_seek_ne ne _ _
  · rfl

theorem openCreate_absent {fs : Files} {path : String} (absent : fs.names path = none) :
    (fs.openCreate path).1.description (fs.openCreate path).2 = some ⟨fs.fresh, 0⟩ ∧
      (fs.openCreate path).1.bytes fs.fresh = [] := by
  simp only [openCreate, absent]
  exact ⟨description_install (fs.create path) ⟨fs.fresh, 0⟩, by simp [install, create]⟩

@[simp] theorem names_install (fs : Files) (d : Description) : (fs.install d).names = fs.names := rfl

@[simp] theorem names_close (fs : Files) (fd : Nat) : (fs.close fd).names = fs.names := rfl

@[simp] theorem names_write (fs : Files) (fd : Nat) (data : List UInt8) : (fs.write fd data).names = fs.names := by
  unfold write
  split <;> rfl

@[simp] theorem names_read (fs : Files) (fd size : Nat) : (fs.read fd size).names = fs.names := by
  unfold read
  split <;> rfl

theorem names_openCreate (fs : Files) (path : String) :
    ∃ file, (fs.openCreate path).1.names = fun other => if other = path then some file else fs.names other := by
  cases named : fs.names path with
  | some file =>
      refine ⟨file, funext fun other => ?_⟩
      by_cases here : other = path
      · simp [openCreate, named, here]
      · simp [openCreate, named, here]
  | none => exact ⟨fs.fresh, by simp [openCreate, named, create]⟩

theorem description_bound {fs : Files} {fd : Nat} {d : Description} (found : fs.description fd = some d) :
    fd < fs.descriptors.length := by
  by_contra outside
  simp [description, List.getElem?_eq_none (Nat.le_of_not_lt outside)] at found

variable {fs : Files} {fd : Nat} {d : Description} (found : fs.description fd = some d)
include found

theorem description_seek (offset : Nat) : (fs.seek fd d offset).description fd = some { d with offset } := by
  simp [description, seek, description_bound found]

theorem description_write (data : List UInt8) :
    (fs.write fd data).description fd = some { d with offset := d.offset + data.length } := by
  rw [write, found]
  exact description_seek found _

theorem bytes_write (data : List UInt8) :
    (fs.write fd data).bytes d.file = overwrite (fs.bytes d.file) d.offset data := by
  simp [write, found]

theorem available_eq (size : Nat) :
    fs.available fd size = min size ((fs.bytes d.file).length - d.offset) := by
  simp [available, found]

theorem description_read (size : Nat) :
    (fs.read fd size).description fd = some { d with offset := d.offset + fs.available fd size } := by
  rw [read, found]
  exact description_seek found _

omit found in
@[simp] theorem bytes_read (fs : Files) (fd size : Nat) : (fs.read fd size).bytes = fs.bytes := by
  unfold read
  split <;> rfl

end Files

end Oreo.Posix
