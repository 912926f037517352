import Oreo.Posix.Files

namespace Oreo.Utils

open Oreo.Posix

/-! # `create_and_fill` -/

/-- `LE_FILE_PATH`. -/
def leFilePath : String := "/tmp/LEBench_TMP"

/-- How the calls of `create_and_fill` end. -/
structure FillOutcomes where
  /-- Whether `remove` can delete the file, if there is one. -/
  removed : Bool
  /-- Whether `malloc` returns memory. -/
  allocated : Bool
  opened : Bool
  /-- How many bytes `write` transfers at most, `none` if it fails. -/
  written : Option Nat

def FillOutcomes.whole (size : Nat) : FillOutcomes := ⟨true, true, true, some size⟩

/-- The files afterwards and the descriptor returned, `none` being `-1`. -/
def createAndFill (o : FillOutcomes) (filepath : String) (size : Nat) (c : UInt8) (fs : Files) :
    Files × Option Nat :=
  let fs := if o.removed then fs.remove filepath else fs
  if !o.allocated then (fs, none)
  else
    let buf := List.replicate size c
    if !o.opened then (fs, none)
    else
      let (fs, fd) := fs.openCreate filepath
      match o.written with
      | some n => (fs.write fd (buf.take n), some fd)
      | none => (fs, some fd)

/-- What a complete `create_and_fill` leaves: a descriptor of a file with `size` bytes `c`. -/
def Filled (size : Nat) (c : UInt8) (result : Files × Option Nat) : Prop :=
  ∃ fd d, result.2 = some fd ∧ result.1.description fd = some d ∧
    result.1.bytes d.file = List.replicate size c

theorem createAndFill_whole (filepath : String) (size : Nat) (c : UInt8) (fs : Files) :
    Filled size c (createAndFill (.whole size) filepath size c fs) := by
  have absent : (fs.remove filepath).names filepath = none := by simp [Files.remove]
  obtain ⟨found, empty⟩ := Files.openCreate_absent absent
  have result : createAndFill (.whole size) filepath size c fs =
      (((fs.remove filepath).openCreate filepath).1.write ((fs.remove filepath).openCreate filepath).2
        (List.replicate size c), some ((fs.remove filepath).openCreate filepath).2) := by
    simp [createAndFill, FillOutcomes.whole]
  rw [result]
  refine ⟨_, _, rfl, Files.description_write found _, ?_⟩
  rw [Files.bytes_write found, empty]
  simp [Files.overwrite]

end Oreo.Utils
