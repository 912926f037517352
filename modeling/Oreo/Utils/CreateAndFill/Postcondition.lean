import Oreo.Utils.CreateAndFill

/-! # What `create_and_fill` leaves in the file it returns -/

namespace Oreo.Posix.Files

/-- The bytes of the file at a path, none if there is no file. -/
def contents (fs : Files) (path : String) : List UInt8 :=
  match fs.names path with
  | some file => fs.bytes file
  | none => []

/-- `open` gives a descriptor at the start of the file, and does not truncate it. -/
theorem openCreate_contents (fs : Files) (path : String) :
    ∃ d, (fs.openCreate path).1.description (fs.openCreate path).2 = some d ∧ d.offset = 0 ∧
      (fs.openCreate path).1.bytes d.file = fs.contents path := by
  cases named : fs.names path with
  | some file =>
      refine ⟨⟨file, 0⟩, ?_, rfl, ?_⟩
      · simp only [openCreate, named]
        exact description_install fs ⟨file, 0⟩
      · simp only [openCreate, contents, named, install]
  | none =>
      obtain ⟨found, empty⟩ := openCreate_absent named
      refine ⟨⟨fs.fresh, 0⟩, found, rfl, ?_⟩
      rw [empty, contents, named]

@[simp] theorem overwrite_start (contents data : List UInt8) :
    overwrite contents 0 data = data ++ contents.drop data.length := by
  simp [overwrite]

end Oreo.Posix.Files

namespace Oreo.Utils

open Oreo.Posix

/-- What is at the path when `open` is reached: `remove` may have failed. -/
def leftover (o : FillOutcomes) (filepath : String) (fs : Files) : List UInt8 :=
  (if o.removed then fs.remove filepath else fs).contents filepath

/-- How many of the bytes in `buf` are written. -/
def FillOutcomes.transferred (o : FillOutcomes) (size : Nat) : Nat := min (o.written.getD 0) size

variable {o : FillOutcomes}

theorem createAndFill_none (filepath : String) (size : Nat) (c : UInt8) (fs : Files) :
    (createAndFill o filepath size c fs).2 = none ↔ o.allocated = false ∨ o.opened = false := by
  unfold createAndFill
  cases allocated : o.allocated <;> cases opened : o.opened <;> cases o.written <;> simp

theorem createAndFill_contents (filepath : String) (size : Nat) (c : UInt8) (fs : Files)
    (allocated : o.allocated = true) (opened : o.opened = true) :
    ∃ fd d, (createAndFill o filepath size c fs).2 = some fd ∧
      (createAndFill o filepath size c fs).1.description fd = some d ∧
      (createAndFill o filepath size c fs).1.bytes d.file =
        List.replicate (o.transferred size) c ++ (leftover o filepath fs).drop (o.transferred size) := by
  simp only [createAndFill, leftover, allocated, opened, Bool.not_true, Bool.false_eq_true, if_false]
  generalize (if o.removed = true then fs.remove filepath else fs) = start
  obtain ⟨d, found, offset, bytes⟩ := start.openCreate_contents filepath
  cases written : o.written with
  | none =>
      refine ⟨_, d, rfl, found, ?_⟩
      rw [bytes]
      simp [FillOutcomes.transferred, written]
  | some n =>
      refine ⟨_, _, rfl, Files.description_write found _, ?_⟩
      rw [Files.bytes_write found, offset, bytes, Files.overwrite_start]
      simp [FillOutcomes.transferred, written, List.take_replicate]

/-- `create_and_fill` keeps its word when it reports a failure, and else when the bytes behind
what it wrote happen to be the ones it did not write: it looks at neither of what `remove` and
`write` return. -/
theorem createAndFill_fills_iff (o : FillOutcomes) (filepath : String) (size : Nat) (c : UInt8) (fs : Files) :
    ((createAndFill o filepath size c fs).2 = none ∨ Filled size c (createAndFill o filepath size c fs)) ↔
      o.allocated = false ∨ o.opened = false ∨
        (leftover o filepath fs).drop (o.transferred size) = List.replicate (size - o.transferred size) c := by
  cases allocated : o.allocated with
  | false => simp [createAndFill_none, allocated]
  | true =>
      cases opened : o.opened with
      | false => simp [createAndFill_none, opened]
      | true =>
          obtain ⟨fd, d, returned, found, bytes⟩ := createAndFill_contents filepath size c fs allocated opened
          have whole : List.replicate size c =
              List.replicate (o.transferred size) c ++ List.replicate (size - o.transferred size) c := by
            have bound : o.transferred size ≤ size := Nat.min_le_right _ _
            rw [List.replicate_append_replicate]
            congr 1
            omega
          have filled : Filled size c (createAndFill o filepath size c fs) ↔
              (leftover o filepath fs).drop (o.transferred size) = List.replicate (size - o.transferred size) c := by
            rw [← List.append_right_inj (List.replicate (o.transferred size) c), ← whole, ← bytes]
            constructor
            · intro filled
              obtain ⟨fd', d', returned', found', contents⟩ := filled
              obtain rfl := Option.some.inj (returned.symm.trans returned')
              obtain rfl := Option.some.inj (found.symm.trans found')
              exact contents
            · exact fun contents => ⟨fd, d, returned, found, contents⟩
          simp [returned, filled]

theorem names_createAndFill_other (o : FillOutcomes) {filepath other : String} (size : Nat) (c : UInt8) (fs : Files)
    (different : other ≠ filepath) : (createAndFill o filepath size c fs).1.names other = fs.names other := by
  have removed : (if o.removed then fs.remove filepath else fs).names other = fs.names other := by
    split
    · exact if_neg different
    · rfl
  unfold createAndFill
  generalize (if o.removed then fs.remove filepath else fs) = start at removed ⊢
  obtain ⟨file, opened⟩ := start.names_openCreate filepath
  cases o.allocated <;> cases o.opened <;> cases o.written <;> simp [opened, different, removed]

theorem names_createAndFill_self (o : FillOutcomes) (filepath : String) (size : Nat) (c : UInt8) (fs : Files) :
    (createAndFill o filepath size c fs).1.names filepath = none ↔
      (createAndFill o filepath size c fs).2 = none ∧ (o.removed = true ∨ fs.names filepath = none) := by
  have removed : (if o.removed then fs.remove filepath else fs).names filepath = none ↔
      o.removed = true ∨ fs.names filepath = none := by
    cases o.removed <;> simp [Files.remove]
  unfold createAndFill
  generalize (if o.removed then fs.remove filepath else fs) = start at removed ⊢
  obtain ⟨file, opened⟩ := start.names_openCreate filepath
  cases o.allocated <;> cases o.opened <;> cases o.written <;> simp [opened, removed]

/-- The old file has two bytes and `remove` fails: one byte is overwritten, the other stays. -/
theorem createAndFill_keeps_old_bytes :
    let fs : Files := ⟨fun path => if path = leFilePath then some 0 else none, fun _ => [0, 0], 1, []⟩
    (createAndFill ⟨false, true, true, some 1⟩ leFilePath 1 'a'.toUInt8 fs).2 = some 0 ∧
      ¬ Filled 1 'a'.toUInt8 (createAndFill ⟨false, true, true, some 1⟩ leFilePath 1 'a'.toUInt8 fs) := by
  intro fs
  refine ⟨rfl, ?_⟩
  intro filled
  obtain ⟨fd, d, returned, found, contents⟩ := filled
  obtain rfl : 0 = fd := Option.some.inj returned
  obtain rfl : (⟨0, 1⟩ : Description) = d := Option.some.inj found
  have longer := congrArg List.length contents
  exact absurd longer (by decide)

end Oreo.Utils
