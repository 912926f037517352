import Oreo.Bench.Scratch.Allocations
import Oreo.Utils.CreateAndFill.Postcondition

namespace Oreo.Bench.Scratch

open Oreo.Posix Oreo.Posix.Action Oreo.Transition Oreo.Transition.Effect Oreo.Utils

/-! # Which files the tests leave behind -/

abbrev names (h : Host) : String → Option Nat := h.files.names

theorem keeps_names_of_files {α : Type} {p : Action α} (keeps : Keeps Host.files p) : Keeps names p :=
  keeps.comp Files.names

theorem keeps_names_changeFiles {change : Files → Files} (same : ∀ fs, (change fs).names = fs.names) :
    Keeps names (changeFiles change) :=
  .modify fun h => same h.files

theorem keeps_names_writeBody (o : Outcomes) (fileSize iterCnt fd : Nat) :
    Keeps names (Write.body o fileSize iterCnt fd) := by
  have writes (written : Option Nat) (buf : Pointer UInt8) : Keeps names (Write.writeBuf written fd buf) := by
    refine .bind (keeps_names_of_files (keeps_files_dereference buf)) fun data => ?_
    apply keeps_names_changeFiles
    intro fs
    cases written <;> simp
  refine .bind (keeps_names_of_files (keeps_files_allocate _ _)) fun buf => ?_
  refine .bind (keeps_names_of_files (keeps_files_allocate _ _)) fun diffs => ?_
  refine .ite .pure (.bind (keeps_names_of_files (keeps_files_memset _ _)) fun buf => ?_)
  refine .bind (.loop (fun i _ => .bind (writes _ buf) fun _ => .pure) _ _ _) fun _ => ?_
  refine .bind (.loop (fun idx diffs => .bind (writes _ buf) fun _ => ?_) _ _ _) fun r => ?_
  · exact .bind (keeps_names_of_files (keeps_files_store _ _ _)) fun _ => .pure
  · exact .bind (keeps_names_of_files (keeps_files_collectResults _)) fun _ => .pure

theorem keeps_names_mapBody (o : Outcomes) (iterCnt : Nat) (diffs : Pointer Nat) (fd : Nat) :
    Keeps names (mapBody o iterCnt diffs fd) := by
  refine .bind (.loop (fun idx diffs => ?_) _ _ _) fun r => ?_
  · refine .bind (keeps_names_of_files (keeps_files_mmap _ _)) fun addr => .ite .pure ?_
    refine .bind .pure fun _ => ?_
    exact .bind (keeps_names_of_files (keeps_files_store _ _ _)) fun _ => .pure
  · exact .ite .pure (.bind (keeps_names_of_files (keeps_files_collectResults _)) fun _ => .pure)

theorem keeps_names_readBody (o : Outcomes) (fileSize iterCnt : Nat) (diffs : Pointer Nat) (buf : Pointer UInt8)
    (fd : Nat) : Keeps names (ReadTest.body o fileSize iterCnt diffs buf fd) := by
  have reads : Keeps names (ReadTest.readBuf fd fileSize buf) := by
    refine .bind (keeps_names_of_files (keeps_files_dereference buf)) fun data => ?_
    exact keeps_names_changeFiles fun fs => fs.names_read fd fileSize
  refine .ite .pure (.bind (.loop (fun _ _ => .bind reads fun _ => .pure) _ _ _) fun _ => ?_)
  refine .bind (.loop (fun idx diffs => .bind reads fun _ => ?_) _ _ _) fun r => ?_
  · exact .bind (keeps_names_of_files (keeps_files_store _ _ _)) fun _ => .pure
  · exact .bind (keeps_names_of_files (keeps_files_collectResults _)) fun _ => .pure

section Filled

variable {o : Outcomes} {path : String} {fileSize : Nat} {body : Nat → Action Bool} {h h' : Host} {ret : Bool}

def created (o : Outcomes) (fileSize : Nat) (fs : Files) : Files × Option Nat :=
  createAndFill o.fill leFilePath fileSize 'a'.toUInt8 fs

theorem filled_returns (returned : (filled o path fileSize body).result h = (.ok ret, h')) (removed : o.removed = true) :
    ∃ h₁ h₂, h₁.files = (created o fileSize h.files).1 ∧
      ((created o fileSize h.files).2 = none ∧ h₂ = h₁ ∨
        ∃ fd, (created o fileSize h.files).2 = some fd ∧ (body fd).result h₁ = (.ok ret, h₂)) ∧
      names h' = (h₂.files.remove path).names := by
  obtain ⟨fd, h₁, made, rest⟩ := result_bind_eq_ok.mp returned
  obtain ⟨ret', h₂, measured, rest⟩ := result_bind_eq_ok.mp rest
  obtain ⟨_, h₃, closed, rest⟩ := result_bind_eq_ok.mp rest
  obtain ⟨_, h₄, gone, rest⟩ := result_bind_eq_ok.mp rest
  obtain ⟨same, state⟩ := Prod.mk.inj made
  obtain rfl := Except.ok.inj same
  obtain ⟨-, rfl⟩ := Prod.mk.inj closed
  obtain ⟨-, rfl⟩ := Prod.mk.inj gone
  obtain ⟨same, rfl⟩ := Prod.mk.inj rest
  obtain rfl := Except.ok.inj same
  refine ⟨h₁, h₂, by rw [← state]; rfl, ?_, ?_⟩
  · cases fd : (created o fileSize h.files).2 with
    | none =>
        have skipped : (withFile body (created o fileSize h.files).2).result h₁ = _ := measured
        rw [fd] at skipped
        exact .inl ⟨rfl, (Prod.mk.inj skipped).2.symm⟩
    | some fd' =>
        have taken : (withFile body (created o fileSize h.files).2).result h₁ = _ := measured
        rw [fd] at taken
        exact .inr ⟨fd', rfl, taken⟩
  · simp only [removed, if_true, names]
    cases (createAndFill o.fill leFilePath fileSize 'a'.toUInt8 h.files).2 <;> rfl

theorem filled_names (returned : (filled o path fileSize body).result h = (.ok ret, h')) (removed : o.removed = true)
    (keeps : ∀ fd, Keeps names (body fd)) : names h' = ((created o fileSize h.files).1.remove path).names := by
  obtain ⟨h₁, h₂, files, measured, after⟩ := filled_returns returned removed
  have same : names h₂ = names h₁ := by
    rcases measured with ⟨-, rfl⟩ | ⟨fd, -, measured⟩
    · rfl
    · have kept := keeps fd h₁
      rwa [measured] at kept
  have same' : h₂.files.names = h₁.files.names := same
  rw [after, ← files]
  simp only [Files.remove, same']

end Filled

/-- The scratch file is gone, and every other path leads where it did. -/
structure Restores (before after : Files) : Prop where
  scratch : after.names leFilePath = none
  others : ∀ path, path ≠ leFilePath → after.names path = before.names path

/-- What a test has to find, and which of its calls have to fail, for it to leave the files as
they were once its last `remove` has succeeded. -/
def Test.Tidy (o : Outcomes) (fs : Files) : Test → Prop
  | .write | .mmap | .munmap => True
  | .pageFault =>
      o.fill.allocated = false ∨ o.fill.opened = false ∨ o.devNull = false ∨ fs.names PageFault.devNull ≠ none
  | .read =>
      fs.names Bench.Read.filePath = none ∧
        if o.diffs then
          (o.fill.allocated = false ∨ o.fill.opened = false) ∧ (o.fill.removed = true ∨ fs.names leFilePath = none)
        else fs.names leFilePath = none

variable {o : Outcomes} {h h' : Host} {ret : Bool} {fileSize iterCnt : Nat} {config : BenchConfig}

theorem restores_of_names {before after : Files} (removed : after.names = ((created o fileSize before).1.remove leFilePath).names) :
    Restores before after := by
  refine ⟨by rw [removed]; simp [Files.remove], ?_⟩
  intro path different
  rw [removed]
  simp only [Files.remove, different, if_false]
  exact names_createAndFill_other _ _ _ _ different

theorem mapRun_restores (returned : (mapRun o fileSize iterCnt).result h = (.ok ret, h')) (removed : o.removed = true) :
    Restores h.files h'.files := by
  cases diffs : o.diffs with
  | true =>
      have file : (filled o leFilePath fileSize (mapBody o iterCnt (some (initDiffArray iterCnt)))).result h = (.ok ret, h') := by
        simpa [mapRun, diffs, result_bind] using returned
      exact restores_of_names (filled_names file removed fun fd => keeps_names_mapBody o iterCnt _ fd)
  | false =>
      have gone : h'.files = h.files.remove leFilePath := by
        simp [mapRun, diffs, result_bind, Action.remove, changeFiles, removed, Host.exhaust, Except.map] at returned
        rw [← returned.2]
      rw [gone]
      exact ⟨by simp [Files.remove], fun path different => by simp [Files.remove, different]⟩

section PageFault

open PageFault

theorem printDevNull_present {fs : Files} (text : List UInt8) (present : fs.names devNull ≠ none) :
    printDevNull text fs = fs := by
  unfold printDevNull
  cases named : fs.names devNull with
  | none => exact absurd named present
  | some file => rfl

theorem names_printDevNull_absent {fs : Files} (text : List UInt8) (absent : fs.names devNull = none) :
    ∃ file, (printDevNull text fs).names = fun other => if other = devNull then some file else fs.names other := by
  obtain ⟨file, opened⟩ := fs.names_openCreate devNull
  exact ⟨file, by simp [printDevNull, absent, opened]⟩

theorem keeps_files_timedLoad (o : Outcomes) (fd idx : Nat) (l : Locals) : Keeps Host.files (timedLoad o fd idx l) := by
  refine .bind (keeps_files_mmap _ _) fun addr => .bind (keeps_files_firstByte addr) fun byte => ?_
  exact .bind .pure fun _ => .bind (keeps_files_store _ _ _) fun _ => .pure

theorem body_files {diffs : Pointer Nat} {fd : Nat} (returned : (body o iterCnt diffs fd).result h = (.ok ret, h')) :
    ∃ text, h'.files = if o.devNull then printDevNull text h.files else h.files := by
  obtain ⟨r, h₁, looped, rest⟩ := result_bind_eq_ok.mp returned
  obtain ⟨_, h₂, collected, rest⟩ := result_bind_eq_ok.mp rest
  have sameLoop := Keeps.loop (keeps_files_timedLoad o fd) iterCnt 0 ⟨diffs, 0⟩ h
  have sameCollect := keeps_files_collectResults r.2.diffs h₁
  rw [looped] at sameLoop
  rw [collected] at sameCollect
  refine ⟨[r.2.a, '\n'.toUInt8], ?_⟩
  rw [← sameLoop, ← sameCollect]
  obtain ⟨-, rfl⟩ := Prod.mk.inj rest
  rfl

end PageFault

theorem devNull_ne : PageFault.devNull ≠ leFilePath := by decide

theorem filePath_ne : Bench.Read.filePath ≠ leFilePath := by decide

theorem pageFault_restores_iff (returned : (PageFault.run o fileSize iterCnt).result h = (.ok ret, h'))
    (removed : o.removed = true) : Restores h.files h'.files ↔ Test.Tidy o h.files .pageFault := by
  obtain ⟨diffs, h₀, allocated, file⟩ := result_bind_eq_ok.mp returned
  have start : h₀.files = h.files := by
    have kept := keeps_files_allocate o.diffs (initDiffArray iterCnt) h
    rwa [allocated] at kept
  obtain ⟨h₁, h₂, files, measured, after⟩ := filled_returns file removed
  rw [start] at files measured
  have failed : (created o fileSize h.files).2 = none ↔ o.fill.allocated = false ∨ o.fill.opened = false :=
    createAndFill_none _ _ _ _
  rcases measured with ⟨noFile, rfl⟩ | ⟨fd, hasFile, measured⟩
  · have restores : Restores h.files h'.files := restores_of_names (after.trans (by rw [files]))
    simp only [Test.Tidy, restores, true_iff]
    rcases failed.mp noFile with left | right
    · exact .inl left
    · exact .inr (.inl right)
  · have reached : ¬ (o.fill.allocated = false ∨ o.fill.opened = false) := by
      rw [← failed, hasFile]
      simp
    obtain ⟨text, printed⟩ := body_files measured
    have elsewhere : (created o fileSize h.files).1.names PageFault.devNull = h.files.names PageFault.devNull :=
      names_createAndFill_other _ _ _ _ devNull_ne
    by_cases harmless : o.devNull = false ∨ h.files.names PageFault.devNull ≠ none
    · have unchanged : h₂.files = h₁.files := by
        rw [printed]
        rcases harmless with closed | present
        · simp [closed]
        · rw [files, printDevNull_present text (by rwa [elsewhere])]
          simp
      have restores : Restores h.files h'.files := restores_of_names (after.trans (by rw [unchanged, files]))
      simp only [Test.Tidy, restores, true_iff]
      exact .inr (.inr harmless)
    · simp only [not_or, Bool.not_eq_false, ne_eq, not_not] at harmless
      obtain ⟨opened, absent⟩ := harmless
      have missing : h₁.files.names PageFault.devNull = none := by rw [files, elsewhere, absent]
      obtain ⟨file', appeared⟩ := names_printDevNull_absent text missing
      have left : h'.files.names PageFault.devNull = some file' := by
        have last : h'.files.names = _ := after
        rw [last, printed, if_pos opened]
        simp [Files.remove, devNull_ne, appeared]
      constructor
      · intro restores
        have same := restores.others PageFault.devNull devNull_ne
        rw [left, absent] at same
        contradiction
      · intro tidy
        rcases tidy with allocated' | opened' | closed | present
        · exact absurd (.inl allocated') reached
        · exact absurd (.inr opened') reached
        · rw [opened] at closed
          contradiction
        · exact absurd absent present

theorem restores_filePath_iff {before middle after : Files}
    (removed : after.names = (middle.remove Bench.Read.filePath).names)
    (others : ∀ path, path ≠ leFilePath → middle.names path = before.names path) :
    Restores before after ↔ before.names Bench.Read.filePath = none ∧ middle.names leFilePath = none := by
  constructor
  · intro restores
    have scratch := restores.scratch
    have other := restores.others Bench.Read.filePath filePath_ne
    rw [removed] at scratch other
    simp only [Files.remove, if_true, if_neg filePath_ne.symm] at scratch other
    exact ⟨other.symm, scratch⟩
  · intro absent
    obtain ⟨other, scratch⟩ := absent
    refine ⟨by rw [removed]; simpa [Files.remove, filePath_ne.symm] using scratch, ?_⟩
    intro path different
    rw [removed]
    by_cases here : path = Bench.Read.filePath
    · rw [here, other]
      simp [Files.remove]
    · simp only [Files.remove, if_neg here]
      exact others path different

/-- `read_test` removes a file that is not its own, and leaves its own one. -/
theorem read_restores_iff (returned : (ReadTest.run o fileSize iterCnt).result h = (.ok ret, h'))
    (removed : o.removed = true) : Restores h.files h'.files ↔ Test.Tidy o h.files .read := by
  cases diffs : o.diffs with
  | false =>
      have gone : h'.files = h.files.remove Bench.Read.filePath := by
        simp [ReadTest.run, diffs, result_bind, Action.remove, changeFiles, removed, Host.exhaust, Except.map] at returned
        rw [← returned.2]
      rw [restores_filePath_iff (congrArg Files.names gone) fun _ _ => rfl]
      simp [Test.Tidy, diffs]
  | true =>
      obtain ⟨buf, h₀, allocated, file⟩ : ∃ buf h₀, (allocate o.buf (List.replicate fileSize 0)).result h = (.ok buf, h₀) ∧
          (filled o Bench.Read.filePath fileSize
            (ReadTest.body o fileSize iterCnt (some (initDiffArray iterCnt)) buf)).result h₀ = (.ok ret, h') := by
        apply result_bind_eq_ok.mp
        simpa [ReadTest.run, diffs, result_bind] using returned
      have start : h₀.files = h.files := by
        have kept := keeps_files_allocate o.buf (List.replicate fileSize (0 : UInt8)) h
        rwa [allocated] at kept
      have left := filled_names file removed fun fd => keeps_names_readBody o fileSize iterCnt _ buf fd
      rw [start] at left
      rw [restores_filePath_iff left fun path different => names_createAndFill_other _ _ _ _ different]
      simp only [Test.Tidy, diffs, if_true, created, names_createAndFill_self, createAndFill_none]

theorem write_restores (returned : (writeTest config o).result h = (.ok ret, h')) (removed : o.removed = true) :
    Restores h.files h'.files :=
  restores_of_names (filled_names returned removed fun fd => keeps_names_writeBody o _ config.iter fd)

/-- The tests on the scratch file leave the files as they found them exactly if they are tidy:
`write_test`, `mmap_test` and `munmap_test` always are. -/
theorem test_restores_iff (test : Test) (config : BenchConfig) (o : Outcomes) (h h' : Host) (ret : Bool)
    (removed : o.removed = true) (returned : (test.action config o).result h = (.ok ret, h')) :
    Restores h.files h'.files ↔ test.Tidy o h.files := by
  cases test with
  | read => exact read_restores_iff returned removed
  | write => exact iff_of_true (write_restores returned removed) trivial
  | mmap => exact iff_of_true (mapRun_restores returned removed) trivial
  | munmap => exact iff_of_true (mapRun_restores returned removed) trivial
  | pageFault => exact pageFault_restores_iff returned removed

/-- A run in which every call succeeds, and `init_diff_array` if `diffs` holds. -/
def Outcomes.smooth (diffs : Bool) : Outcomes where
  diffs
  buf := true
  fill := .whole 4096
  warmup := fun _ => some 4096
  write := fun _ => some 4096
  mmap := fun _ => true
  devNull := true
  removed := true
  tstart := fun _ => 0
  tend := fun _ => 0

/-- The scratch file of "small-mmap" has been made, and is gone in the end. -/
theorem test_restores_iff_mmap :
    (created (.smooth true) 4096 Host.bare.files).1.names leFilePath ≠ none ∧
      ∃ ret h', (mmapTest ⟨200, .small⟩ (.smooth true)).result .bare = (.ok ret, h') ∧ Restores Host.bare.files h'.files := by
  constructor
  · rw [created, Ne, names_createAndFill_self, createAndFill_none]
    simp [Outcomes.smooth, FillOutcomes.whole]
  · obtain ⟨ret, h', returned, -⟩ := mapRun_ensures (o := .smooth true) 4096 200 .bare rfl
    exact ⟨ret, h', returned, (test_restores_iff .mmap ⟨200, .small⟩ (.smooth true) .bare h' ret rfl returned).mpr trivial⟩

/-- The "small-read" benchmark: nothing fails, and the file of 4096 bytes stays. -/
theorem readTest_leaves_scratch :
    (Outcomes.smooth true).removed = true ∧ (Outcomes.smooth true).fill.removed = true ∧
      ∃ ret h', (readTest ⟨500, .small⟩ (.smooth true)).result .bare = (.ok ret, h') ∧
        ¬ Restores Host.bare.files h'.files := by
  obtain ⟨ret, h', returned, -⟩ := readRun_ensures (o := .smooth true) 4096 500 .bare rfl
  refine ⟨rfl, rfl, ret, h', returned, ?_⟩
  rw [read_restores_iff returned rfl]
  intro tidy
  have ended := tidy.2
  simp [Outcomes.smooth, FillOutcomes.whole] at ended

end Oreo.Bench.Scratch
