import Oreo.Bench.Read.Model

namespace Oreo.Bench.Read

open Oreo.Posix Oreo.Utils

def AtEnd (fs : Files) (fd : Nat) : Prop :=
  ∃ d, fs.description fd = some d ∧ (fs.bytes d.file).length ≤ d.offset

variable {fs : Files} {fd size : Nat}

theorem AtEnd.available (ended : AtEnd fs fd) (size : Nat) : fs.available fd size = 0 := by
  obtain ⟨d, found, past⟩ := ended
  rw [Files.available_eq found]
  omega

theorem AtEnd.read (ended : AtEnd fs fd) (size : Nat) : AtEnd (fs.read fd size) fd := by
  obtain ⟨d, found, past⟩ := ended
  refine ⟨_, Files.description_read found size, ?_⟩
  rw [Files.bytes_read]
  exact Nat.le_trans past (Nat.le_add_right _ _)

theorem AtEnd.warmup (ended : AtEnd fs fd) (size remaining : Nat) : AtEnd (warmup fd size remaining fs) fd := by
  induction remaining generalizing fs with
  | zero => exact ended
  | succ remaining ih => exact ih (ended.read size)

/-- One read of the size of the file leaves nothing, wherever it started. -/
theorem atEnd_of_read {d : Description} (found : fs.description fd = some d)
    (short : (fs.bytes d.file).length ≤ size) : AtEnd (fs.read fd size) fd := by
  refine ⟨_, Files.description_read found size, ?_⟩
  rw [Files.bytes_read, Files.available_eq found]
  change (fs.bytes d.file).length ≤ d.offset + min size ((fs.bytes d.file).length - d.offset)
  omega

theorem atEnd_warmup {d : Description} {count : Nat} (positive : 0 < count) (found : fs.description fd = some d)
    (short : (fs.bytes d.file).length ≤ size) : AtEnd (warmup fd size count fs) fd := by
  cases count with
  | zero => contradiction
  | succ count => exact (atEnd_of_read found short).warmup size count

variable (size) in
theorem Loop.iterate_atEnd (o : Outcomes) (idx : Nat) {l : Loop} (ended : AtEnd l.files fd) :
    AtEnd (l.iterate o fd size idx).files fd ∧ (l.iterate o fd size idx).timed = l.timed ++ [0] := by
  refine ⟨ended.read size, ?_⟩
  rw [Loop.iterate, ended.available]

theorem timedLoop_atEnd (o : Outcomes) (remaining idx : Nat) {l : Loop} (ended : AtEnd l.files fd) :
    (timedLoop o fd size remaining idx l).timed = l.timed ++ List.replicate remaining 0 := by
  induction remaining generalizing idx l with
  | zero => simp [timedLoop]
  | succ remaining ih =>
      obtain ⟨after, appended⟩ := Loop.iterate_atEnd size o idx ended
      rw [timedLoop, ih (idx + 1) after, appended, List.append_assoc]
      rfl

theorem warmups_pos : 0 < warmups := by simp [warmups]

/-- The warmup starts where `create_and_fill` stopped writing, and its first read goes to
the end of the file: the timed reads transfer nothing. -/
theorem run_timed {fileSize iterCnt : Nat} {o : Outcomes} {fs : Files} (diffs : o.diffs = true)
    (buf : o.buf = true)
    (filled : Filled fileSize 'a'.toUInt8 (createAndFill o.fill leFilePath fileSize 'a'.toUInt8 fs)) :
    (run fileSize iterCnt o fs).timed = List.replicate iterCnt 0 := by
  simp only [run, diffs, buf, Bool.not_true, Bool.false_eq_true, if_false]
  generalize createAndFill o.fill leFilePath fileSize 'a'.toUInt8 fs = result at filled
  obtain ⟨fd, d, opened, found, contents⟩ := filled
  have short : (result.1.bytes d.file).length ≤ fileSize := by
    rw [contents]
    exact Nat.le_of_eq List.length_replicate
  have warm : AtEnd (warmup fd fileSize warmups result.1) fd := atEnd_warmup warmups_pos found short
  rw [opened]
  dsimp only [cleanup]
  generalize warmup fd fileSize warmups result.1 = fs' at warm ⊢
  rw [timedLoop_atEnd o iterCnt 0 warm, List.nil_append]

theorem readTest_times_full_reads_iff (fileSize iterCnt : Nat) (o : Outcomes) (fs : Files) (positive : 0 < fileSize)
    (diffs : o.diffs = true) (buf : o.buf = true)
    (filled : Filled fileSize 'a'.toUInt8 (createAndFill o.fill leFilePath fileSize 'a'.toUInt8 fs)) :
    (run fileSize iterCnt o fs).timed = List.replicate iterCnt fileSize ↔ iterCnt = 0 := by
  rw [run_timed diffs buf filled, List.replicate_inj]
  constructor
  · intro full
    obtain ⟨-, ended | same⟩ := full
    · exact ended
    · exact absurd same (Nat.ne_of_lt positive)
  · intro ended
    exact ⟨rfl, .inl ended⟩

def Outcomes.smooth (fileSize : Nat) : Outcomes where
  diffs := true
  buf := true
  fill := .whole fileSize
  removed := true
  tstart := fun _ => 0
  tend := fun _ => 0

def noFiles : Files := ⟨fun _ => none, fun _ => [], 0, []⟩

theorem readTest_times_full_reads_iff_small :
    (run 4096 500 (.smooth 4096) noFiles).timed = List.replicate 500 4096 ↔ 500 = 0 :=
  readTest_times_full_reads_iff 4096 500 (.smooth 4096) noFiles (by decide) rfl rfl (createAndFill_whole _ _ _ _)

/-- The "small-read" benchmark: 500 timed reads, and none of them moves a byte. -/
theorem readTest_times_empty_reads :
    Filled 4096 'a'.toUInt8 (createAndFill (.whole 4096) leFilePath 4096 'a'.toUInt8 noFiles) ∧
      (readTest ⟨500, .small⟩ (.smooth 4096) noFiles).timed = List.replicate 500 0 ∧
      ¬ (readTest ⟨500, .small⟩ (.smooth 4096) noFiles).timed = List.replicate 500 4096 := by
  have filled := createAndFill_whole leFilePath 4096 'a'.toUInt8 noFiles
  have timed : (readTest ⟨500, .small⟩ (.smooth 4096) noFiles).timed = List.replicate 500 0 :=
    run_timed rfl rfl filled
  refine ⟨filled, timed, ?_⟩
  rw [timed, List.replicate_inj]
  decide

end Oreo.Bench.Read
