import Mathlib.Algebra.Ring.Nat
import Oreo.OsEval.FileContents

namespace Oreo.OsEval

open Oreo.Posix Oreo.Transition Oreo.Transition.Effect

/-! # Whether the file tests measure what their names say -/

/-- Every system call does what it can. -/
structure Outcomes.Succeeds (o : Outcomes) (fileSize : Nat) : Prop where
  malloc : o.malloc = true
  opened : o.opened = true
  write : ∃ limit, o.write = some limit ∧ fileSize ≤ limit
  mmap : o.mmap = true

namespace FileCall

def outcomes : FileCall → List Outcomes
  | .read o | .write o | .mmap o | .pageFault o | .munmap o => [o]
  | .warmup o oIn => [o, oIn]

def fills : FileCall → Bool
  | .write _ | .warmup _ _ => true
  | _ => false

/-- What is to be measured: transfers of the whole file, and accesses to a mapping that is there. -/
def intended (fileSize : Nat) : FileCall → List Timing
  | .read _ => [.read fileSize (some fileSize)]
  | .write _ => [.write fileSize (some fileSize)]
  | .mmap _ => [.mmap fileSize true]
  | .pageFault _ => [.load 'a'.toUInt8]
  | .munmap _ => [.munmap fileSize]
  | .warmup _ _ => []

end FileCall

/-- How many bytes the program has written at the start of the file. -/
def SizedCall.reach (written : Nat) (c : SizedCall) : Nat := if c.call.fills then max written c.fileSize else written

/-- No call needs more of the file than has been written. -/
def Covered : Nat → List SizedCall → Prop
  | _, [] => True
  | written, c :: calls => c.fileSize ≤ c.reach written ∧ Covered (c.reach written) calls

def reachAll (written : Nat) (calls : List SizedCall) : Nat := calls.foldl SizedCall.reach written

/-- The file after the program has written so many bytes of it. -/
def contentsAfter (before : Option (List UInt8)) (written : Nat) : Option (List UInt8) :=
  if written = 0 then before else some (List.replicate written 'a'.toUInt8 ++ (before.getD []).drop written)

variable {before : Option (List UInt8)} {written : Nat} {timed : List Timing}

/-- Writing again writes further, or nothing new. -/
theorem rewrite_contents (bytes : List UInt8) (written size : Nat) :
    List.replicate size 'a'.toUInt8 ++ (List.replicate written 'a'.toUInt8 ++ bytes.drop written).drop size =
      List.replicate (max written size) 'a'.toUInt8 ++ bytes.drop (max written size) := by
  rw [List.drop_append, List.drop_replicate, List.length_replicate, List.drop_drop, ← List.append_assoc,
    List.replicate_append_replicate]
  congr 2
  · omega
  · omega

theorem contentsAfter_write (before : Option (List UInt8)) (written : Nat) {size : Nat} (positive : 0 < size) :
    some (List.replicate size 'a'.toUInt8 ++ ((contentsAfter before written).getD []).drop size) =
      contentsAfter before (max written size) := by
  have later : max written size ≠ 0 := by omega
  unfold contentsAfter
  rw [if_neg later]
  split
  · next none => rw [none, Nat.zero_max]
  · rw [Option.getD_some, rewrite_contents]

section Call

variable {o : Outcomes} {size : Nat}

theorem result_openFile_present {file : List UInt8} (create : Bool) :
    (ContentsAction.openFile create true).result ⟨some file, timed⟩ = (.ok true, ⟨some file, timed⟩) := rfl

theorem result_overwrite (succeeds : o.Succeeds size) (file : List UInt8) :
    (ContentsAction.overwrite o.write true size).result ⟨some file, timed⟩ =
      (.ok (some size), ⟨some (List.replicate size 'a'.toUInt8 ++ file.drop size), timed⟩) := by
  obtain ⟨limit, written, enough⟩ := succeeds.write
  simp [ContentsAction.overwrite, written, Nat.min_eq_right enough, Except.map]

/-- Opening with `O_CREAT` and writing. -/
theorem result_filling {α : Type} (succeeds : o.Succeeds size) (positive : 0 < size) (next : Option Nat → ContentsAction α) :
    (do
      ContentsAction.fill o.malloc
      let opened ← ContentsAction.openFile true o.opened
      let returned ← ContentsAction.overwrite o.write opened size
      next returned).result ⟨contentsAfter before written, timed⟩ =
      (next (some size)).result ⟨contentsAfter before (max written size), timed⟩ := by
  rw [← contentsAfter_write before written positive, succeeds.malloc, succeeds.opened]
  have filled (s : Contents) : (ContentsAction.fill true).result s = (.ok (), s) := rfl
  rw [result_bind_ok (filled _)]
  cases contentsAfter before written with
  | none =>
      have created : (ContentsAction.openFile true true).result ⟨none, timed⟩ = (.ok true, ⟨some [], timed⟩) := rfl
      rw [result_bind_ok created, result_bind_ok (result_overwrite succeeds [])]
      rfl
  | some file =>
      rw [result_bind_ok (result_openFile_present true), result_bind_ok (result_overwrite succeeds file)]
      rfl

end Call

/-- There is a file, with so many letters at its start. -/
theorem contentsAfter_present (before : Option (List UInt8)) (positive : 0 < written) :
    ∃ rest, contentsAfter before written = some ('a'.toUInt8 :: rest) ∧ written ≤ rest.length + 1 := by
  obtain ⟨earlier, rfl⟩ := Nat.exists_eq_add_of_le' positive
  exact ⟨List.replicate earlier 'a'.toUInt8 ++ (before.getD []).drop (earlier + 1), rfl, by simp⟩

/-- One call with enough of the file written measures what it is to measure. -/
theorem act_covered {c : SizedCall} (covered : c.fileSize ≤ c.reach written)
    (succeed : ∀ o ∈ c.call.outcomes, o.Succeeds c.fileSize) :
    (c.call.act c.fileSize).result ⟨contentsAfter before written, timed⟩ =
      (.ok (), ⟨contentsAfter before (c.reach written), timed ++ c.call.intended c.fileSize⟩) := by
  obtain ⟨size, positive, call⟩ := c
  cases call with
  | write o =>
      have succeeds : o.Succeeds size := succeed o (by simp [FileCall.outcomes])
      exact result_filling succeeds positive fun returned => ContentsAction.time (.write size returned)
  | warmup o oIn =>
      have succeeds : o.Succeeds size := succeed o (by simp [FileCall.outcomes])
      have filled := @result_filling before written timed o size _ succeeds positive fun _ => pure ()
      simpa [FileCall.act, FileCall.intended, SizedCall.reach, FileCall.fills] using filled
  | read o =>
      have succeeds : o.Succeeds size := succeed o (by simp [FileCall.outcomes])
      have reached : size ≤ written := covered
      obtain ⟨rest, present, long⟩ := contentsAfter_present before (Nat.lt_of_lt_of_le positive reached)
      have whole : min size (Contents.length ⟨some ('a'.toUInt8 :: rest), timed⟩) = size := by
        simp only [Contents.length, Option.getD_some, List.length_cons]
        omega
      simp only [FileCall.act, SizedCall.reach, FileCall.fills, Bool.false_eq_true, if_false, present, succeeds.opened,
        succeeds.malloc]
      rw [result_bind_ok (result_openFile_present false), result_bind_ok result_get, whole]
      rfl
  | mmap o =>
      have succeeds : o.Succeeds size := succeed o (by simp [FileCall.outcomes])
      have reached : size ≤ written := covered
      obtain ⟨rest, present, long⟩ := contentsAfter_present before (Nat.lt_of_lt_of_le positive reached)
      simp only [FileCall.act, SizedCall.reach, FileCall.fills, Bool.false_eq_true, if_false, present, succeeds.opened,
        succeeds.mmap]
      rw [result_bind_ok (result_openFile_present false)]
      rfl
  | pageFault o =>
      have succeeds : o.Succeeds size := succeed o (by simp [FileCall.outcomes])
      have reached : size ≤ written := covered
      obtain ⟨rest, present, long⟩ := contentsAfter_present before (Nat.lt_of_lt_of_le positive reached)
      simp only [FileCall.act, SizedCall.reach, FileCall.fills, Bool.false_eq_true, if_false, present, succeeds.opened,
        succeeds.mmap]
      rw [result_bind_ok (result_openFile_present false), result_bind_ok result_get]
      rfl
  | munmap o =>
      have succeeds : o.Succeeds size := succeed o (by simp [FileCall.outcomes])
      have reached : size ≤ written := covered
      obtain ⟨rest, present, long⟩ := contentsAfter_present before (Nat.lt_of_lt_of_le positive reached)
      have inside : ¬ (Contents.length ⟨some ('a'.toUInt8 :: rest), timed⟩ + (pageSize - 1)) / pageSize * pageSize < size := by
        simp only [Contents.length, Option.getD_some, List.length_cons, pageSize]
        omega
      simp only [FileCall.act, SizedCall.reach, FileCall.fills, Bool.false_eq_true, if_false, present, succeeds.opened,
        succeeds.mmap]
      rw [result_bind_ok (result_openFile_present false), result_bind_ok result_get]
      simp only [Bool.and_self, Bool.not_true, Bool.false_eq_true, if_false, if_neg inside]
      rfl

theorem act_all_covered {calls : List SizedCall} (covered : Covered written calls)
    (succeed : ∀ c ∈ calls, ∀ o ∈ c.call.outcomes, o.Succeeds c.fileSize) :
    (actCalls calls).result ⟨contentsAfter before written, timed⟩ =
      (.ok (), ⟨contentsAfter before (reachAll written calls), timed ++ calls.flatMap fun c => c.call.intended c.fileSize⟩) := by
  induction calls generalizing written timed with
  | nil => simp [actCalls, reachAll]
  | cons c calls ih =>
      obtain ⟨here, later⟩ := covered
      obtain ⟨succeeds, succeed⟩ := List.forall_mem_cons.mp succeed
      have rest := @ih (c.reach written) (timed ++ c.call.intended c.fileSize) later succeed
      rw [List.append_assoc] at rest
      exact (result_bind_ok (act_covered here succeeds)).trans rest

/-! ## The order in which `main` makes its calls -/

/-- The calls that `main` makes for one value of `file_size`. -/
structure Block where
  fileSize : Nat
  positive : 0 < fileSize
  writes : Nat
  warm : Bool
  reads : Nat
  mmaps : Nat
  munmaps : Nat
  pageFaults : Nat

def Block.calls (o : Outcomes) (block : Block) : List SizedCall :=
  List.map (fun call => ⟨block.fileSize, block.positive, call⟩)
    (List.replicate block.writes (.write o) ++ (if block.warm then [.warmup o o] else []) ++
      List.replicate block.reads (.read o) ++ List.replicate block.mmaps (.mmap o) ++
        List.replicate block.munmaps (.munmap o) ++ List.replicate block.pageFaults (.pageFault o))

theorem covered_append {xs ys : List SizedCall} :
    Covered written (xs ++ ys) ↔ Covered written xs ∧ Covered (reachAll written xs) ys := by
  induction xs generalizing written with
  | nil => simp [Covered, reachAll]
  | cons c xs ih =>
      rw [List.cons_append, Covered, Covered, ih, and_assoc]
      rfl

/-- With the file written, any more calls of this size are covered. -/
theorem covered_of_written {calls : List SizedCall} {size : Nat} (written_le : size ≤ written)
    (sized : ∀ c ∈ calls, c.fileSize = size) : Covered written calls ∧ reachAll written calls = written := by
  induction calls with
  | nil => exact ⟨trivial, rfl⟩
  | cons c calls ih =>
      obtain ⟨here, later⟩ := List.forall_mem_cons.mp sized
      obtain ⟨covered, reached⟩ := ih later
      have same : c.reach written = written := by
        unfold SizedCall.reach
        split
        · omega
        · rfl
      refine ⟨⟨by rw [same, here]; exact written_le, by rwa [same]⟩, ?_⟩
      rw [reachAll, List.foldl_cons, same]
      exact reached

/-- It is enough that the file is written at the start of the block. -/
theorem Block.covered (o : Outcomes) (block : Block) (filled : 0 < block.writes ∨ block.warm = true) (written : Nat) :
    Covered written (block.calls o) := by
  have sized : ∀ c ∈ block.calls o, c.fileSize = block.fileSize := by
    intro c member
    obtain ⟨call, -, rfl⟩ := List.mem_map.mp member
    rfl
  have first : ∃ call rest, block.calls o = call :: rest ∧ call.call.fills = true := by
    unfold Block.calls
    rcases Nat.eq_zero_or_pos block.writes with none | some
    · have warm : block.warm = true := by
        rcases filled with writes | warm
        · omega
        · exact warm
      rw [none, warm]
      exact ⟨_, _, rfl, rfl⟩
    · obtain ⟨more, same⟩ := Nat.exists_eq_add_of_le' some
      rw [same]
      exact ⟨_, _, rfl, rfl⟩
  obtain ⟨call, rest, split, fills⟩ := first
  rw [split] at sized ⊢
  obtain ⟨here, later⟩ := List.forall_mem_cons.mp sized
  have reached : call.reach written = max written block.fileSize := by
    rw [SizedCall.reach, if_pos fills, here]
  refine ⟨by rw [reached, here]; omega, ?_⟩
  rw [reached]
  exact (covered_of_written (Nat.le_max_right _ _) later).1

theorem covered_blocks (o : Outcomes) {blocks : List Block} (filled : ∀ block ∈ blocks, 0 < block.writes ∨ block.warm = true)
    (written : Nat) : Covered written (blocks.flatMap (Block.calls o)) := by
  induction blocks generalizing written with
  | nil => exact trivial
  | cons block blocks ih =>
      obtain ⟨here, later⟩ := List.forall_mem_cons.mp filled
      rw [List.flatMap_cons, covered_append]
      exact ⟨block.covered o here written, ih later _⟩

/-- If all system calls succeed and no call needs more of the file than was written before it, then
from any files and descriptors: nothing kills the program, every timed `read` and `write` transfers
the whole size, every mapping is there, and the file ends as letters in front of what it held. -/
theorem covered_calls_transfer_everything {calls : List SizedCall} (covered : Covered 0 calls)
    (succeed : ∀ c ∈ calls, ∀ o ∈ c.call.outcomes, o.Succeeds c.fileSize) (d : Disk) :
    ∃ d', (performCalls calls).result d = (.ok (), d') ∧
      d'.timed = d.timed ++ (calls.flatMap fun c => c.call.intended c.fileSize) ∧
        d'.contents.file = contentsAfter d.contents.file (reachAll 0 calls) ∧
          ∀ fd, descriptionOf fd d' = descriptionOf fd d := by
  have whole : (actCalls calls).result d.contents = _ := @act_all_covered d.contents.file 0 d.timed calls covered succeed
  rw [show (actCalls calls).result d.contents = _ from calls_refine calls d] at whole
  obtain ⟨returned, contents⟩ := Prod.mk.inj whole
  have restored := performCalls_restores calls d () ((performCalls calls).result d).2 (Prod.ext returned rfl)
  exact ⟨_, Prod.ext returned rfl, congrArg Contents.timed contents, congrArg Contents.file contents, restored⟩

/-- The four sizes in `main`, the last of them without a warm-up. -/
def mainBlocks : List Block :=
  [⟨pageSize, by decide, 1000, true, 1000, 1000, 1000, 500⟩, ⟨pageSize * 10, by decide, 1000, true, 1000, 1000, 1000, 500⟩,
    ⟨pageSize * 1000, by decide, 50, true, 100, 1000, 25, 500⟩, ⟨pageSize * 10000, by decide, 25, false, 100, 1000, 25, 500⟩]

/-- Each `write` transfers what it is asked to. -/
def smooth : Outcomes := ⟨true, true, some (2 ^ 31), true⟩

theorem smooth_succeeds : ∀ c ∈ mainBlocks.flatMap (Block.calls smooth), ∀ o ∈ c.call.outcomes, o.Succeeds c.fileSize := by
  have each (size : Nat) (small : size ≤ 2 ^ 31) : smooth.Succeeds size := ⟨rfl, rfl, ⟨_, rfl, small⟩, rfl⟩
  intro c member o outcome
  obtain ⟨block, inside, member⟩ := List.mem_flatMap.mp member
  obtain ⟨call, listed, rfl⟩ := List.mem_map.mp member
  have small : block.fileSize ≤ 2 ^ 31 := by
    simp only [mainBlocks, List.mem_cons, List.not_mem_nil, or_false] at inside
    rcases inside with rfl | rfl | rfl | rfl <;> decide
  have same : o = smooth := by
    have warm : call ∈ (if block.warm then [FileCall.warmup smooth smooth] else []) → call = .warmup smooth smooth := by
      split <;> simp
    simp only [List.mem_append, List.mem_replicate] at listed
    rcases listed with ((((⟨-, rfl⟩ | listed) | ⟨-, rfl⟩) | ⟨-, rfl⟩) | ⟨-, rfl⟩) | ⟨-, rfl⟩
    · exact List.mem_singleton.mp outcome
    · simpa [warm listed, FileCall.outcomes] using outcome
    · exact List.mem_singleton.mp outcome
    · exact List.mem_singleton.mp outcome
    · exact List.mem_singleton.mp outcome
    · exact List.mem_singleton.mp outcome
  rw [same]
  exact each _ small

/-- What `main` does, starting without the file. -/
theorem covered_calls_transfer_everything_main :
    ∃ d', (performCalls (mainBlocks.flatMap (Block.calls smooth))).result ⟨⟨fun _ => none, fun _ => [], 0, []⟩, []⟩ = (.ok (), d') ∧
      d'.timed = [] ++ ((mainBlocks.flatMap (Block.calls smooth)).flatMap fun c => c.call.intended c.fileSize) ∧
        d'.contents.file = contentsAfter none (reachAll 0 (mainBlocks.flatMap (Block.calls smooth))) ∧
          ∀ fd, descriptionOf fd d' = descriptionOf fd ⟨⟨fun _ => none, fun _ => [], 0, []⟩, []⟩ :=
  covered_calls_transfer_everything (covered_blocks smooth (by simp [mainBlocks]) 0) smooth_succeeds _

end Oreo.OsEval
