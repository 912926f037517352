import Oreo.Bench.Read.Model
import Oreo.Posix.Host

namespace Oreo.Bench.Scratch

open Oreo.Posix Oreo.Posix.Action Oreo.Transition Oreo.Transition.Effect Oreo.Utils

/-! # The tests that work on the scratch file

`write_test`, `mmap_test`, `munmap_test`, `page_fault_test`, and `read_test` with its pointers.
-/

/-- How the calls of one run end, and what the timer reads. A test looks at the outcomes of the
calls it makes. -/
structure Outcomes where
  diffs : Bool
  buf : Bool
  fill : FillOutcomes
  /-- How many bytes each `write` transfers at most, `none` if it fails. -/
  warmup : Nat → Option Nat
  write : Nat → Option Nat
  mmap : Nat → Bool
  /-- Whether `/dev/null` can be opened. -/
  devNull : Bool
  /-- Whether the last `remove` succeeds. -/
  removed : Bool
  tstart : Nat → UInt64
  tend : Nat → UInt64

def Outcomes.duration (o : Outcomes) (idx : Nat) : Nat := getDuration (o.tstart idx) (o.tend idx)

/-- `create_and_fill(LE_FILE_PATH, file_size, 'a')`. -/
def createFile (o : FillOutcomes) (fileSize : Nat) : Action (Option Nat) := do
  let h ← get
  let result := createAndFill o leFilePath fileSize 'a'.toUInt8 h.files
  modify fun h => { h with files := result.1, exhausted := h.exhausted || !o.allocated }
  pure result.2

/-! ## `write_test` -/

namespace Write

def fileSize : TestInputSize → Nat
  | .test => 4096
  | .small => 4096
  | .medium => 40960
  | .large => 40960 * 4

def writeBuf (written : Option Nat) (fd : Nat) (buf : Pointer UInt8) : Action Unit := do
  let data ← dereference buf
  changeFiles fun fs =>
    match written with
    | some n => fs.write fd (data.take n)
    | none => fs

def warmupWrite (o : Outcomes) (fd : Nat) (buf : Pointer UInt8) (i : Nat) (_ : Unit) : Action (Bool × Unit) := do
  writeBuf (o.warmup i) fd buf
  pure (true, ())

def timedWrite (o : Outcomes) (fd : Nat) (buf : Pointer UInt8) (idx : Nat) (diffs : Pointer Nat) :
    Action (Bool × Pointer Nat) := do
  writeBuf (o.write idx) fd buf
  let diffs ← store diffs idx (o.duration idx)
  pure (true, diffs)

def body (o : Outcomes) (fileSize iterCnt fd : Nat) : Action Bool := do
  let buf ← allocate o.buf (List.replicate fileSize 0)
  let diffs ← allocate o.diffs (initDiffArray iterCnt)
  if diffs.isNone || buf.isNone then pure true
  else
    let buf ← memset buf 'a'.toUInt8
    let _ ← loop (warmupWrite o fd buf) 100 0 ()
    let (_, diffs) ← loop (timedWrite o fd buf) iterCnt 0 diffs
    collectResults diffs
    pure false

end Write

/-- `if (fd < 0) goto err`, and the test proper. -/
def withFile (body : Nat → Action Bool) : Option Nat → Action Bool
  | some fd => body fd
  | none => pure true

/-- What follows `create_and_fill`, and the cleanup. The tests differ in the path they remove. -/
def filled (o : Outcomes) (path : String) (fileSize : Nat) (body : Nat → Action Bool) : Action Bool := do
  let fd ← createFile o.fill fileSize
  let ret ← withFile body fd
  close fd
  remove o.removed path
  pure ret

def writeTest (config : BenchConfig) (o : Outcomes) : Action Bool :=
  filled o leFilePath (Write.fileSize config.iSize) (Write.body o (Write.fileSize config.iSize) config.iter)

/-! ## `mmap_test` and `munmap_test` -/

/-- One iteration: the first test times `mmap`, the second one `munmap`. -/
def timedMap (o : Outcomes) (fd idx : Nat) (diffs : Pointer Nat) : Action (Bool × Pointer Nat) := do
  let addr ← mmap (o.mmap idx) fd
  if addr.isNone then pure (false, diffs)
  else
    munmap addr
    let diffs ← store diffs idx (o.duration idx)
    pure (true, diffs)

def mapBody (o : Outcomes) (iterCnt : Nat) (diffs : Pointer Nat) (fd : Nat) : Action Bool := do
  let (measured, diffs) ← loop (timedMap o fd) iterCnt 0 diffs
  if !measured then pure true
  else
    collectResults diffs
    pure false

def mapRun (o : Outcomes) (fileSize iterCnt : Nat) : Action Bool := do
  let diffs ← allocate o.diffs (initDiffArray iterCnt)
  if diffs.isNone then
    remove o.removed leFilePath
    pure true
  else filled o leFilePath fileSize (mapBody o iterCnt diffs)

def mmapTest (config : BenchConfig) (o : Outcomes) : Action Bool :=
  mapRun o (Bench.Read.fileSize config.iSize) config.iter

def munmapTest (config : BenchConfig) (o : Outcomes) : Action Bool :=
  mapRun o (Bench.Read.fileSize config.iSize) config.iter

/-! ## `page_fault_test` -/

namespace PageFault

structure Locals where
  diffs : Pointer Nat
  a : UInt8

/-- Neither `mmap` nor `init_diff_array` is checked. -/
def timedLoad (o : Outcomes) (fd idx : Nat) (l : Locals) : Action (Bool × Locals) := do
  let addr ← mmap (o.mmap idx) fd
  let byte ← firstByte addr
  munmap addr
  let diffs ← store l.diffs idx (o.duration idx)
  pure (true, ⟨diffs, l.a + byte⟩)

def devNull : String := "/dev/null"

/-- `fopen` for writing, `fprintf` and `fclose`: the device keeps nothing, but a missing file is
created. -/
def printDevNull (text : List UInt8) (fs : Files) : Files :=
  match fs.names devNull with
  | some _ => fs
  | none =>
      let (fs, fd) := fs.openCreate devNull
      (fs.write fd text).close fd

def body (o : Outcomes) (iterCnt : Nat) (diffs : Pointer Nat) (fd : Nat) : Action Bool := do
  let (_, l) ← loop (timedLoad o fd) iterCnt 0 ⟨diffs, 0⟩
  collectResults l.diffs
  changeFiles fun fs => if o.devNull then printDevNull [l.a, '\n'.toUInt8] fs else fs
  pure false

def run (o : Outcomes) (fileSize iterCnt : Nat) : Action Bool := do
  let diffs ← allocate o.diffs (initDiffArray iterCnt)
  filled o leFilePath fileSize (body o iterCnt diffs)

end PageFault

def pageFaultTest (config : BenchConfig) (o : Outcomes) : Action Bool :=
  PageFault.run o (Bench.Read.fileSize config.iSize) config.iter

/-! ## `read_test` -/

namespace ReadTest

def readBuf (fd fileSize : Nat) (buf : Pointer UInt8) : Action Unit := do
  let _ ← dereference buf
  changeFiles fun fs => fs.read fd fileSize

def warmupRead (fd fileSize : Nat) (buf : Pointer UInt8) (_ : Nat) (_ : Unit) : Action (Bool × Unit) := do
  readBuf fd fileSize buf
  pure (true, ())

def timedRead (o : Outcomes) (fd fileSize : Nat) (buf : Pointer UInt8) (idx : Nat) (diffs : Pointer Nat) :
    Action (Bool × Pointer Nat) := do
  readBuf fd fileSize buf
  let diffs ← store diffs idx (o.duration idx)
  pure (true, diffs)

def body (o : Outcomes) (fileSize iterCnt : Nat) (diffs : Pointer Nat) (buf : Pointer UInt8) (fd : Nat) :
    Action Bool := do
  if buf.isNone then pure true
  else
    let _ ← loop (warmupRead fd fileSize buf) Bench.Read.warmups 0 ()
    let (_, diffs) ← loop (timedRead o fd fileSize buf) iterCnt 0 diffs
    collectResults diffs
    pure false

/-- The file it removes at the end is not the one it has created. -/
def run (o : Outcomes) (fileSize iterCnt : Nat) : Action Bool := do
  let diffs ← allocate o.diffs (initDiffArray iterCnt)
  if diffs.isNone then
    remove o.removed Bench.Read.filePath
    pure true
  else
    let buf ← allocate o.buf (List.replicate fileSize 0)
    filled o Bench.Read.filePath fileSize (body o fileSize iterCnt diffs buf)

end ReadTest

def readTest (config : BenchConfig) (o : Outcomes) : Action Bool :=
  ReadTest.run o (Bench.Read.fileSize config.iSize) config.iter


/-! ## All of them -/

inductive Test where
  | read
  | write
  | mmap
  | munmap
  | pageFault
deriving DecidableEq, Repr

def Test.action : Test → BenchConfig → Outcomes → Action Bool
  | .read => readTest
  | .write => writeTest
  | .mmap => mmapTest
  | .munmap => munmapTest
  | .pageFault => pageFaultTest

end Oreo.Bench.Scratch
