import Oreo.Posix.Host

namespace Oreo.OsEval

open Oreo.Posix Oreo.Transition Oreo.Transition.Effect

/-! # The tests of `os_eval` that work on a file

`read_test`, `read_warmup`, `write_test`, `mmap_test`, `page_fault_test` and `munmap_test`. They open
`test_file.txt` anew each time and check nothing they are answered.
-/

def testFile : String := "test_file.txt"

def pageSize : Nat := 4096

/-- What is done between two readings of the clock, and what comes of it. -/
inductive Timing where
  /-- `read` of so many bytes: how many it transfers, `none` if it fails. -/
  | read (size : Nat) (returned : Option Nat)
  | write (size : Nat) (returned : Option Nat)
  | mmap (size : Nat) (mapped : Bool)
  | load (byte : UInt8)
  | munmap (size : Nat)
deriving DecidableEq, Repr

structure Disk where
  files : Files
  timed : List Timing

abbrev DiskAction := Effect Fault Disk

/-- How the calls of a test function end. -/
structure Outcomes where
  malloc : Bool
  /-- Whether `open` succeeds where it can. -/
  opened : Bool
  /-- How many bytes `write` transfers at most, `none` if it fails. -/
  write : Option Nat
  mmap : Bool
deriving DecidableEq, Repr

namespace DiskAction

def time (timing : Timing) : DiskAction Unit := modify fun d => { d with timed := d.timed ++ [timing] }

def malloc (granted : Bool) (size : Nat) : Pointer UInt8 := if granted then some (List.replicate size 0) else none

/-- `for (int i = 0; i < file_size; i++) buf[i] = 'a';` with a size above 0. -/
def fill (buf : Pointer UInt8) : DiskAction (Pointer UInt8) :=
  match buf with
  | some data => pure (some (data.map fun _ => 'a'.toUInt8))
  | none => throw .nullPointer

/-- `open(…, O_RDONLY)` and `open(…, O_RDWR)`, or with `O_CREAT` beside `O_WRONLY`. -/
def openFile (create granted : Bool) : DiskAction (Option Nat) := do
  let d ← get
  match if granted then d.files.names testFile else none with
  | some file => do
      modify fun d => { d with files := d.files.install ⟨file, 0⟩ }
      pure (some d.files.lowest)
  | none =>
      if granted && create then do
        modify fun d => { d with files := (d.files.openCreate testFile).1 }
        pure (some (d.files.openCreate testFile).2)
      else pure none

/-- `close`, which does nothing to the descriptor -1. -/
def close (fd : Option Nat) : DiskAction Unit :=
  modify fun d => { d with files := fd.elim d.files d.files.close }

/-- `read` of the descriptor into a buffer; the kernel refuses to transfer bytes to `NULL`. -/
def sysRead (fd : Option Nat) (buf : Pointer UInt8) (size : Nat) : DiskAction (Option Nat) := do
  let d ← get
  match fd with
  | some fd =>
      if buf.isNone && d.files.available fd size ≠ 0 then pure none
      else do
        modify fun d => { d with files := d.files.read fd size }
        pure (some (d.files.available fd size))
  | none => pure none

def sysWrite (limit : Option Nat) (fd : Option Nat) (data : List UInt8) : DiskAction (Option Nat) := do
  match fd, limit with
  | some fd, some n => do
      modify fun d => { d with files := d.files.write fd (data.take n) }
      pure (some (data.take n).length)
  | _, _ => pure none

/-- A private mapping of the file from its start on. -/
def sysMmap (granted : Bool) (fd : Option Nat) : DiskAction Mapping := do
  let d ← get
  pure (if granted then (fd.bind d.files.description).map Description.file else none)

/-- `*((char *)addr)`. -/
def firstByte (addr : Mapping) : DiskAction UInt8 := do
  let d ← get
  match addr with
  | some file =>
      match d.files.bytes file with
      | byte :: _ => pure byte
      | [] => throw .bus
  | none => throw .mapFailed

/-- `for (int i = 0; i < file_size; i++) ((char *)addr)[i] = 'b';` with a size above 0. The pages are
copied when they are written to; there is none behind the last one that holds a byte of the file. -/
def touch (addr : Mapping) (size : Nat) : DiskAction Unit := do
  let d ← get
  match addr with
  | some file => if ((d.files.bytes file).length + (pageSize - 1)) / pageSize * pageSize < size then throw .bus else pure ()
  | none => throw .mapFailed

end DiskAction

open DiskAction

/-- What a test does with its descriptor between `open` and `close`. -/
def withFile {α : Type} (create granted : Bool) (body : Option Nat → DiskAction α) : DiskAction α := do
  let fd ← openFile create granted
  let a ← body fd
  close fd
  pure a

variable (fileSize : Nat) (o : Outcomes)

def readTest : DiskAction Unit := do
  let bufIn := malloc o.malloc fileSize
  withFile false o.opened fun fd => do
    let returned ← sysRead fd bufIn fileSize
    time (.read fileSize returned)

def writeTest : DiskAction Unit := do
  let buf ← fill (malloc o.malloc fileSize)
  withFile true o.opened fun fd => do
    let returned ← sysWrite o.write fd (buf.getD [])
    time (.write fileSize returned)

def mmapTest : DiskAction Unit :=
  withFile false o.opened fun fd => do
    let addr ← sysMmap o.mmap fd
    time (.mmap fileSize addr.isSome)

def pageFaultTest : DiskAction Unit :=
  withFile false o.opened fun fd => do
    let addr ← sysMmap o.mmap fd
    let a ← firstByte addr
    time (.load a)

def munmapTest : DiskAction Unit :=
  withFile false o.opened fun fd => do
    let addr ← sysMmap o.mmap fd
    touch addr fileSize
    time (.munmap fileSize)

def readRepeatedly (times : Nat) (fd : Option Nat) (buf : Pointer UInt8) (size : Nat) : DiskAction Unit :=
  (List.range times).forM fun _ => do
    let _ ← sysRead fd buf size
    pure ()

/-- `oIn` is for the calls behind the first `close`. -/
def readWarmup (oIn : Outcomes) : DiskAction Unit := do
  let bufOut ← fill (malloc o.malloc fileSize)
  withFile true o.opened fun fd => do
    let _ ← sysWrite o.write fd (bufOut.getD [])
    pure ()
  let bufIn := malloc oIn.malloc fileSize
  withFile false oIn.opened fun fd => readRepeatedly 1000 fd bufIn fileSize

/-- A call that `main` makes, through `one_line_test` or by itself. -/
inductive FileCall where
  | read (o : Outcomes)
  | write (o : Outcomes)
  | mmap (o : Outcomes)
  | pageFault (o : Outcomes)
  | munmap (o : Outcomes)
  | warmup (o oIn : Outcomes)

def FileCall.perform : FileCall → DiskAction Unit
  | .read o => readTest fileSize o
  | .write o => writeTest fileSize o
  | .mmap o => mmapTest fileSize o
  | .pageFault o => pageFaultTest o
  | .munmap o => munmapTest fileSize o
  | .warmup o oIn => readWarmup fileSize o oIn

/-- A call with the value that `file_size` has at the time. `main` sets it before the first one. -/
structure SizedCall where
  fileSize : Nat
  positive : 0 < fileSize
  call : FileCall

def performCalls (calls : List SizedCall) : DiskAction Unit := calls.forM fun c => c.call.perform c.fileSize

end Oreo.OsEval
