import Oreo.Blindside.Refinement
import Mathlib.Data.List.Nodup

namespace Oreo.Blindside

open Oreo.Transition

/-! # The programs that write to the module

`blindside` trains the module's branch with one address and then has it mispredict to another. -/

/-- A process that runs `blindside`: whether it was built with `TEST_ONE`, and what `atoi` and
`strtoull` make of its arguments (0 without them). -/
structure Program where
  testOne : Bool
  probeModule : Int32
  i : UInt64
deriving DecidableEq, Repr

def startKernel : UInt64 := 0xffffff8000000000

def startKernelModule : UInt64 := 0xffffff8040000000

def align : UInt64 := 0x80000000

def numOffsets : Nat := 32

def entrySyscall64 : UInt64 := 0x800040

def moduleRelaDist : UInt64 := 0x3

/-- The command is on the stack of the caller, so that it can be copied. -/
def callKernel (testAddr idx : UInt64) : Call := .write commandSize ⟨testAddr, idx⟩ 0

def testOneAddress (testAddr : UInt64) : List Call :=
  (List.range numTrain.toNat).map (fun i => callKernel 0 (UInt64.ofNat i)) ++ [callKernel testAddr numTrain]

namespace Program

def testAddr (program : Program) (i : UInt64) : UInt64 :=
  if program.probeModule ≠ 0 then startKernelModule + moduleRelaDist + i * align
  else startKernel + entrySyscall64 + i * align

/-- The calls that `main` makes once `/proc/blindside_victim` is open. -/
def main (program : Program) : List Call :=
  if program.testOne then testOneAddress (program.testAddr program.i)
  else (List.range numOffsets).flatMap fun i => testOneAddress (program.testAddr (UInt64.ofNat i))

end Program

/-! ## The calls of any number of programs -/

/-- What the call returns while the counter is not zero. -/
def Call.value : Call → Int64
  | .read => 0
  | .write len _ _ => len.toInt64

variable (layout : Layout)

def Call.called : Call → List UInt64
  | .read => []
  | .write _ command _ => targets layout command.idx

variable {layout} {v : View} {calls : List Call}

end Oreo.Blindside
