import Oreo.Transition.Effects

namespace Oreo.Blindside

open Oreo.Transition

/-! # The kernel module `blindside_kernel` -/

structure BlindsideCommand where
  fPtr : UInt64
  idx : UInt64
deriving DecidableEq, Repr

/-- The addresses the module's functions are loaded at. -/
structure Layout where
  testFoo : UInt64
  testFoo1 : UInt64
  testFoo2 : UInt64

inductive Message where
  | text (line : String)
  /-- `pr_info("test_foo %lx, test_foo1: %lx, test_foo2: %lx\n", …)` -/
  | addresses (testFoo testFoo1 testFoo2 : UInt64)
deriving DecidableEq, Repr

/-- The variables of the module, with what it has done so far: the targets of its
indirect calls and the lines it logged. -/
structure Kernel where
  fooX : BitVec 32
  fooY : BitVec 32
  secretLeakLimit : UInt64
  fooPtr : UInt64
  jumps : List UInt64
  log : List Message
deriving DecidableEq

inductive Trap where
  | divideError
  /-- An indirect call out of the module's functions. -/
  | escaped (address : UInt64)
deriving DecidableEq, Repr

abbrev KernelM := Effect Trap Kernel

def numTrain : UInt64 := 1

/-- `sizeof(user_cmd)`. -/
def commandSize : UInt64 := 16

/-- `-EFAULT`. -/
def faulted : Int64 := -14

def prInfo (message : Message) : KernelM Unit :=
  modify fun k => { k with log := k.log ++ [message] }

/-- Division of 32 bit integers, which the processor refuses for a zero divisor and
for a quotient that does not fit. -/
def divide (dividend divisor : BitVec 32) : KernelM (BitVec 32) :=
  if divisor = 0 ∨ dividend = BitVec.intMin 32 ∧ divisor = -1 then throw .divideError
  else return dividend.sdiv divisor

def testFooWith (line : String) (factor modulus : BitVec 32) : KernelM (BitVec 32) := do
  if (← get).fooX = (← get).fooY then prInfo (.text line)
  let k ← get
  divide ((k.fooX * factor - k.fooY.srem modulus) * k.fooX) k.fooY

def testFoo : KernelM (BitVec 32) := testFooWith "test_foo\n" 353 23

def testFoo1 : KernelM (BitVec 32) := testFooWith "test_foo1\n" 53 233

def testFoo2 : KernelM (BitVec 32) := testFooWith "test_foo2\n" 3 232

variable (layout : Layout)

/-- An indirect call; what the function returns stays in a register nobody reads. -/
def jumpToAddress (address : UInt64) : KernelM Unit := do
  modify fun k => { k with jumps := k.jumps ++ [address] }
  if address = layout.testFoo then discard testFoo
  else if address = layout.testFoo1 then discard testFoo1
  else if address = layout.testFoo2 then discard testFoo2
  else throw (.escaped address)

def blindside (fPtr idx : UInt64) : KernelM Unit := do
  modify fun k => { k with fooPtr := if idx = numTrain then layout.testFoo1 else layout.testFoo }
  let g := (← get).fooPtr
  prInfo (.addresses layout.testFoo layout.testFoo1 layout.testFoo2)
  jumpToAddress layout g
  let f := if idx = numTrain then fPtr else layout.testFoo
  if idx ≠ (← get).secretLeakLimit then jumpToAddress layout f

def procfileRead : KernelM Int64 := do
  modify fun k => { k with fooX := k.fooX - 1, fooY := k.fooY + 1 }
  return 0

/-- `uncopied` is what `copy_from_user` returns: the number of bytes it could not copy. -/
def procfileWrite (len : UInt64) (command : BlindsideCommand) (uncopied : UInt64) : KernelM Int64 := do
  if len ≠ commandSize then return len.toInt64
  if uncopied ≠ 0 then return faulted
  prInfo (.text "1\n")
  prInfo (.text "2\n")
  blindside layout command.fPtr command.idx
  prInfo (.text "Blindside\n")
  return len.toInt64

/-- The state `procfs2_init` leaves when the `/proc` file could be created. -/
def procfs2Init : Kernel where
  fooX := 0
  fooY := 1
  secretLeakLimit := numTrain
  fooPtr := 0
  jumps := []
  log := [.text "Init Blindside kernel module\n", .text "/proc/blindside_victim created\n"]

/-- A call of the file operations of `/proc/blindside_victim`. -/
inductive Call where
  | read
  | write (len : UInt64) (command : BlindsideCommand) (uncopied : UInt64)
deriving DecidableEq, Repr

def Call.perform : Call → KernelM Int64
  | .read => procfileRead
  | .write len command uncopied => procfileWrite layout len command uncopied

def Call.result (c : Call) (k : Kernel) : Except Trap Int64 × Kernel :=
  Effect.result (c.perform layout) k

/-- The results of a sequence of calls. A trap ends the call, not the module. -/
def run : List Call → Kernel → List (Except Trap Int64) × Kernel
  | [], k => ([], k)
  | c :: calls, k =>
      let (result, k) := c.result layout k
      let (results, k) := run calls k
      (result :: results, k)

end Oreo.Blindside
