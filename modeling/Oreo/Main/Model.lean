import Oreo.LeBench
import Oreo.Posix.Stdio

namespace Oreo.Main

open Oreo.Posix Oreo.Transition

/-! # `main.c` and how it is built -/

inductive Macro where
  | disableTimer
  | useRdtscp
  | useM5Rpns
  | gem5Hook
deriving DecidableEq, Repr

/-- `TIME_UNIT`. -/
def timeUnit (macros : List Macro) : String :=
  if .disableTimer ∉ macros then
    if .useRdtscp ∈ macros then "cyc."
    else if .useM5Rpns ∈ macros then "ns"
    else "ns"
  else "n.d."

/-- The `HOOK_FLAGS` of the Makefile. -/
def hookFlags : List Macro := [.gem5Hook, .useM5Rpns]

inductive Binary where
  | hook
  | run
deriving DecidableEq, Repr

/-- `make hook`, and `make run EXTRA_FLAGS="-D USE_RDTSCP"`. -/
def Binary.macros : Binary → List Macro
  | .hook => hookFlags
  | .run => [.useRdtscp]

inductive Tester where
  | contextSwitchTest
  | readTest
  | writeTest
  | mmapTest
  | munmapTest
  | forkTest
  | threadCreateTest
  | sendTest
  | recvTest
  | selectTest
  | pollTest
  | epollTest
  | pageFaultTest
deriving DecidableEq, Repr

structure TestConfig where
  tester : Tester
  iter : Nat
  iSize : TestInputSize
  name : String
deriving DecidableEq, Repr

def testConfigs : List TestConfig := [
  ⟨.contextSwitchTest, 200, .large, "context-switch"⟩,
  ⟨.readTest, 500, .small, "small-read"⟩,
  ⟨.readTest, 200, .medium, "med-read"⟩,
  ⟨.readTest, 100, .large, "big-read"⟩,
  ⟨.writeTest, 500, .small, "small-write"⟩,
  ⟨.writeTest, 200, .medium, "med-write"⟩,
  ⟨.writeTest, 50, .large, "large-write"⟩,
  ⟨.mmapTest, 500, .medium, "mmap"⟩,
  ⟨.munmapTest, 500, .medium, "munmap"⟩,
  ⟨.forkTest, 200, .small, "fork"⟩,
  ⟨.forkTest, 50, .large, "big-fork"⟩,
  ⟨.threadCreateTest, 200, .large, "thrcreate"⟩,
  ⟨.sendTest, 200, .small, "small-send"⟩,
  ⟨.sendTest, 100, .large, "big-send"⟩,
  ⟨.recvTest, 500, .small, "small-recv"⟩,
  ⟨.recvTest, 200, .large, "big-recv"⟩,
  ⟨.selectTest, 500, .small, "small-select"⟩,
  ⟨.selectTest, 100, .large, "big-select"⟩,
  ⟨.pollTest, 500, .small, "small-poll"⟩,
  ⟨.pollTest, 100, .large, "big-poll"⟩,
  ⟨.epollTest, 500, .small, "small-epoll"⟩,
  ⟨.epollTest, 100, .large, "big-epoll"⟩,
  ⟨.pageFaultTest, 200, .small, "small-pagefault"⟩,
  ⟨.pageFaultTest, 100, .large, "big-pagefault"⟩]

def stats : String := "lebench_stats.csv"

/-- The header line in the unit `u`. -/
def header (u : String) : List Char :=
  ("name,closest_k (" ++ u ++ "),mean (" ++ u ++ "),stddev (" ++ u ++ "),max (" ++ u ++ "),min (" ++ u ++
    ")\n").toList

section

-- `fixed` is what the conversion `%.2f` makes of a value, and `spill` how the streams are buffered
variable {K : Type} (fixed : Option K → String) (spill : Nat → Nat) (macros : List Macro)

def row (name : String) (res : BenchResult K) : List Char :=
  (name ++ "," ++ fixed res.kClosest ++ "," ++ fixed res.mean ++ "," ++ fixed res.stddev ++ "," ++
    fixed res.max ++ "," ++ fixed res.min ++ "\n").toList

def resultLine (name : String) (res : BenchResult K) : String :=
  let u := timeUnit macros
  "[Result] name: " ++ name ++ "; closest_k: " ++ fixed res.kClosest ++ " " ++ u ++
    "; mean: " ++ fixed res.mean ++ " " ++ u ++ "; stddev: " ++ fixed res.stddev ++ " " ++ u ++
    "; max: " ++ fixed res.max ++ " " ++ u ++ "; min: " ++ fixed res.min ++ " " ++ u ++ "\n"

/-- The body of the loop of `print_results` for a result without an error. -/
def printResult (name : String) (res : BenchResult K) : StdioM Unit := do
  if .disableTimer ∉ macros then
    printf (resultLine fixed macros name res)
    let fp ← fopen stats .append
    let fpr ← fopen stats .read
    let (c, fpr) ← fgetc fpr
    let fp ← (if c = none then fprintf spill fp (header (timeUnit macros)) else pure fp)
    let fpr := ungetc c fpr
    fclose (some fpr)
    let fp ← fprintf spill fp (row fixed name res)
    fclose fp
  else printf "Test finished\n"

def printChain (name : String) : List (BenchResult K) → StdioM Unit
  | [] => pure ()
  | res :: children => do
      if res.errored then eprintf "Test failed\n"
      else
        printResult fixed spill macros name res
        printChain name children

/-- `print_results` for a result and those its `child` pointers lead to. -/
def printResults (res : BenchResult K) (children : List (BenchResult K)) (name : String) : StdioM Unit :=
  printChain fixed spill macros name (res :: children)

/-- What a test function returns, and the results it leaves. -/
structure Tested (K : Type) where
  failed : Bool
  res : BenchResult K
  children : List (BenchResult K)

/-- `ZINFO` and `ZERROR`. -/
def zinfo : String := "[\x1b[32m INFO\x1b[0m] "

def zerror : String := "[\x1b[31mERROR\x1b[0m] "

/-- `main`, given its two arguments as numbers and the test functions. -/
def main (idx scale : Int) (run : Tester → BenchConfig → Tested K) : StdioM Nat := do
  match if idx < 0 then none else testConfigs[idx.toNat]? with
  | none =>
      eprintf ("Invalid test ID: " ++ toString idx ++ "; Test ID range: 0-" ++
        toString testConfigs.length ++ "\n")
      return 1
  | some config =>
      if scale < 1 then
        eprintf ("Invalid scale " ++ toString scale ++ "\n")
        return 2
      eprintf (zinfo ++ "Running \"" ++ config.name ++ "\"\n")
      let tested := run config.tester ⟨config.iter * scale.toNat, config.iSize⟩
      if tested.failed then
        eprintf (zerror ++ "Failed to run \"" ++ config.name ++ "\"\n")
        return 1
      printResults fixed spill macros tested.res tested.children config.name
      return 0

end

end Oreo.Main
