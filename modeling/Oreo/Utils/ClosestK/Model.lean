import Oreo.LeBench
import Oreo.Utils.Aggregate.Model

namespace Oreo.Utils

variable {K : Type*} [Field K] [LinearOrder K]

/-- Reading an array at a checked index; the error is the index that lies outside. -/
def readAt (data : List K) (index : Nat) : Except Nat K :=
  match data[index]? with
  | some x => .ok x
  | none => .error index

def doubleCmp (a b : K) : Int :=
  if a < b then -1 else if a > b then 1 else 0

/-- `qsort` of the C library: a permutation in the order of the comparison function. -/
def qsort (compare : K → K → Int) (data : List K) : List K :=
  data.mergeSort fun a b => decide (compare a b ≤ 0)

/-- `fabs(data[idx] - data[idx - 1]) / data[idx] < IMPRECISION`. A zero divisor gives
`NaN` or an infinity, and neither compares below the bound. -/
def isClose (previous current : K) : Bool :=
  if current = 0 then false else decide (|current - previous| / current < 1 / 100)

/-- From index `start` on, `k` neighbouring samples of `s` are closer than `IMPRECISION`. -/
def Dense (s : List K) (k start : Nat) : Prop :=
  ∀ j, start ≤ j → j < start + k → ∃ bound : j + 1 < s.length, (s[j + 1] - s[j]) / s[j + 1] < 1 / 100

/-- The value `closest_k` returns, `none` for `NAN`, and the count in its
"Only found" warning if it prints one. -/
structure Closest (K : Type*) where
  value : Option K
  onlyFound : Option Nat
deriving DecidableEq

/-- The scan of the sorted samples: `remaining` is `size - idx`. With none left,
`idx` has become `size` and the code after the loop runs. -/
def closestScan (data : List K) (k : Nat) : Nat → Nat → Nat → Except Nat (Closest K)
  | 0, idx, contCnt => do
      let x ← readAt data (idx - contCnt)
      return ⟨some x, if contCnt ≠ k then some contCnt else none⟩
  | remaining + 1, idx, contCnt => do
      let current ← readAt data idx
      let previous ← readAt data (idx - 1)
      if isClose previous current then
        if contCnt + 1 = k then
          let x ← readAt data (idx - (contCnt + 1))
          return ⟨some x, none⟩
        else closestScan data k remaining (idx + 1) (contCnt + 1)
      else closestScan data k remaining (idx + 1) 0

def closestK (data : List K) (k : Nat) : Except Nat (Closest K) :=
  if data.length = 0 then .ok ⟨none, none⟩
  else if data.length = 1 then do
    let x ← readAt data 0
    return ⟨some x, none⟩
  else closestScan (qsort doubleCmp data) k (data.length - 1) 1 0

/-- `CLOSEST_K`. -/
def closestCount : Nat := 5

/-- `collect_results` of a build with the timer enabled. -/
def collectResults (sqrt : K → K) (data : List K) (config : BenchConfig) :
    Except Nat (BenchResult K) := do
  let stats := Aggregate.aggregate sqrt data
  let closest ← closestK data closestCount
  return {
    config
    mean := stats.map fun s => s.mean
    stddev := stats.map fun s => s.stddev
    max := stats.map fun s => s.max
    min := stats.map fun s => s.min
    kClosest := closest.value
    errored := false }

end Oreo.Utils
