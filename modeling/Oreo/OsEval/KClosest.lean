import Oreo.Posix.Timespec
import Oreo.Utils.ClosestK.Model

namespace Oreo.OsEval

open Oreo.Posix Oreo.Utils

/-! # `calc_k_closest` -/

def comp (t1 t2 : Timespec Int) : Int :=
  if t1.sec > t2.sec then 1
  else if t1.sec = t2.sec then
    if t1.nsec > t2.nsec then 1
    else if t1.nsec = t2.nsec then 0
    else -1
  else -1

def K : Nat := 5

/-- `INPRECISION`. -/
def inprecision : ℚ := 1 / 20

/-- `diff / (double)prev->tv_nsec > INPRECISION`. With a zero divisor the quotient is an infinity,
or `NaN`, which no comparison finds greater. -/
def isFar (prev curr : Timespec Int) : Bool :=
  let diff : Int := curr.nsec - prev.nsec
  if prev.nsec = 0 then decide (0 < diff) else decide ((diff : ℚ) / prev.nsec > inprecision)

/-- The branch of the loop body that a sample and the one before it lead to. -/
inductive Gap where
  | seconds
  | far
  | near
deriving DecidableEq, Repr

def gap (prev curr : Timespec Int) : Gap :=
  if curr.sec ≠ 0 ∨ prev.sec ≠ 0 then .seconds
  else if isFar prev curr then .far
  else .near

/-- A pointer into `timeArray` is the index it points at, `none` is `NULL`. -/
abbrev Pointer := Option Nat

/-- Writing an array at a checked index; the error is the index that lies outside. -/
def writeAt (buffer : List Pointer) (index : Nat) (p : Pointer) : Except Nat (List Pointer) :=
  if index < buffer.length then .ok (buffer.set index p) else .error index

/-- The loop over the sorted samples: `remaining` is `size - i`, `prev` is `&timeArray[i - 1]`. -/
def closestScan (timeArray : List (Timespec Int)) : Nat → Nat → Nat → List Pointer → Except Nat (List Pointer)
  | 0, _, _, kClosest => .ok kClosest
  | remaining + 1, i, j, kClosest => do
      let curr ← readAt timeArray i
      let prev ← readAt timeArray (i - 1)
      match gap prev curr with
      | .seconds => closestScan timeArray remaining (i + 1) 0 kClosest
      | .far => closestScan timeArray remaining (i + 1) 0 (List.replicate K none)
      | .near =>
          let kClosest ← writeAt kClosest j (some i)
          if j + 1 = K then .ok kClosest else closestScan timeArray remaining (i + 1) (j + 1) kClosest

/-- The array as `qsort` has left it, and the pointer that is returned. -/
def calcKClosest (timeArray : List (Timespec Int)) : Except Nat (List (Timespec Int) × Pointer) := do
  let timeArray := qsort comp timeArray
  let kClosest ← writeAt (List.replicate K none) 0 (some 0)
  let kClosest ← closestScan timeArray (timeArray.length - 1) 1 1 kClosest
  let result ← readAt kClosest 0
  return (timeArray, result)

end Oreo.OsEval
