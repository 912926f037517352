import Oreo.Posix.Timespec

namespace Oreo.OsEval

open Oreo.Posix

/-! # The durations of `os_eval` -/

section

variable {α : Type} [∀ n, OfNat α n] [Add α] [Sub α] [LT α] [LE α] [DecidableLT α] [DecidableLE α]

/-- `*result` after the call. -/
def addDiffToSum (result a b : Timespec α) : Timespec α :=
  if result.nsec + a.nsec < b.nsec then
    { nsec := 1000000000 + result.nsec + a.nsec - b.nsec
      sec := result.sec + a.sec - b.sec - 1 }
  else if result.nsec + a.nsec - b.nsec ≥ 1000000000 then
    { nsec := result.nsec + a.nsec - b.nsec - 1000000000
      sec := result.sec + a.sec - b.sec + 1 }
  else
    { nsec := result.nsec + a.nsec - b.nsec
      sec := result.sec + a.sec - b.sec }

def calcDiff (smaller bigger : Timespec α) : Timespec α :=
  if smaller.nsec > bigger.nsec then
    { nsec := 1000000000 + bigger.nsec - smaller.nsec
      sec := bigger.sec - 1 - smaller.sec }
  else
    { nsec := bigger.nsec - smaller.nsec
      sec := bigger.sec - smaller.sec }

/-- The body of the loops of `calc_sum` and `calc_sum2`. -/
def accumulate (sum t : Timespec α) : Timespec α :=
  if t.nsec ≥ 1000000000 - sum.nsec then
    { sec := sum.sec + 1 + t.sec
      nsec := t.nsec - (1000000000 - sum.nsec) }
  else
    { nsec := sum.nsec + t.nsec
      sec := sum.sec + t.sec }

/-- `array` holds pointers, and `deref` is what they point to. -/
def calcSum {P : Type} (deref : P → Timespec α) (array : List P) (size : Int32) : Timespec α :=
  (array.take size.toNatClampNeg).foldl (fun sum p => accumulate sum (deref p)) ⟨0, 0⟩

def calcSum2 (array : List (Timespec α)) (size : Int32) : Timespec α :=
  (array.take size.toNatClampNeg).foldl accumulate ⟨0, 0⟩

end

def calcAverage (sum : Timespec Int64) (size : Int32) : Timespec Int64 :=
  if size = 0 then ⟨0, 0⟩
  else
    { nsec := sum.nsec / size.toInt64 + sum.sec % size.toInt64 * 1000000000 / size.toInt64
      sec := sum.sec / size.toInt64 }

end Oreo.OsEval
