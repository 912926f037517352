import Mathlib.Algebra.Order.Field.Basic
import Mathlib.Algebra.Order.Ring.Abs

namespace Oreo.Utils.Aggregate

/-! # `aggregate`: sigma clipping over the samples of a benchmark

Doubles are elements of an ordered field `K`, with the square root as a
parameter: over the reals this is exact arithmetic, and over the rationals the
same definitions run on inputs whose roots are rational.
-/

variable {K : Type*} [Field K] [LinearOrder K]

/-- `MAX_ITER`. -/
def maxIter : Nat := 5

/-- `TOLERANCE`. -/
def tolerance : K := 3

/-- `(double)LLONG_MIN`. -/
def llongMin : K := -2 ^ 63

/-- `(double)LLONG_MAX`: the conversion rounds `2 ^ 63 - 1` up, the nearest double. -/
def llongMax : K := 2 ^ 63

structure Locals (K : Type*) where
  avg : K
  dev : K
  _avg : K
  _stddev : K
  max : K
  min : K
  changed : Bool
  iter : Nat
  removed : Nat
  validSize : Nat

/-- The variables at entry. The caller's cells behind `max` and `min` are
written before they are read, so their contents do not matter. -/
def start (size : Nat) : Locals K where
  avg := 0
  dev := 0
  _avg := 0
  _stddev := 0
  max := 0
  min := 0
  changed := true
  iter := 0
  removed := 0
  validSize := size

/-- The filter of a pass, the condition of both scans. -/
def Locals.accepts (s : Locals K) (x : K) : Bool :=
  s.iter == 0 || decide (|x - s._avg| < tolerance * s._stddev)

def Locals.reset (s : Locals K) (size : Nat) : Locals K :=
  { s with
    max := llongMin, min := llongMax, changed := s.iter == 0, removed := 0,
    validSize := size, avg := 0, dev := 0 }

def accumulate (s : Locals K) (x : K) : Locals K :=
  if s.accepts x then
    { s with
      avg := s.avg + x
      max := if x > s.max then x else s.max
      min := if x < s.min then x else s.min }
  else { s with changed := true, removed := s.removed + 1 }

/-- One iteration of the second scan; `avg` holds the new mean by now, the
filter still compares with the saved `_avg` and `_stddev`. -/
def addDeviation (s : Locals K) (x : K) : Locals K :=
  if s.accepts x then { s with dev := s.dev + (x - s.avg) / s.validSize * (x - s.avg) } else s

/-- How the body of the `while` loop ends. -/
inductive Step (K : Type*) where
  /-- The break after "Too much noise!". -/
  | tooMuchNoise (s : Locals K)
  /-- The break on a small mean or a small relative deviation. -/
  | precise (s : Locals K)
  /-- The end of the body, back to the loop condition. -/
  | next (s : Locals K)

def Step.locals : Step K → Locals K
  | .tooMuchNoise s | .precise s | .next s => s

/-- The body of the `while` loop. -/
def pass (sqrt : K → K) (data : List K) (s : Locals K) : Step K :=
  let s := data.foldl accumulate (s.reset data.length)
  let s := { s with validSize := s.validSize - s.removed }
  if s.validSize = 0 then
    .tooMuchNoise { s with avg := s._avg, dev := s._stddev * s._stddev }
  else
    let s := { s with avg := s.avg / s.validSize }
    let s := data.foldl addDeviation s
    let s := { s with _avg := s.avg, _stddev := sqrt s.dev }
    if s._avg < 1 / 1000 ∨ s._stddev / s._avg < 1 / 1000 then .precise s
    else .next { s with iter := s.iter + 1 }

def Locals.isPrecise (s : Locals K) : Prop := s._avg < 1 / 1000 ∨ s._stddev / s._avg < 1 / 1000

instance (s : Locals K) : Decidable s.isPrecise := inferInstanceAs (Decidable (_ ∨ _))

/-- The samples are in the range of the constants in `aggregate`. -/
def InRange (data : List K) : Prop := ∀ x ∈ data, 1 / 1000 ≤ x ∧ x ≤ 2 ^ 63

/-- `while (iter < MAX_ITER && changed)`, with `MAX_ITER - iter` as the recursion. -/
def loop (sqrt : K → K) (data : List K) : Nat → Locals K → Locals K
  | 0, s => s
  | remaining + 1, s =>
      if s.changed then
        match pass sqrt data s with
        | .tooMuchNoise s' | .precise s' => s'
        | .next s' => loop sqrt data remaining s'
      else s

/-- What `aggregate` writes through its four pointers. -/
structure Stats (K : Type*) where
  mean : K
  stddev : K
  max : K
  min : K

/-- The assignments after the loop; `none` is the branch that sets all four outputs to `NAN`. -/
def Locals.outputs (sqrt : K → K) (s : Locals K) (size : Nat) : Option (Stats K) :=
  if size ≠ 0 then
    some {
      mean := s.avg
      stddev := if size = 1 then 0 else sqrt s.dev
      max := s.max
      min := s.min }
  else none

def aggregate (sqrt : K → K) (data : List K) : Option (Stats K) :=
  (loop sqrt data maxIter (start data.length)).outputs sqrt data.length

structure Pass (K : Type*) where
  entry : Locals K
  exit : Step K

def passes (sqrt : K → K) (data : List K) : Nat → Locals K → List (Pass K)
  | 0, _ => []
  | remaining + 1, s =>
      if s.changed then
        ⟨s, pass sqrt data s⟩ ::
          match pass sqrt data s with
          | .tooMuchNoise _ | .precise _ => []
          | .next s' => passes sqrt data remaining s'
      else []

end Oreo.Utils.Aggregate
