import Mathlib.Tactic.TypeStar

namespace Oreo

/-! # `le_bench.h` -/

inductive TestInputSize where
  | test
  | small
  | medium
  | large
deriving DecidableEq, Repr

structure BenchConfig where
  iter : Nat
  iSize : TestInputSize
deriving DecidableEq, Repr

/-- The fields of a `BenchResult` that `collect_results` fills in; `none` is `NAN`.
The `child` pointer, which it sets to `NULL`, is left to the callers that chain results. -/
structure BenchResult (K : Type*) where
  config : BenchConfig
  mean : Option K
  stddev : Option K
  max : Option K
  min : Option K
  kClosest : Option K
  errored : Bool

end Oreo
