import Oreo.Posix.Timespec
import Mathlib.Data.Rat.Defs

namespace Oreo.Utils

open Oreo.Posix

/-- `_get_duration` of a build whose timers count in an unsigned 64 bit integer: the
ticks between two readings, modulo the range of the counter. -/
def getDuration (start stop : UInt64) : Nat := (stop - start).toNat

/-- `get_timespec_diff_nsec`, with doubles as exact numbers; a `NULL` argument is `none`. -/
def getTimespecDiffNsec (tstart tend : Option (Timespec Int)) : ℚ :=
  match tstart, tend with
  | some tstart, some tend => ((tend.sec - tstart.sec : Int) : ℚ) * 1000000000 + ((tend.nsec - tstart.nsec : Int) : ℚ)
  | _, _ => 0

/-- `init_diff_array`, once its memory is there. -/
def initDiffArray (iterCnt : Nat) : List Nat := List.replicate iterCnt 0

end Oreo.Utils
