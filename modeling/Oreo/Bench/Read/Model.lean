import Oreo.LeBench
import Oreo.Utils.CreateAndFill
import Oreo.Utils.Timer

namespace Oreo.Bench.Read

open Oreo.Posix Oreo.Utils

/-! # `read_test` -/

/-- `FILE_PATH`, which is not the path of the file that is read. -/
def filePath : String := "/tmp/LEBench_WR"

def fileSize : TestInputSize → Nat
  | .test => 4096
  | .small => 4096
  | .medium => 40960
  | .large => 4096000

def warmups : Nat := 100

/-- How the calls of one run end, and what the timer reads around each timed `read`. -/
structure Outcomes where
  /-- Whether `init_diff_array` and `calloc` return memory. -/
  diffs : Bool
  buf : Bool
  fill : FillOutcomes
  /-- Whether the last `remove` succeeds. -/
  removed : Bool
  tstart : Nat → UInt64
  tend : Nat → UInt64

/-- What a run leaves: its return value, the samples handed to `collect_results`, what
each timed `read` returned, and the files. -/
structure Outcome where
  ret : Bool
  collected : Option (List Nat)
  timed : List Nat
  files : Files

def warmup (fd size : Nat) : Nat → Files → Files
  | 0, fs => fs
  | remaining + 1, fs => warmup fd size remaining (fs.read fd size)

structure Loop where
  files : Files
  diffs : List Nat
  timed : List Nat

/-- One iteration of the timed loop. The source does not keep what `read` returns. -/
def Loop.iterate (o : Outcomes) (fd size idx : Nat) (l : Loop) : Loop where
  files := l.files.read fd size
  diffs := l.diffs.set idx (getDuration (o.tstart idx) (o.tend idx))
  timed := l.timed ++ [l.files.available fd size]

/-- `for (idx = 0; idx < iter_cnt; idx++)` from `idx` on. -/
def timedLoop (o : Outcomes) (fd size : Nat) : Nat → Nat → Loop → Loop
  | 0, _, l => l
  | remaining + 1, idx, l => timedLoop o fd size remaining (idx + 1) (l.iterate o fd size idx)

def cleanup (o : Outcomes) (ret : Bool) (fd : Option Nat) (collected : Option (List Nat)) (timed : List Nat)
    (fs : Files) : Outcome where
  ret
  collected
  timed
  files :=
    let fs := match fd with
      | some fd => fs.close fd
      | none => fs
    if o.removed then fs.remove filePath else fs

/-- The body of `read_test` for one file size and one count of iterations. -/
def run (fileSize iterCnt : Nat) (o : Outcomes) (fs : Files) : Outcome :=
  if !o.diffs then cleanup o true none none [] fs
  else
    let (fs, fd) := createAndFill o.fill leFilePath fileSize 'a'.toUInt8 fs
    match fd with
    | none => cleanup o true none none [] fs
    | some fd =>
        if !o.buf then cleanup o true (some fd) none [] fs
        else
          let fs := warmup fd fileSize warmups fs
          let l := timedLoop o fd fileSize iterCnt 0 ⟨fs, initDiffArray iterCnt, []⟩
          cleanup o false (some fd) (some l.diffs) l.timed l.files

def readTest (config : BenchConfig) (o : Outcomes) (fs : Files) : Outcome :=
  run (fileSize config.iSize) config.iter o fs

end Oreo.Bench.Read
