import Oreo.OsEval.Durations
import Oreo.OsEval.KClosest
import Oreo.Posix.Printf

namespace Oreo.OsEval

open Oreo.Posix

/-! # `one_line_test` and `two_line_test`: what they print

The first iteration writes the labels of the rows. A later one copies them, with the numbers of the
iterations before it, from the file `copy`.
-/

/-- The names that `main` gives to its tests hold no separator of the file. -/
structure TestInfo where
  iter : Int32
  name : String
  oneField : ',' ∉ name.toList
  oneLine : '\n' ∉ name.toList

/-- The characters written to `fp`, and those of `copy` that have not been read. -/
structure Sheets where
  fp : List Char
  copy : List Char
deriving DecidableEq, Repr

/-- Why a test does not return. -/
inductive Stop where
  /-- It is in a loop for more rounds than were asked for. -/
  | fuel
  | nullPointer
  /-- An access to an array outside of it. -/
  | outside (index : Nat)
deriving DecidableEq, Repr

def Sheets.print (s : Sheets) (text : List Char) : Sheets := { s with fp := s.fp ++ text }

/-- `while (1) { ch = fgetc(copy); if (ch == '\n') break; fputc(ch, fp); }` in at most `fuel` rounds.
`EOF`, put into a `char`, is no newline: it is printed. -/
def copyLine : Nat → Sheets → Except Stop Sheets
  | 0, _ => .error .fuel
  | fuel + 1, s =>
      match s.copy with
      | [] => copyLine fuel (s.print [Char.ofNat 0xff])
      | ch :: copy => if ch = '\n' then .ok { s with copy } else copyLine fuel ({ s with copy }.print [ch])

/-- What `%10s` and the text behind it print. -/
def labelled (name : String) (suffix : String) : List Char := spacePadded 10 name.toList ++ suffix.toList

def dereference : Option (Timespec Int) → Except Stop (Timespec Int)
  | some t => .ok t
  | none => .error .nullPointer

/-- `"%ld.%09ld,\n"`. -/
def entry (t : Timespec Int) : List Char := t.text ++ [',', '\n']

/-- One of the two blocks that print a row in `one_line_test`; `t` is what a pointer points at. -/
def printBlock (isFirstIteration : Bool) (fuel : Nat) (name suffix : String) (t : Option (Timespec Int)) (s : Sheets) :
    Except Stop Sheets := do
  let s ← if !isFirstIteration then copyLine fuel s else .ok (s.print (labelled name suffix))
  return s.print (entry (← dereference t))

/-- What the result of `calc_k_closest(timeArray, size)` points at. -/
def kbest (timeArray : List (Timespec Int64)) : Except Stop (Option (Timespec Int)) :=
  match calcKClosest (timeArray.map Timespec.exact) with
  | .error index => .error (.outside index)
  | .ok (_, none) => .ok none
  | .ok (sorted, some index) =>
      match sorted[index]? with
      | none => .error (.outside index)
      | some t => .ok (some t)

def average (timeArray : List (Timespec Int64)) (runs : Int32) : Timespec Int :=
  (calcAverage (calcSum2 timeArray runs) runs).exact

/-- `one_line_test` and `one_line_test_v2` from the sum on. -/
def report (isFirstIteration : Bool) (fuel : Nat) (info : TestInfo) (timeArray : List (Timespec Int64)) (s : Sheets) :
    Except Stop Sheets := do
  let best ← kbest timeArray
  let s ← printBlock isFirstIteration fuel info.name "          kbest:," best s
  printBlock isFirstIteration fuel info.name "        average:," (some (average timeArray info.iter)) s

/-- The array that the loop of `one_line_test` fills; `f i` is what call `i` of the test function
does to `*diffTime`. -/
def fill (info : TestInfo) (f : Nat → Timespec Int64 → Timespec Int64) : List (Timespec Int64) :=
  (List.range info.iter.toNatClampNeg).map fun i => f i ⟨0, 0⟩

def oneLineTest (isFirstIteration : Bool) (fuel : Nat) (info : TestInfo) (f : Nat → Timespec Int64 → Timespec Int64)
    (s : Sheets) : Except Stop Sheets :=
  report isFirstIteration fuel info (fill info f) s

/-- `f i` is what call `i` does to `*childTime`, and `g i` what it does to `*parentTime`. -/
def twoLineTest (isFirstIteration : Bool) (fuel : Nat) (info : TestInfo) (f g : Nat → Timespec Int64 → Timespec Int64)
    (s : Sheets) : Except Stop Sheets := do
  let timeArrayParent := fill info g
  let timeArrayChild := fill info f
  let averageParent := average timeArrayParent info.iter
  let averageChild := average timeArrayChild info.iter
  let kbestParent ← kbest timeArrayParent
  let kbestChild ← kbest timeArrayChild
  if !isFirstIteration then
    let s ← copyLine fuel s
    let s := s.print (entry (← dereference kbestParent))
    let s ← copyLine fuel s
    let s ← copyLine fuel (s.print (entry averageParent))
    let s := s.print (entry (← dereference kbestChild))
    let s ← copyLine fuel s
    return s.print (entry averageChild)
  else
    let s := s.print (labelled info.name "          kbest:," ++ entry (← dereference kbestParent))
    let s := s.print (labelled info.name "       average:," ++ entry averageParent)
    let s := s.print (labelled info.name "    Child kbest:," ++ entry (← dereference kbestChild))
    return s.print (labelled info.name " Child average:," ++ entry averageChild)

/-! ## An iteration of the benchmark -/

/-- A test with what its test function does in an iteration. -/
inductive Test where
  | oneLine (info : TestInfo) (f : Nat → Timespec Int64 → Timespec Int64)
  | twoLine (info : TestInfo) (f g : Nat → Timespec Int64 → Timespec Int64)

def Test.perform (isFirstIteration : Bool) (fuel : Nat) (test : Test) (s : Sheets) : Except Stop Sheets :=
  match test with
  | .oneLine info f => oneLineTest isFirstIteration fuel info f s
  | .twoLine info f g => twoLineTest isFirstIteration fuel info f g s

def performAll (isFirstIteration : Bool) (fuel : Nat) (tests : List Test) (s : Sheets) : Except Stop Sheets :=
  tests.foldlM (fun s test => test.perform isFirstIteration fuel s) s

/-- The rows that are in the file after one iteration for each list of tests, behind the heading that
`main` prints: the first one writes them, a later one copies those of the one before it. The `main`
of this version ends after the first. -/
def iterate (fuel : Nat) : List (List Test) → Except Stop (List Char)
  | [] => .ok []
  | first :: later => do
      let s ← performAll true fuel first ⟨[], []⟩
      later.foldlM (fun rows tests => do return (← performAll false fuel tests ⟨[], rows⟩).fp) s.fp

end Oreo.OsEval
