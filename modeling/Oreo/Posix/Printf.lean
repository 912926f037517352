import Mathlib.Algebra.Ring.Nat
import Oreo.Posix.Timespec
import Oreo.Tables.Columns

namespace Oreo.Posix

open Oreo.Tables

/-! # The conversions of `fprintf` that print durations -/

def signOf (n : Int) : List Char := if n < 0 then ['-'] else []

/-- `%ld`. -/
def decimal (n : Int) : List Char := signOf n ++ Nat.toDigits 10 n.natAbs

/-- `%0` with a width and `ld`. -/
def zeroPadded (width : Nat) (n : Int) : List Char :=
  let digits := Nat.toDigits 10 n.natAbs
  signOf n ++ List.replicate (width - ((signOf n).length + digits.length)) '0' ++ digits

/-- `%` with a width and `s`. -/
def spacePadded (width : Nat) (text : List Char) : List Char := List.replicate (width - text.length) ' ' ++ text

/-- `%ld.%09ld`. -/
def Timespec.text (t : Timespec Int) : List Char := decimal t.sec ++ '.' :: zeroPadded 9 t.nsec

/-! ## Reading them back -/

/-- A duration that a clock can show. -/
@[ext]
structure Duration where
  time : Timespec Int
  normalised : time.Normalised
  nonneg : 0 ≤ time.sec

def readDigits (text : List Char) : Option Nat :=
  if text ≠ [] ∧ text.all Char.isDigit = true then some (Nat.ofDigitChars 10 text 0) else none

/-- A number, a point, and nine digits behind it. -/
def readDuration (text : List Char) : Option Duration := do
  let (whole, fraction) ← cut '.' text
  let sec ← readDigits whole
  let nsec ← readDigits fraction
  if small : nsec < 1000000000 ∧ fraction.length = 9 then
    some ⟨⟨sec, nsec⟩, ⟨Int.natCast_nonneg nsec, Int.ofNat_lt.mpr small.1⟩, Int.natCast_nonneg sec⟩
  else none

theorem digits_isDigit {n : Nat} : (Nat.toDigits 10 n).all Char.isDigit = true :=
  List.all_eq_true.mpr fun _ member => Nat.isDigit_of_mem_toDigits (by decide) (by decide) member

theorem signOf_natCast (n : Nat) : signOf n = [] := if_neg (Int.not_lt.mpr (Int.natCast_nonneg n))

theorem decimal_natCast (n : Nat) : decimal n = Nat.toDigits 10 n := by
  simp [decimal, signOf_natCast]

theorem zeroPadded_natCast (width n : Nat) :
    zeroPadded width n = List.replicate (width - (Nat.toDigits 10 n).length) '0' ++ Nat.toDigits 10 n := by
  simp [zeroPadded, signOf_natCast]

theorem readDigits_decimal (n : Nat) : readDigits (decimal n) = some n := by
  rw [decimal_natCast, readDigits, if_pos ⟨Nat.toDigits_ne_nil, digits_isDigit⟩, Nat.ofDigitChars_ten_toDigits]

theorem zeroPadded_isDigit (width n : Nat) : (zeroPadded width n).all Char.isDigit = true := by
  rw [zeroPadded_natCast, List.all_append, digits_isDigit, Bool.and_true, List.all_replicate]
  split
  · rfl
  · decide

theorem readDigits_zeroPadded (width n : Nat) : readDigits (zeroPadded width n) = some n := by
  have nonempty : zeroPadded width n ≠ [] := by simp [zeroPadded_natCast, Nat.toDigits_ne_nil]
  rw [readDigits, if_pos ⟨nonempty, zeroPadded_isDigit width n⟩, zeroPadded_natCast, Nat.ofDigitChars_append,
    Nat.ofDigitChars_replicate_zero, Nat.mul_zero, Nat.ofDigitChars_ten_toDigits]

theorem length_zeroPadded {width n : Nat} (positive : 0 < width) (fits : n < 10 ^ width) :
    (zeroPadded width n).length = width := by
  have short : (Nat.toDigits 10 n).length ≤ width := (Nat.length_toDigits_le_iff (by decide) positive).mpr fits
  rw [zeroPadded_natCast, List.length_append, List.length_replicate]
  omega

/-- The characters of a number are digits. -/
theorem not_mem_digits {c : Char} {text : List Char} (digits : text.all Char.isDigit = true) (other : c.isDigit = false) :
    c ∉ text := by
  intro member
  rw [List.all_eq_true.mp digits c member] at other
  contradiction

namespace Duration

def text (d : Duration) : List Char := d.time.text

theorem exists_fields (d : Duration) : ∃ sec nsec : Nat, d.time = ⟨sec, nsec⟩ ∧ nsec < 1000000000 := by
  obtain ⟨⟨sec, nsec⟩, ⟨nonneg, below⟩, positive⟩ := d
  dsimp only at nonneg below positive
  exact ⟨sec.toNat, nsec.toNat, by rw [Int.toNat_of_nonneg nonneg, Int.toNat_of_nonneg positive], by omega⟩

theorem readDuration_text (d : Duration) : readDuration d.text = some d := by
  obtain ⟨sec, nsec, same, below⟩ := d.exists_fields
  have point : '.' ∉ decimal (sec : Int) := by
    rw [decimal_natCast]
    exact not_mem_digits digits_isDigit (by decide)
  have length : (zeroPadded 9 (nsec : Int)).length = 9 := length_zeroPadded (by decide) below
  rw [text, Timespec.text, same, readDuration, cut_append point]
  simp only [Option.bind_eq_bind, Option.bind_some, readDigits_decimal, readDigits_zeroPadded]
  rw [dif_pos ⟨below, length⟩]
  exact congrArg some (Duration.ext same.symm)

theorem not_mem_text {c : Char} (d : Duration) (other : c.isDigit = false) (point : c ≠ '.') : c ∉ d.text := by
  obtain ⟨sec, nsec, same, -⟩ := d.exists_fields
  rw [text, Timespec.text, same, decimal_natCast, List.mem_append, List.mem_cons, not_or, not_or]
  exact ⟨not_mem_digits digits_isDigit other, point, not_mem_digits (zeroPadded_isDigit 9 nsec) other⟩

/-- A duration as a cell of a table. -/
def cell : Cell Char Duration where
  comma := ','
  newline := '\n'
  distinct := by decide
  encode := text
  decode := readDuration
  inverse := readDuration_text
  oneField := fun d => d.not_mem_text (by decide) (by decide)
  oneLine := fun d => d.not_mem_text (by decide) (by decide)

end Duration

end Oreo.Posix
