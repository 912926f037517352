import Oreo.Transition.Effects

namespace Oreo.Posix

open Oreo.Transition

/-! # The streams of a process

A stream in append mode holds back part of what is printed to it. How much is up to
the library: `spill` says how many of the pending characters it passes on.
-/

inductive Mode where
  | append
  | read
deriving DecidableEq, Repr

structure Stream where
  path : String
  mode : Mode
  pending : List Char
  position : Nat
  pushed : List Char
deriving DecidableEq, Repr

structure Console where
  contents : String → Option (List Char)
  stdout : String
  stderr : String
  /-- For each coming `fopen`, whether the system refuses it. -/
  refused : List Bool

inductive Crash where
  | nullStream
deriving DecidableEq, Repr

abbrev StdioM := Effect Crash Console

namespace Console

def refuses (s : Console) : Bool := s.refused.headD false

def answered (s : Console) : Console := { s with refused := s.refused.tail }

/-- The characters of a file; a file that is not there has none. -/
def text (s : Console) (path : String) : List Char := (s.contents path).getD []

def extend (s : Console) (path : String) (text : List Char) : Console :=
  { s with contents := fun other => if other = path then some (s.text path ++ text) else s.contents other }

@[simp] theorem text_extend (s : Console) (path : String) (text : List Char) :
    (s.extend path text).text path = s.text path ++ text := by
  simp [extend, Console.text]

@[simp] theorem contents_extend (s : Console) (path : String) (text : List Char) :
    (s.extend path text).contents path = some (s.text path ++ text) := by
  simp [extend]

theorem extend_extend (s : Console) (path : String) (front back : List Char) :
    (s.extend path front).extend path back = s.extend path (front ++ back) := by
  simp only [extend, text, if_true, Option.getD_some, List.append_assoc, Console.mk.injEq, and_self, and_true]
  funext other
  split <;> rfl

end Console

def printf (text : String) : StdioM Unit := modify fun s => { s with stdout := s.stdout ++ text }

def eprintf (text : String) : StdioM Unit := modify fun s => { s with stderr := s.stderr ++ text }

def fopen (path : String) (mode : Mode) : StdioM (Option Stream) := do
  let refused := (← get).refuses
  modify Console.answered
  let stream : Stream := { path, mode, pending := [], position := 0, pushed := [] }
  match mode with
  | .append =>
      if refused then return none
      modify fun s => s.extend path []
      return some stream
  | .read => return if refused || ((← get).contents path).isNone then none else some stream

/-- `fgetc`; `none` in place of a character is `EOF`. -/
def fgetc : Option Stream → StdioM (Option Char × Stream)
  | none => throw .nullStream
  | some fp => do
      match fp.pushed with
      | c :: pushed => return (some c, { fp with pushed })
      | [] =>
          match ((← get).text fp.path)[fp.position]? with
          | some c => return (some c, { fp with position := fp.position + 1 })
          | none => return (none, fp)

/-- `ungetc`, which pushes back no `EOF`. -/
def ungetc (c : Option Char) (fp : Stream) : Stream :=
  match c with
  | some c => { fp with pushed := c :: fp.pushed }
  | none => fp

def fprintf (spill : Nat → Nat) (fp : Option Stream) (text : List Char) : StdioM (Option Stream) :=
  match fp with
  | none => throw .nullStream
  | some fp => do
      let pending := fp.pending ++ text
      modify fun s => s.extend fp.path (pending.take (spill pending.length))
      return some { fp with pending := pending.drop (spill pending.length) }

def fclose : Option Stream → StdioM Unit
  | none => throw .nullStream
  | some fp =>
      match fp.mode with
      | .append => modify fun s => s.extend fp.path fp.pending
      | .read => pure ()

section

variable (s : Console) (path : String)

theorem result_printf (text : String) :
    Effect.result (printf text) s = (.ok (), { s with stdout := s.stdout ++ text }) := rfl

theorem result_eprintf (text : String) :
    Effect.result (eprintf text) s = (.ok (), { s with stderr := s.stderr ++ text }) := rfl

theorem result_fopen_refused {mode : Mode} (refused : s.refuses = true) :
    Effect.result (fopen path mode) s = (.ok none, s.answered) := by
  cases mode <;>
    simp only [fopen, Effect.result_bind, Effect.result_get, Effect.result_modify,
      Effect.result_pure, refused, Bool.true_or, if_true]

theorem result_fopen_append (granted : s.refuses = false) :
    Effect.result (fopen path .append) s =
      (.ok (some ⟨path, .append, [], 0, []⟩), s.answered.extend path []) := by
  simp only [fopen, Effect.result_bind, Effect.result_get, Effect.result_modify,
    Effect.result_pure, granted, Bool.false_eq_true, if_false]

theorem result_fopen_read (granted : s.refuses = false) (present : (s.contents path).isNone = false) :
    Effect.result (fopen path .read) s = (.ok (some ⟨path, .read, [], 0, []⟩), s.answered) := by
  simp only [fopen, Effect.result_bind, Effect.result_get, Effect.result_modify, Effect.result_pure, granted,
    Console.answered, present, Bool.or_self, Bool.false_eq_true, if_false]

/-- A file that is not there cannot be opened to be read either. -/
theorem result_fopen_read_any :
    ∃ fpr, Effect.result (fopen path .read) s = (.ok fpr, s.answered) ∧
      (fpr = none ∨ fpr = some ⟨path, .read, [], 0, []⟩) := by
  refine ⟨_, by
    simp only [fopen, Effect.result_bind, Effect.result_get, Effect.result_modify, Effect.result_pure]
    rfl, ?_⟩
  split
  · exact .inl rfl
  · exact .inr rfl

theorem result_fgetc_null : Effect.result (fgetc none) s = (.error .nullStream, s) := rfl

theorem result_fprintf_null (spill : Nat → Nat) (text : List Char) :
    Effect.result (fprintf spill none text) s = (.error .nullStream, s) := rfl

/-- The first `fgetc` of a stream shows whether its file has any characters. -/
theorem result_fgetc :
    ∃ fp, Effect.result (fgetc (some ⟨path, .read, [], 0, []⟩)) s = (.ok ((s.text path).head?, fp), s) ∧
      fp.mode = .read := by
  unfold fgetc
  cases same : s.text path with
  | nil => exact ⟨⟨path, .read, [], 0, []⟩, by simp [Effect.result_bind, same], rfl⟩
  | cons c rest => exact ⟨⟨path, .read, [], 1, []⟩, by simp [Effect.result_bind, same], rfl⟩

/-- What a stream writes out and what it keeps are together what it was given. -/
theorem result_fprintf (spill : Nat → Nat) (fp : Stream) (text : List Char) :
    ∃ front back, front ++ back = fp.pending ++ text ∧
      Effect.result (fprintf spill (some fp) text) s =
        (.ok (some { fp with pending := back }), s.extend fp.path front) := by
  refine ⟨_, _, List.take_append_drop (spill (fp.pending ++ text).length) _, ?_⟩
  simp only [fprintf, Effect.result_bind, Effect.result_modify, Effect.result_pure]

theorem result_fclose_append (pending : List Char) (position : Nat) (pushed : List Char) :
    Effect.result (fclose (some ⟨path, .append, pending, position, pushed⟩)) s =
      (.ok (), s.extend path pending) := rfl

theorem result_fclose_read {fp : Stream} (mode : fp.mode = .read) :
    Effect.result (fclose (some fp)) s = (.ok (), s) := by
  simp [fclose, mode]

end

end Oreo.Posix
