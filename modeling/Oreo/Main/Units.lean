import Oreo.Main.Results

namespace Oreo.Main

open Oreo.Posix Oreo.Tables Oreo.Transition

/-! # Two programs that share the stats file -/

/-- A run of one of the programs: its arguments, what its test functions do, and
which of its `fopen`s are refused. -/
structure Run (K : Type) where
  binary : Binary
  idx : Int
  scale : Int
  tests : Tester → BenchConfig → Tested K
  refused : List Bool

variable {K : Type} (fixed : Option K → String) (spill : Nat → Nat)

def Binary.unit (b : Binary) : String := timeUnit b.macros

def Run.perform (r : Run K) (s : Console) : Console :=
  (Effect.result (main fixed spill r.binary.macros r.idx r.scale r.tests) { s with refused := r.refused }).2

def performRuns (runs : List (Run K)) (s : Console) : Console :=
  runs.foldl (fun s r => r.perform fixed spill s) s

/-- The call of `print_results` a run gets to. -/
def Run.call (r : Run K) : Option (Call K) :=
  match if r.idx < 0 then none else testConfigs[r.idx.toNat]? with
  | none => none
  | some config =>
      let tested := r.tests config.tester ⟨config.iter * r.scale.toNat, config.iSize⟩
      if r.scale < 1 ∨ tested.failed then none
      else some ⟨r.binary.macros, config.name, tested.res, tested.children, r.refused⟩

/-- The run gets to `print_results`, its first result has no error, and the file opens. -/
def Run.Prints (r : Run K) : Prop :=
  ∃ c, r.call = some c ∧ c.res.errored = false ∧ barred c.refused = false

def Run.entries (r : Run K) : List (String × String × BenchResult K) := (r.call.map Call.entries).getD []

theorem timed (b : Binary) : .disableTimer ∉ b.macros := by
  cases b <;> decide

variable {fixed spill} in
theorem Run.text_perform (r : Run K) {s : Console} {t : Table K} (same : s.text stats = t.text fixed) :
    (r.perform fixed spill s).text stats = Table.text fixed (t.appendAll r.entries) := by
  unfold Run.perform main Run.entries Run.call
  generalize (if r.idx < 0 then none else testConfigs[r.idx.toNat]?) = found
  cases found with
  | none => exact same
  | some config =>
      dsimp only
      by_cases small : r.scale < 1
      · rw [if_pos small, if_pos (.inl small)]
        exact same
      · rw [if_neg small, Effect.result_bind_ok (result_eprintf ..)]
        cases failed : (r.tests config.tester ⟨config.iter * r.scale.toNat, config.iSize⟩).failed with
        | true =>
            rw [if_pos rfl, if_pos (.inr rfl)]
            exact same
        | false =>
            rw [if_neg Bool.false_ne_true, if_neg (by simp [small])]
            rw [Effect.state_bind_pure]
            exact text_printChain fixed spill config.name (timed r.binary) _ same

theorem text_performRuns (runs : List (Run K)) {s : Console} {t : Table K} (same : s.text stats = t.text fixed) :
    (performRuns fixed spill runs s).text stats = Table.text fixed (t.appendAll (runs.flatMap Run.entries)) := by
  induction runs generalizing s t with
  | nil => exact same
  | cons r runs ih =>
      rw [List.flatMap_cons, Headed.appendAll_append]
      exact ih (r.text_perform same)

theorem Run.macros_of_call {r : Run K} {c : Call K} (calls : r.call = some c) : c.macros = r.binary.macros := by
  unfold Run.call at calls
  generalize (if r.idx < 0 then none else testConfigs[r.idx.toNat]?) = found at calls
  cases found with
  | none => contradiction
  | some config =>
      dsimp only at calls
      split at calls
      · contradiction
      · obtain rfl := Option.some.inj calls
        rfl

theorem Run.entries_of_call {r : Run K} {c : Call K} (calls : r.call = some c) : r.entries = c.entries := by
  rw [Run.entries, calls]
  rfl

theorem Run.unit_of_entry {r : Run K} {entry : String × String × BenchResult K} (member : entry ∈ r.entries) :
    entry.1 = r.binary.unit := by
  cases calls : r.call with
  | none => simp [Run.entries, calls] at member
  | some c =>
      rw [r.entries_of_call calls] at member
      obtain ⟨res, -, rfl⟩ := List.mem_map.mp member
      exact congrArg timeUnit (r.macros_of_call calls)

theorem Run.prints_iff (r : Run K) : r.Prints ↔ r.entries ≠ [] := by
  unfold Run.Prints
  cases calls : r.call with
  | none => simp [Run.entries, calls]
  | some c =>
      rw [r.entries_of_call calls, Call.entries, Main.entries, Ne, List.map_eq_nil_iff, Call.results, printed]
      cases failed : c.res.errored <;> cases shut : barred c.refused <;> simp [failed, shut]

theorem unit_of_header {b b' : Binary} {text : List Char} (here : header b.unit <+: text)
    (there : header b'.unit <+: text) : b = b' := by
  cases b <;> cases b'
  case hook.hook | run.run => rfl
  case hook.run => exact absurd (List.prefix_of_prefix_length_le here there (by decide)) (by decide)
  case run.hook => exact absurd (List.prefix_of_prefix_length_le there here (by decide)) (by decide)

variable (s : Console)

theorem grows_iff (fresh : s.text stats = []) (before : List (Run K)) (r : Run K) :
    (performRuns fixed spill (before ++ [r]) s).text stats ≠ (performRuns fixed spill before s).text stats ↔
      r.Prints := by
  have earlier := text_performRuns fixed spill before (t := .empty) fresh
  have step : performRuns fixed spill (before ++ [r]) s = r.perform fixed spill (performRuns fixed spill before s) := by
    simp [performRuns]
  rw [step, r.text_perform earlier, earlier, r.prints_iff]
  constructor
  · intro grown empty
    rw [empty] at grown
    exact grown rfl
  · intro some same
    have longer := Table.length_appendAll fixed (Headed.empty.appendAll (before.flatMap Run.entries)) r.entries
    have positive := List.length_pos_iff.mpr some
    rw [same] at longer
    omega

/-- Wherever a run has added rows, the file's header is in the unit they are in. -/
def RowsInUnit (runs : List (Run K)) : Prop :=
  ∀ before r after, runs = before ++ r :: after →
    (performRuns fixed spill (before ++ [r]) s).text stats ≠ (performRuns fixed spill before s).text stats →
      header r.binary.unit <+: (performRuns fixed spill runs s).text stats

/-- The rows are in the unit of the header exactly if one program printed them all. -/
theorem stats_in_one_unit_iff (absent : s.contents stats = none) (runs : List (Run K)) :
    RowsInUnit fixed spill s runs ↔
      ∀ r ∈ runs, ∀ r' ∈ runs, r.Prints → r'.Prints → r.binary = r'.binary := by
  have fresh : s.text stats = [] := by rw [Console.text, absent, Option.getD_none]
  constructor
  · intro inUnit r member r' member' prints prints'
    have headed {r : Run K} (member : r ∈ runs) (prints : r.Prints) :
        header r.binary.unit <+: (performRuns fixed spill runs s).text stats := by
      obtain ⟨before, after, split⟩ := List.append_of_mem member
      exact inUnit before r after split ((grows_iff fixed spill s fresh before r).mpr prints)
    exact unit_of_header (headed member prints) (headed member' prints')
  · intro alike before r after split grows
    have prints := (grows_iff fixed spill s fresh before r).mp grows
    have member : r ∈ runs := by simp [split]
    have agree : ∀ entry ∈ runs.flatMap Run.entries, entry.1 = r.binary.unit := by
      intro entry found
      obtain ⟨r', member', listed⟩ := List.mem_flatMap.mp found
      have prints' : r'.Prints := r'.prints_iff.mpr (List.ne_nil_of_mem listed)
      rw [r'.unit_of_entry listed, alike r' member' r member prints' prints]
    have some : runs.flatMap Run.entries ≠ [] := by
      obtain ⟨entry, listed⟩ := List.exists_mem_of_ne_nil _ (r.prints_iff.mp prints)
      exact List.ne_nil_of_mem (List.mem_flatMap.mpr ⟨r, member, listed⟩)
    rw [text_performRuns fixed spill runs (t := .empty) fresh, Table.text, Headed.render_appendAll some agree]
    exact List.prefix_append ..

/-- `<binary> 7 1` with a test that works. -/
def timeMmap (b : Binary) : Run Nat :=
  ⟨b, 7, 1, fun _ config => ⟨false, ⟨config, some 2, some 2, some 2, some 2, some 2, false⟩, []⟩, []⟩

theorem timeMmap_prints (b : Binary) : (timeMmap b).Prints := ⟨_, rfl, rfl, rfl⟩

theorem stats_in_one_unit_iff_same :
    RowsInUnit (fun _ => "2.00") id ⟨fun _ => none, "", "", []⟩ [timeMmap .run, timeMmap .run] ↔
      ∀ r ∈ [timeMmap .run, timeMmap .run], ∀ r' ∈ [timeMmap .run, timeMmap .run],
        r.Prints → r'.Prints → r.binary = r'.binary :=
  stats_in_one_unit_iff _ _ _ rfl _

/-- The second program finds the header of the first. -/
theorem stats_mixes_units :
    ¬ RowsInUnit (fun _ => "2.00") id ⟨fun _ => none, "", "", []⟩ [timeMmap .hook, timeMmap .run] := by
  intro inUnit
  have first := inUnit [] (timeMmap .hook) [timeMmap .run] rfl
    ((grows_iff _ _ _ rfl _ _).mpr (timeMmap_prints .hook))
  have second := inUnit [timeMmap .hook] (timeMmap .run) [] rfl
    ((grows_iff _ _ _ rfl _ _).mpr (timeMmap_prints .run))
  exact absurd (unit_of_header first second) (by decide)

end Oreo.Main
