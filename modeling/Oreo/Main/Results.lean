import Oreo.Main.Model
import Oreo.Tables.Headed
import Mathlib.Data.List.Basic

namespace Oreo.Main

open Oreo.Posix Oreo.Tables Oreo.Transition

/-! # The stats file over a history of calls -/

variable {K : Type} (fixed : Option K → String) (spill : Nat → Nat) {macros : List Macro} (name : String)
  (res : BenchResult K) (s : Console)

def addition (macros : List Macro) : List Char :=
  (if (s.text stats).head? = none then header (timeUnit macros) else []) ++ row fixed name res

/-- One of the next two `fopen`s is refused. -/
def barred (refused : List Bool) : Bool := refused.headD false || refused.tail.headD false

theorem result_header (macros : List Macro) (missing : Bool) :
    ∃ front back, front ++ back = (if missing then header (timeUnit macros) else []) ∧
      Effect.result (if missing then fprintf spill (some ⟨stats, .append, [], 0, []⟩) (header (timeUnit macros))
        else pure (some ⟨stats, .append, [], 0, []⟩)) (s.extend stats []) =
          (.ok (some ⟨stats, .append, back, 0, []⟩), s.extend stats front) := by
  cases missing with
  | true =>
      obtain ⟨front, back, whole, written⟩ :=
        result_fprintf (s.extend stats []) spill ⟨stats, .append, [], 0, []⟩ (header (timeUnit macros))
      rw [Console.extend_extend] at written
      simp only [List.nil_append] at whole written
      simp only [if_true]
      exact ⟨front, back, whole, written⟩
  | false =>
      simp only [Bool.false_eq_true, if_false]
      exact ⟨[], [], rfl, rfl⟩

theorem result_printResult (timed : .disableTimer ∉ macros) (granted : barred s.refused = false) :
    Effect.result (printResult fixed spill macros name res) s =
      (.ok (), ({ s with stdout := s.stdout ++ resultLine fixed macros name res }).answered.answered.extend stats
        (addition fixed name res s macros)) := by
  obtain ⟨first, second⟩ : s.refuses = false ∧ s.answered.refuses = false := Bool.or_eq_false_iff.mp granted
  let shown : Console := { s with stdout := s.stdout ++ resultLine fixed macros name res }
  let world : Console := shown.answered.answered
  have opened := result_fopen_append shown stats first
  have reopened : Effect.result (fopen stats .read) (shown.answered.extend stats []) =
      (.ok (some ⟨stats, .read, [], 0, []⟩), world.extend stats []) :=
    result_fopen_read (shown.answered.extend stats []) stats second (by simp)
  obtain ⟨fpr, peeked, reading⟩ := result_fgetc (world.extend stats []) stats
  have unread : (ungetc (s.text stats).head? fpr).mode = .read := by
    cases (s.text stats).head? <;> exact reading
  have seen : (world.extend stats []).text stats = s.text stats := by
    rw [Console.text_extend, List.append_nil]
    rfl
  rw [seen] at peeked
  obtain ⟨front, back, whole, printed⟩ :=
    result_header spill world macros (decide ((s.text stats).head? = none))
  obtain ⟨front', back', whole', written⟩ :=
    result_fprintf (world.extend stats front) spill ⟨stats, .append, back, 0, []⟩ (row fixed name res)
  rw [printResult, if_pos timed]
  rw [Effect.result_bind_ok (result_printf ..), Effect.result_bind_ok opened, Effect.result_bind_ok reopened,
    Effect.result_bind_ok peeked]
  simp only [decide_eq_true_eq] at printed whole
  rw [Effect.result_bind_ok printed, Effect.result_bind_ok (result_fclose_read _ unread),
    Effect.result_bind_ok written, result_fclose_append, Console.extend_extend, Console.extend_extend, whole',
    ← List.append_assoc, whole]
  rfl

/-- With a stream that did not open, the program dies before anything is written. -/
theorem result_printResult_refused (timed : .disableTimer ∉ macros) (refused : barred s.refused = true) :
    ∃ s', Effect.result (printResult fixed spill macros name res) s = (.error .nullStream, s') ∧
      s'.text stats = s.text stats := by
  let shown : Console := { s with stdout := s.stdout ++ resultLine fixed macros name res }
  rw [printResult, if_pos timed, Effect.result_bind_ok (result_printf ..)]
  cases first : s.refuses with
  | true =>
      obtain ⟨fpr, reopened, which⟩ := result_fopen_read_any shown.answered stats
      rw [Effect.result_bind_ok (result_fopen_refused shown stats first), Effect.result_bind_ok reopened]
      refine ⟨shown.answered.answered, ?_, rfl⟩
      rcases which with rfl | rfl
      · exact Effect.result_bind_error (result_fgetc_null _)
      · obtain ⟨fpr, peeked, reading⟩ := result_fgetc shown.answered.answered stats
        rw [Effect.result_bind_ok peeked]
        generalize (shown.answered.answered.text stats).head? = c
        dsimp only
        cases c with
        | none =>
            rw [if_pos rfl]
            exact Effect.result_bind_error (result_fprintf_null ..)
        | some c =>
            have unread : (ungetc (some c) fpr).mode = .read := reading
            rw [if_neg (by simp), Effect.result_bind_ok (Effect.result_pure none),
              Effect.result_bind_ok (result_fclose_read _ unread)]
            exact Effect.result_bind_error (result_fprintf_null ..)
  | false =>
      have second : s.answered.refuses = true := (Bool.or_eq_true_iff.mp refused).resolve_left (ne_true_of_eq_false first)
      rw [Effect.result_bind_ok (result_fopen_append shown stats first),
        Effect.result_bind_ok (result_fopen_refused (shown.answered.extend stats []) stats second)]
      refine ⟨_, Effect.result_bind_error (result_fgetc_null _), ?_⟩
      change (shown.answered.extend stats []).text stats = s.text stats
      rw [Console.text_extend, List.append_nil]
      rfl

/-- The results of a chain that get a row: up to the first with an error, or the first
for which the file cannot be opened. -/
def printed : List (BenchResult K) → List Bool → List (BenchResult K)
  | [], _ => []
  | res :: children, refused =>
      if res.errored || barred refused then []
      else res :: printed children refused.tail.tail

/-- The file as a table: rows are results with a name, headers are units. -/
abbrev Table (K : Type) := Headed String (String × BenchResult K)

def Table.text (t : Table K) : List Char := t.render header fun entry => row fixed entry.1 entry.2

theorem header_ne_nil (u : String) : header u ≠ [] := by simp [header]

theorem row_ne_nil : row fixed name res ≠ [] := by simp [row]

theorem Table.length_appendAll (t : Table K) (entries : List (String × String × BenchResult K)) :
    (t.text fixed).length + entries.length ≤ (Table.text fixed (t.appendAll entries)).length := by
  unfold Table.text
  apply Headed.length_appendAll header_ne_nil
  exact fun entry => row_ne_nil fixed entry.1 entry.2

def entries (macros : List Macro) (results : List (BenchResult K)) : List (String × String × BenchResult K) :=
  results.map fun res => (timeUnit macros, name, res)

variable {fixed spill} in
theorem text_addition {t : Table K} (same : s.text stats = t.text fixed) :
    s.text stats ++ addition fixed name res s macros =
      Table.text fixed (t.append (timeUnit macros) (name, res)) := by
  rw [addition, same]
  exact (Headed.render_append header_ne_nil t (timeUnit macros) (name, res)).symm

theorem text_printChain (timed : .disableTimer ∉ macros) (chain : List (BenchResult K)) {s : Console} {t : Table K}
    (same : s.text stats = t.text fixed) :
    (Effect.result (printChain fixed spill macros name chain) s).2.text stats =
      Table.text fixed (t.appendAll (entries name macros (printed chain s.refused))) := by
  induction chain generalizing s t with
  | nil => exact same
  | cons res children ih =>
      unfold printChain printed
      cases failed : res.errored with
      | true => exact same
      | false =>
          cases granted : barred s.refused with
          | false =>
              have done := result_printResult fixed spill name res s timed granted
              simp only [Bool.or_self, Bool.false_eq_true, if_false]
              rw [Effect.result_bind_ok done, ih (t := t.append (timeUnit macros) (name, res))]
              · rfl
              · rw [Console.text_extend]
                exact text_addition name res s same
          | true =>
              obtain ⟨s', dies, kept⟩ := result_printResult_refused fixed spill name res s timed granted
              simp only [Bool.false_eq_true, if_false, Bool.or_true, if_true]
              rw [Effect.result_bind_error dies]
              exact kept.trans same

structure Call (K : Type) where
  macros : List Macro
  name : String
  res : BenchResult K
  children : List (BenchResult K)
  refused : List Bool

def Call.results (c : Call K) : List (BenchResult K) := c.res :: c.children

def Call.perform (c : Call K) (s : Console) : Console :=
  (Effect.result (printResults fixed spill c.macros c.res c.children c.name) { s with refused := c.refused }).2

def performAll (calls : List (Call K)) (s : Console) : Console :=
  calls.foldl (fun s c => c.perform fixed spill s) s

def Call.entries (c : Call K) : List (String × String × BenchResult K) :=
  Main.entries c.name c.macros (printed c.results c.refused)

variable {fixed} in
theorem Call.text_perform (c : Call K) (timed : .disableTimer ∉ c.macros) {s : Console} {t : Table K}
    (same : s.text stats = t.text fixed) :
    (c.perform fixed spill s).text stats = Table.text fixed (t.appendAll c.entries) :=
  text_printChain fixed spill c.name timed c.results (s := { s with refused := c.refused }) same

theorem text_performAll (calls : List (Call K)) (timed : ∀ c ∈ calls, .disableTimer ∉ c.macros) {s : Console}
    {t : Table K} (same : s.text stats = t.text fixed) :
    (performAll fixed spill calls s).text stats = Table.text fixed (t.appendAll (calls.flatMap Call.entries)) := by
  induction calls generalizing s t with
  | nil => exact same
  | cons c calls ih =>
      have next := c.text_perform spill (timed c List.mem_cons_self) same
      rw [List.flatMap_cons, Headed.appendAll_append]
      exact ih (fun d member => timed d (List.mem_cons_of_mem _ member)) next

/-- Without errors and with every `fopen` granted, each result of a chain gets a row. -/
theorem printed_all {chain : List (BenchResult K)} (sound : ∀ res ∈ chain, res.errored = false)
    {refused : List Bool} (granted : true ∉ refused) : printed chain refused = chain := by
  have open_ {refused : List Bool} (granted : true ∉ refused) : refused.headD false = false := by
    cases refused with
    | nil => rfl
    | cons first rest =>
        cases first with
        | false => rfl
        | true => exact absurd List.mem_cons_self granted
  have later {refused : List Bool} (granted : true ∉ refused) : true ∉ refused.tail :=
    fun member => granted (List.mem_of_mem_tail member)
  induction chain generalizing refused with
  | nil => rfl
  | cons res children ih =>
      have free : barred refused = false := by
        rw [barred, open_ granted, open_ (later granted), Bool.or_self]
      rw [printed, sound res List.mem_cons_self, free, Bool.or_self, if_neg Bool.false_ne_true,
        ih (fun child member => sound child (List.mem_cons_of_mem _ member)) (later (later granted))]

/-- Whatever calls of `print_results` one timed program makes for results without errors:
the file they find empty holds the header and a row for each result, in order. -/
theorem printResults_keeps_stats_well_formed (timed : .disableTimer ∉ macros) (fresh : s.text stats = [])
    (calls : List (Call K)) (one : ∀ c ∈ calls, c.macros = macros)
    (sound : ∀ c ∈ calls, ∀ res ∈ c.results, res.errored = false) (granted : ∀ c ∈ calls, true ∉ c.refused) :
    (calls = [] ∧ (performAll fixed spill calls s).text stats = []) ∨
      (performAll fixed spill calls s).text stats =
        header (timeUnit macros) ++ calls.flatMap fun c => c.results.flatMap (row fixed c.name) := by
  have table := text_performAll fixed spill calls (fun c member => one c member ▸ timed) (t := .empty) fresh
  cases calls with
  | nil => exact .inl ⟨rfl, fresh⟩
  | cons c calls =>
      refine .inr (table.trans ?_)
      have rows (d : Call K) (member : d ∈ c :: calls) : d.entries = Main.entries d.name macros d.results := by
        rw [Call.entries, one d member, printed_all (sound d member) (granted d member)]
      have agree : ∀ entry ∈ (c :: calls).flatMap Call.entries, entry.1 = timeUnit macros := by
        intro entry member
        obtain ⟨d, called, found⟩ := List.mem_flatMap.mp member
        rw [rows d called] at found
        obtain ⟨res, -, rfl⟩ := List.mem_map.mp found
        rfl
      have first : (c :: calls).flatMap Call.entries ≠ [] := by
        rw [List.flatMap_cons, rows c List.mem_cons_self]
        simp [Main.entries, Call.results]
      rw [Table.text, Headed.render_appendAll first agree, List.flatMap_assoc]
      have lines : ∀ d ∈ c :: calls, (d.entries.flatMap fun entry => row fixed entry.2.1 entry.2.2) =
          d.results.flatMap (row fixed d.name) := by
        intro d member
        rw [rows d member, Main.entries, List.flatMap_map]
      rw [List.flatMap_congr lines]

theorem printResults_keeps_stats_well_formed_twice :
    (performAll (fun _ => "2.00") id
      [⟨hookFlags, "mmap", ⟨⟨500, .medium⟩, some 2, some 2, some 2, some 2, some 2, false⟩, [], []⟩,
        ⟨hookFlags, "munmap", ⟨⟨500, .medium⟩, some 2, some 2, some 2, some 2, some 2, false⟩, [], [false]⟩]
      ⟨fun _ => none, "", "", []⟩).text stats =
        header "ns" ++ ("mmap,2.00,2.00,2.00,2.00,2.00\n".toList ++ "munmap,2.00,2.00,2.00,2.00,2.00\n".toList) :=
  (printResults_keeps_stats_well_formed (K := Nat) _ _ _ (by decide : .disableTimer ∉ hookFlags) rfl _ (by simp)
    (by simp [Call.results]) (by simp)).resolve_left (by simp)

end Oreo.Main
