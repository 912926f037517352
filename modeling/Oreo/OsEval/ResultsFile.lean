import Oreo.OsEval.Report

namespace Oreo.OsEval

open Oreo.Posix Oreo.Tables Oreo.Utils

/-! # The file with the results over any number of iterations -/

/-- A label as `"%10s"` and the text behind it print it. -/
def TestInfo.label (info : TestInfo) (suffix : String) (oneField : ',' ∉ suffix.toList) (oneLine : '\n' ∉ suffix.toList) :
    RowLabel Duration.cell where
  text := labelled info.name suffix
  oneField := by
    change ',' ∉ labelled info.name suffix
    simp [labelled, spacePadded, info.oneField, oneField]
  oneLine := by
    change '\n' ∉ labelled info.name suffix
    simp [labelled, spacePadded, info.oneLine, oneLine]

/-- The labels of the rows that a test prints. -/
def Test.labels : Test → List (RowLabel Duration.cell)
  | .oneLine info _ =>
      [info.label "          kbest:" (by decide) (by decide), info.label "        average:" (by decide) (by decide)]
  | .twoLine info _ _ =>
      [info.label "          kbest:" (by decide) (by decide), info.label "       average:" (by decide) (by decide),
        info.label "    Child kbest:" (by decide) (by decide), info.label " Child average:" (by decide) (by decide)]

/-- The test has a duration to print in each of its rows. -/
inductive Test.Yields : Test → List Duration → Prop where
  | oneLine {info f} {best mean : Duration} : kbest (fill info f) = .ok (some best.time) →
      average (fill info f) info.iter = mean.time → Yields (.oneLine info f) [best, mean]
  | twoLine {info f g} {best mean bestChild meanChild : Duration} : kbest (fill info g) = .ok (some best.time) →
      average (fill info g) info.iter = mean.time → kbest (fill info f) = .ok (some bestChild.time) →
      average (fill info f) info.iter = meanChild.time → Yields (.twoLine info f g) [best, mean, bestChild, meanChild]

inductive Yields : List Test → List Duration → Prop where
  | nil : Yields [] []
  | cons {test tests column later} : test.Yields column → Yields tests later → Yields (test :: tests) (column ++ later)

variable {test : Test} {tests : List Test} {column : List Duration} {s : Sheets} {fuel : Nat} {labels : List (RowLabel Duration.cell)}

theorem Test.Yields.length (yields : test.Yields column) : column.length = test.labels.length := by
  cases yields <;> rfl

theorem Yields.length (yields : Yields tests column) : column.length = (tests.flatMap Test.labels).length := by
  induction yields with
  | nil => rfl
  | cons first _ ih => rw [List.length_append, List.flatMap_cons, List.length_append, first.length, ih]

/-! ## The first iteration -/

theorem column_cons (label : RowLabel Duration.cell) (labels : List (RowLabel Duration.cell)) (d : Duration)
    (column : List Duration) :
    Sheet.column (label :: labels) (d :: column) = label.text ++ [','] ++ entry d.time ++ Sheet.column labels column := by
  rw [Sheet.column_cons, ← List.singleton_append, ← List.append_assoc]
  rfl

theorem column_nil : Sheet.column ([] : List (RowLabel Duration.cell)) [] = [] := rfl

theorem Test.Yields.first (yields : test.Yields column) (fuel : Nat) (s : Sheets) :
    test.perform true fuel s = .ok (s.print (Sheet.column test.labels column)) := by
  cases yields with
  | @oneLine info f best mean bestIs meanIs =>
      simp only [Test.perform, oneLineTest, report, printBlock, bestIs, meanIs, dereference, Bool.not_true, Bool.false_eq_true,
        if_false, bind, Except.bind, pure, Except.pure, Test.labels, column_cons, column_nil, TestInfo.label, Sheets.print]
      simp [labelled]
  | twoLine bestIs meanIs bestChildIs meanChildIs =>
      simp only [Test.perform, twoLineTest, bestIs, meanIs, bestChildIs, meanChildIs, dereference, Bool.not_true, Bool.false_eq_true,
        if_false, bind, Except.bind, pure, Except.pure, Test.labels, column_cons, column_nil, TestInfo.label, Sheets.print]
      simp [labelled]

theorem Yields.first (yields : Yields tests column) (fuel : Nat) (s : Sheets) :
    performAll true fuel tests s = .ok (s.print (Sheet.column (tests.flatMap Test.labels) column)) := by
  induction yields generalizing s with
  | nil => simp [performAll, Sheets.print, column_nil, pure, Except.pure]
  | @cons test tests column later first _ ih =>
      rw [performAll, List.foldlM_cons, first.first, List.flatMap_cons, Sheet.column_append first.length]
      change performAll true fuel tests _ = _
      rw [ih]
      simp [Sheets.print]

/-! ## A later iteration -/

/-- It takes a round for each character of the line. -/
theorem copyLine_of_cut {line rest : List Char} (found : cut '\n' s.copy = some (line, rest)) (fuel : Nat) :
    copyLine fuel s = if line.length < fuel then .ok ⟨s.fp ++ line, rest⟩ else .error .fuel := by
  induction fuel generalizing s line with
  | zero => rfl
  | succ fuel ih =>
      obtain ⟨fp, copy⟩ := s
      cases copy with
      | nil => contradiction
      | cons ch copy =>
          rw [cut] at found
          rw [copyLine]
          split at found
          · next newline =>
              cases found
              simp [newline]
          · next other =>
              obtain ⟨parts, later, same⟩ := Option.map_eq_some_iff.mp found
              cases same
              have rest := @ih ⟨fp ++ [ch], copy⟩ parts.1 later
              simpa [other, Sheets.print] using rest

/-- At the end of `copy` the loop goes on for ever. -/
theorem copyLine_of_none (none : cut '\n' s.copy = none) (fuel : Nat) : copyLine fuel s = .error .fuel := by
  induction fuel generalizing s with
  | zero => rfl
  | succ fuel ih =>
      obtain ⟨fp, copy⟩ := s
      cases copy with
      | nil => exact ih none
      | cons ch copy =>
          rw [cut] at none
          rw [copyLine]
          split at none
          · contradiction
          · next other =>
              have rest := @ih ⟨fp ++ [ch], copy⟩ (Option.map_eq_none_iff.mp none)
              simpa [other, Sheets.print] using rest

/-- A row of each duration, behind the lines of `copy`. -/
def appendEntries (fuel : Nat) (column : List Duration) (s : Sheets) : Except Stop Sheets :=
  column.foldlM (fun s d => do return (← copyLine fuel s).print (entry d.time)) s

theorem appendEntries_append (fuel : Nat) (column rest : List Duration) (s : Sheets) :
    appendEntries fuel (column ++ rest) s = appendEntries fuel column s >>= appendEntries fuel rest :=
  List.foldlM_append

theorem dereference_some (t : Timespec Int) : dereference (some t) = pure t := rfl

theorem Test.Yields.later (yields : test.Yields column) (fuel : Nat) (s : Sheets) :
    test.perform false fuel s = appendEntries fuel column s := by
  cases yields with
  | @oneLine info f best mean bestIs meanIs =>
      have bestIs : kbest (fill info f) = pure (some best.time) := bestIs
      simp only [Test.perform, oneLineTest, report, printBlock, bestIs, meanIs, appendEntries, List.foldlM_cons,
        List.foldlM_nil, Bool.not_false, if_true, dereference_some, bind_assoc, pure_bind, bind_pure]
  | @twoLine info f g best mean bestChild meanChild bestIs meanIs bestChildIs meanChildIs =>
      have bestIs : kbest (fill info g) = pure (some best.time) := bestIs
      have bestChildIs : kbest (fill info f) = pure (some bestChild.time) := bestChildIs
      simp only [Test.perform, twoLineTest, bestIs, meanIs, bestChildIs, meanChildIs, appendEntries, List.foldlM_cons,
        List.foldlM_nil, Bool.not_false, if_true, dereference_some, bind_assoc, pure_bind, bind_pure]

theorem Yields.later (yields : Yields tests column) (fuel : Nat) (s : Sheets) :
    performAll false fuel tests s = appendEntries fuel column s := by
  induction yields generalizing s with
  | nil => rfl
  | @cons test tests column later first _ ih =>
      rw [performAll, List.foldlM_cons, first.later, appendEntries_append]
      exact bind_congr fun s => ih s

theorem appendEntries_cons (fuel : Nat) (d : Duration) (column : List Duration) (s : Sheets) :
    appendEntries fuel (d :: column) s =
      copyLine fuel s >>= fun s => appendEntries fuel column (s.print (entry d.time)) := by
  simp only [appendEntries, List.foldlM_cons, bind_assoc, pure_bind]

/-- A later iteration adds a column to what it finds in `copy`. -/
theorem appendEntries_of_column {text rest : List Char} (enough : s.copy.length < fuel)
    (copied : Sheet.appendColumn Duration.cell column s.copy = some (text, rest)) :
    appendEntries fuel column s = .ok ⟨s.fp ++ text, rest⟩ := by
  induction column generalizing s text with
  | nil =>
      cases copied
      simp [appendEntries, pure, Except.pure]
  | cons d column ih =>
      rw [Sheet.appendColumn] at copied
      obtain ⟨⟨line, copy⟩, found, copied⟩ := Option.bind_eq_some_iff.mp copied
      obtain ⟨⟨tail, rest'⟩, later, same⟩ := Option.bind_eq_some_iff.mp copied
      cases same
      have lines := length_of_cut found
      simp only at lines
      have next := @ih (Sheets.print ⟨s.fp ++ line, copy⟩ (entry d.time)) tail (show copy.length < fuel by omega) later
      rw [appendEntries_cons, copyLine_of_cut found, if_pos (by omega)]
      simpa [Sheets.print, entry, Duration.cell, Duration.text, bind, Except.bind] using next

/-- It does not end if `copy` has too few lines. -/
theorem appendEntries_of_short (short : Sheet.appendColumn Duration.cell column s.copy = none) (fuel : Nat) :
    appendEntries fuel column s = .error .fuel := by
  induction column generalizing s with
  | nil => contradiction
  | cons d column ih =>
      rw [appendEntries_cons]
      rw [Sheet.appendColumn] at short
      cases found : cut '\n' s.copy with
      | none => rw [copyLine_of_none found]; rfl
      | some parts =>
          obtain ⟨line, rest⟩ := parts
          have short : Sheet.appendColumn Duration.cell column rest = none := by
            cases later : Sheet.appendColumn Duration.cell column rest with
            | none => rfl
            | some done =>
                have newline : Duration.cell.newline = '\n' := rfl
                simp [newline, found, later] at short
          have next := @ih (Sheets.print ⟨s.fp ++ line, rest⟩ (entry d.time)) short
          rw [copyLine_of_cut found]
          split
          · exact next
          · rfl

theorem kbest_single (t : Timespec Int64) : kbest [t] = .ok (some t.exact) := by
  simp [kbest, calcKClosest, qsort, closestScan, writeAt, readAt, K, bind, Except.bind, pure, Except.pure]

/-- "getpid" with a single run that takes `n` nanoseconds. -/
def oneGetpid (n : Int64) : Test :=
  .oneLine ⟨1, "getpid", by decide, by decide⟩ fun _ t => addDiffToSum t ⟨7, n⟩ ⟨7, 0⟩

theorem oneGetpid_yields (n : Int64) (d : Duration) (exact : (addDiffToSum ⟨0, 0⟩ ⟨7, n⟩ ⟨7, 0⟩ : Timespec Int64).exact = d.time)
    (mean : average [addDiffToSum ⟨0, 0⟩ ⟨7, n⟩ ⟨7, 0⟩] 1 = d.time) : Yields [oneGetpid n] [d, d] := by
  have yields : (oneGetpid n).Yields [d, d] := .oneLine (by rw [← exact]; exact kbest_single _) mean
  exact .cons yields .nil

/-- A later iteration ends exactly if `copy` has a line for each row; without one, it prints for
ever what `fgetc` returns at the end of a file. -/
theorem later_iteration_ends_iff (yields : Yields tests column) (s : Sheets) :
    ((∃ fuel after, performAll false fuel tests s = .ok after) ↔
        (tests.flatMap Test.labels).length ≤ s.copy.count '\n') ∧
      ∀ fuel, s.copy.count '\n' < (tests.flatMap Test.labels).length → performAll false fuel tests s = .error .fuel := by
  have lines := @Sheet.appendColumn_isSome_iff _ _ Duration.cell _ column s.copy
  rw [yields.length] at lines
  have stuck (fuel : Nat) (few : s.copy.count '\n' < (tests.flatMap Test.labels).length) :
      performAll false fuel tests s = .error .fuel := by
    rw [yields.later]
    apply appendEntries_of_short
    rw [← Option.not_isSome_iff_eq_none, lines]
    exact Nat.not_le.mpr few
  refine ⟨⟨fun ends => ?_, fun enough => ?_⟩, stuck⟩
  · obtain ⟨fuel, after, ended⟩ := ends
    by_contra few
    rw [stuck fuel (Nat.not_le.mp few)] at ended
    contradiction
  · obtain ⟨⟨text, rest⟩, copied⟩ := Option.isSome_iff_exists.mp (lines.mpr enough)
    exact ⟨s.copy.length + 1, _, (yields.later _ s).trans (appendEntries_of_column (Nat.lt_succ_self _) copied)⟩

/-- "getpid" in a later iteration whose `copy` has two lines. -/
theorem later_iteration_ends_iff_getpid :
    ((∃ fuel after, performAll false fuel [oneGetpid 250] ⟨[], ['a', ',', '\n', 'b', ',', '\n']⟩ = .ok after) ↔
        ([oneGetpid 250].flatMap Test.labels).length ≤ ['a', ',', '\n', 'b', ',', '\n'].count '\n') ∧
      ∀ fuel, ['a', ',', '\n', 'b', ',', '\n'].count '\n' < ([oneGetpid 250].flatMap Test.labels).length →
        performAll false fuel [oneGetpid 250] ⟨[], ['a', ',', '\n', 'b', ',', '\n']⟩ = .error .fuel :=
  later_iteration_ends_iff (oneGetpid_yields 250 ⟨⟨0, 250⟩, by decide, by decide⟩ (by decide) (by decide)) _

/-! ## Any number of iterations -/

/-- One more iteration over the rows of those before it. -/
theorem next_iteration {columns : List (List Duration)}
    (same : tests.flatMap Test.labels = labels) (yields : Yields tests column)
    (fits : ∀ column ∈ columns, column.length = labels.length)
    (enough : (Sheet.ofColumns labels columns).render.length < fuel) :
    performAll false fuel tests ⟨[], (Sheet.ofColumns labels columns).render⟩ =
      .ok ⟨(Sheet.ofColumns labels (columns ++ [column])).render, []⟩ := by
  have length : column.length = List.length (Sheet.ofColumns labels columns) := by
    rw [Sheet.length_ofColumns fits, yields.length, same]
  have copied := Sheet.appendColumn_render length []
  rw [List.append_nil, ← Sheet.ofColumns_snoc] at copied
  rw [yields.later]
  exact @appendEntries_of_column column ⟨[], _⟩ fuel _ _ enough copied

theorem later_iterations {later : List (List Test)} {columns rest : List (List Duration)}
    (same : ∀ tests ∈ later, tests.flatMap Test.labels = labels) (yields : List.Forall₂ Yields later rest)
    (fits : ∀ column ∈ columns, column.length = labels.length) :
    ∃ bound, ∀ fuel, bound ≤ fuel →
      later.foldlM (fun rows tests => do return (← performAll false fuel tests ⟨[], rows⟩).fp)
        (Sheet.ofColumns labels columns).render = .ok (Sheet.ofColumns labels (columns ++ rest)).render := by
  induction yields generalizing columns with
  | nil => exact ⟨0, fun fuel _ => by simp [pure, Except.pure]⟩
  | @cons tests column later rest first _ ih =>
      obtain ⟨same, sameLater⟩ := List.forall_mem_cons.mp same
      have length : column.length = labels.length := by rw [first.length, same]
      obtain ⟨bound, ends⟩ := @ih (columns ++ [column]) sameLater
        (by simpa [or_imp, forall_and] using ⟨fits, length⟩)
      refine ⟨max bound ((Sheet.ofColumns labels columns).render.length + 1), fun fuel enough => ?_⟩
      rw [List.foldlM_cons, next_iteration same first fits (by omega)]
      simpa [bind, Except.bind, pure, Except.pure] using ends fuel (by omega)

theorem iterate_eq {iterations : List (List Test)} {columns : List (List Duration)}
    (some : iterations ≠ []) (same : ∀ tests ∈ iterations, tests.flatMap Test.labels = labels)
    (yields : List.Forall₂ Yields iterations columns) :
    ∃ bound, ∀ fuel, bound ≤ fuel → iterate fuel iterations = .ok (Sheet.ofColumns labels columns).render := by
  cases yields with
  | nil => contradiction
  | @cons tests column later rest first yields =>
      obtain ⟨same, sameLater⟩ := List.forall_mem_cons.mp same
      have fits : ∀ one ∈ [column], one.length = labels.length := by simp [first.length, same]
      obtain ⟨bound, ends⟩ := later_iterations sameLater yields fits
      refine ⟨bound, fun fuel enough => ?_⟩
      rw [iterate, first.first, same]
      exact ends fuel enough

theorem columns_fit {iterations : List (List Test)} {columns : List (List Duration)}
    (same : ∀ tests ∈ iterations, tests.flatMap Test.labels = labels) (yields : List.Forall₂ Yields iterations columns) :
    ∀ column ∈ columns, column.length = labels.length := by
  induction yields with
  | nil => simp
  | cons first _ ih =>
      obtain ⟨same, sameLater⟩ := List.forall_mem_cons.mp same
      exact List.forall_mem_cons.mpr ⟨by rw [first.length, same], ih sameLater⟩

/-- Whatever tests are run, and however often: the rows read back are the labels, each with the
numbers of all iterations in their order. -/
theorem results_file_reads_back {iterations : List (List Test)} {columns : List (List Duration)} (some : iterations ≠ [])
    (same : ∀ tests ∈ iterations, tests.flatMap Test.labels = labels) (yields : List.Forall₂ Yields iterations columns) :
    ∃ bound, ∀ fuel, bound ≤ fuel → ∃ rows, iterate fuel iterations = .ok rows ∧
      Sheet.read Duration.cell rows =
        .some (labels.mapIdx fun index label => (label.text, columns.filterMap fun column => column[index]?)) := by
  obtain ⟨bound, written⟩ := iterate_eq some same yields
  refine ⟨bound, fun fuel enough => ⟨_, written fuel enough, ?_⟩⟩
  have fits := columns_fit same yields
  rw [Sheet.read_render]
  congr 1
  apply List.ext_getElem?
  intro index
  rw [List.getElem?_map, Sheet.getElem?_ofColumns fits, List.getElem?_mapIdx]
  cases labels[index]? <;> rfl

/-- Two iterations, of 250 ns and 300 ns. -/
theorem results_file_reads_back_twice :
    ∃ bound, ∀ fuel, bound ≤ fuel → ∃ rows, iterate fuel [[oneGetpid 250], [oneGetpid 300]] = .ok rows ∧
      Sheet.read Duration.cell rows = some ((oneGetpid 0).labels.mapIdx fun index label =>
        (label.text, [[⟨⟨0, 250⟩, by decide, by decide⟩, ⟨⟨0, 250⟩, by decide, by decide⟩],
          [⟨⟨0, 300⟩, by decide, by decide⟩, ⟨⟨0, 300⟩, by decide, by decide⟩]].filterMap fun column => column[index]?)) := by
  refine results_file_reads_back (by simp) (by simp [oneGetpid, Test.labels]) ?_
  exact .cons (oneGetpid_yields 250 _ (by decide) (by decide)) (.cons (oneGetpid_yields 300 _ (by decide) (by decide)) .nil)

end Oreo.OsEval
