import Mathlib.Data.List.Induction
import Mathlib.Tactic.TypeStar

namespace Oreo.Tables

/-! # Texts of terminated pieces, and tables that gain a column when they are copied

A table is a text of lines, a line a text of fields: a label and its cells. Both are terminated by
a separator, so a line grows at its end.
-/

variable {C α : Type*}

section Pieces

variable [DecidableEq C]

/-- What comes before the first `sep`, and what comes after it. -/
def cut (sep : C) : List C → Option (List C × List C)
  | [] => none
  | c :: text => if c = sep then some ([], text) else (cut sep text).map fun parts => (c :: parts.1, parts.2)

/-- The pieces of a text that are terminated by `sep`; `piece` is what has been read of the first. -/
def pieces (sep : C) : List C → List C → Option (List (List C))
  | [], [] => some []
  | _ :: _, [] => none
  | piece, c :: text => if c = sep then (pieces sep [] text).map (piece :: ·) else pieces sep (piece ++ [c]) text

variable {sep : C} {piece text : List C}

theorem cut_append (clean : sep ∉ piece) (text : List C) : cut sep (piece ++ sep :: text) = some (piece, text) := by
  induction piece with
  | nil => exact if_pos rfl
  | cons c piece ih =>
      obtain ⟨other, clean⟩ := not_or.mp (mt List.mem_cons.mpr clean)
      rw [List.cons_append, cut, if_neg (Ne.symm other), ih clean]
      rfl

theorem cut_eq_none_iff : cut sep text = none ↔ text.count sep = 0 := by
  induction text with
  | nil => simp [cut]
  | cons c text ih =>
      rw [cut]
      split
      · next same => simp [same]
      · next other => simp [ih, List.count_cons_of_ne other]

theorem count_of_cut {parts : List C × List C} (found : cut sep text = some parts) :
    text.count sep = parts.2.count sep + 1 := by
  induction text generalizing parts with
  | nil => contradiction
  | cons c text ih =>
      rw [cut] at found
      split at found
      · next same =>
          cases found
          simp [same]
      · next other =>
          obtain ⟨shorter, later, rfl⟩ := Option.map_eq_some_iff.mp found
          have counted := ih later
          rwa [List.count_cons_of_ne other]

theorem length_of_cut {parts : List C × List C} (found : cut sep text = some parts) :
    text.length = parts.1.length + 1 + parts.2.length := by
  induction text generalizing parts with
  | nil => contradiction
  | cons c text ih =>
      rw [cut] at found
      split at found
      · cases found
        simp [Nat.add_comm]
      · obtain ⟨shorter, later, rfl⟩ := Option.map_eq_some_iff.mp found
        have counted := ih later
        simp only [List.length_cons]
        omega

theorem pieces_append (clean : sep ∉ text) (piece rest : List C) :
    pieces sep piece (text ++ sep :: rest) = (pieces sep [] rest).map ((piece ++ text) :: ·) := by
  induction text generalizing piece with
  | nil => simp [pieces]
  | cons c text ih =>
      obtain ⟨other, clean⟩ := not_or.mp (mt List.mem_cons.mpr clean)
      rw [List.cons_append, pieces, if_neg (Ne.symm other), ih clean]
      simp

/-- Terminated pieces are found again. -/
theorem pieces_flatMap {lines : List (List C)} (clean : ∀ line ∈ lines, sep ∉ line) :
    pieces sep [] (lines.flatMap fun line => line ++ [sep]) = some lines := by
  induction lines with
  | nil => rfl
  | cons line lines ih =>
      obtain ⟨first, rest⟩ := List.forall_mem_cons.mp clean
      rw [List.flatMap_cons, List.append_assoc, List.singleton_append, pieces_append first, ih rest]
      rfl

end Pieces

/-! ## Tables -/

/-- How the entries of a table are written: what is written can be read back, and holds neither of
the separators. -/
structure Cell (C α : Type*) where
  comma : C
  newline : C
  distinct : comma ≠ newline
  encode : α → List C
  decode : List C → Option α
  inverse : ∀ a, decode (encode a) = some a
  oneField : ∀ a, comma ∉ encode a
  oneLine : ∀ a, newline ∉ encode a

/-- A label that a line can start with. -/
structure RowLabel (cell : Cell C α) where
  text : List C
  oneField : cell.comma ∉ text
  oneLine : cell.newline ∉ text

structure Row (cell : Cell C α) where
  label : RowLabel cell
  cells : List α

variable {cell : Cell C α}

namespace Row

/-- A line without its end. -/
def open_ (row : Row cell) : List C :=
  row.label.text ++ cell.comma :: row.cells.flatMap fun a => cell.encode a ++ [cell.comma]

def render (row : Row cell) : List C := row.open_ ++ [cell.newline]

def push (row : Row cell) (a : α) : Row cell := { row with cells := row.cells ++ [a] }

theorem open_push (row : Row cell) (a : α) : (row.push a).open_ = row.open_ ++ (cell.encode a ++ [cell.comma]) := by
  simp [open_, push]

theorem newline_not_mem_open (row : Row cell) : cell.newline ∉ row.open_ := by
  simp only [open_, List.mem_append, List.mem_cons, List.mem_flatMap, List.not_mem_nil, or_false, not_or, not_exists, not_and]
  exact ⟨row.label.oneLine, Ne.symm cell.distinct, fun a _ => ⟨cell.oneLine a, Ne.symm cell.distinct⟩⟩

def fields (row : Row cell) : List (List C) := row.label.text :: row.cells.map cell.encode

theorem open_eq_fields (row : Row cell) : row.open_ = row.fields.flatMap fun field => field ++ [cell.comma] := by
  simp [open_, fields, List.flatMap_map]

theorem comma_not_mem_fields (row : Row cell) : ∀ field ∈ row.fields, cell.comma ∉ field := by
  intro field member
  rcases List.mem_cons.mp member with rfl | written
  · exact row.label.oneField
  · obtain ⟨a, -, rfl⟩ := List.mem_map.mp written
    exact cell.oneField a

end Row

abbrev Sheet (cell : Cell C α) := List (Row cell)

namespace Sheet

def render (sheet : Sheet cell) : List C := sheet.flatMap Row.render

/-- Each row gains a cell. -/
def extend (sheet : Sheet cell) (column : List α) : Sheet cell := sheet.zipWith Row.push column

/-- The rows of a sheet that has no columns yet. -/
def blank (labels : List (RowLabel cell)) : Sheet cell := labels.map fun label => ⟨label, []⟩

/-- A sheet with the given columns, the first one first. -/
def ofColumns (labels : List (RowLabel cell)) (columns : List (List α)) : Sheet cell := columns.foldl extend (blank labels)

theorem ofColumns_snoc (labels : List (RowLabel cell)) (columns : List (List α)) (column : List α) :
    ofColumns labels (columns ++ [column]) = (ofColumns labels columns).extend column := by
  simp [ofColumns]

theorem length_extend {sheet : Sheet cell} {column : List α} (fits : column.length = List.length sheet) :
    List.length (sheet.extend column) = List.length sheet := by
  simp [extend, fits]

theorem length_ofColumns {labels : List (RowLabel cell)} {columns : List (List α)}
    (fits : ∀ column ∈ columns, column.length = labels.length) :
    List.length (ofColumns labels columns) = labels.length := by
  induction columns using List.reverseRecOn with
  | nil => simp [ofColumns, blank]
  | append_singleton columns column ih =>
      simp only [List.mem_append, List.mem_singleton, or_imp, forall_and, forall_eq] at fits
      rw [ofColumns_snoc, length_extend (by rw [fits.2, ih fits.1]), ih fits.1]

theorem getElem?_ofColumns {labels : List (RowLabel cell)} {columns : List (List α)}
    (fits : ∀ column ∈ columns, column.length = labels.length) (index : Nat) :
    (ofColumns labels columns)[index]? =
      labels[index]?.map fun label => ⟨label, columns.filterMap fun column => column[index]?⟩ := by
  induction columns using List.reverseRecOn with
  | nil => simp [ofColumns, blank]
  | append_singleton columns column ih =>
      simp only [List.mem_append, List.mem_singleton, or_imp, forall_and, forall_eq] at fits
      rw [ofColumns_snoc, extend, List.getElem?_zipWith, ih fits.1]
      cases present : labels[index]? with
      | none => rfl
      | some label =>
          obtain ⟨bound, -⟩ := List.getElem?_eq_some_iff.mp present
          rw [← fits.2] at bound
          simp [List.getElem?_eq_getElem bound, Row.push]

/-! ## The first column -/

def column (labels : List (RowLabel cell)) (cells : List α) : List C := render (ofColumns labels [cells])

theorem column_cons (label : RowLabel cell) (labels : List (RowLabel cell)) (a : α) (cells : List α) :
    column (label :: labels) (a :: cells) =
      label.text ++ cell.comma :: (cell.encode a ++ [cell.comma, cell.newline]) ++ column labels cells := by
  simp [column, ofColumns, blank, extend, render, Row.render, Row.open_, Row.push]

theorem column_append {labels : List (RowLabel cell)} {cells : List α} (fits : cells.length = labels.length)
    (later : List (RowLabel cell)) (rest : List α) :
    column (labels ++ later) (cells ++ rest) = column labels cells ++ column later rest := by
  simp [column, ofColumns, blank, extend, render, List.zipWith_append, fits]

section Text

variable [DecidableEq C]

/-! ## Copying a table -/

/-- Copy a line for each cell, and write the cell at its end. -/
def appendColumn (cell : Cell C α) : List α → List C → Option (List C × List C)
  | [], copy => some ([], copy)
  | a :: column, copy => do
      let (line, copy) ← cut cell.newline copy
      let (text, copy) ← appendColumn cell column copy
      return (line ++ cell.encode a ++ [cell.comma, cell.newline] ++ text, copy)

/-- Copying the text of a sheet makes the text of the sheet with another column. -/
theorem appendColumn_render {sheet : Sheet cell} {column : List α} (fits : column.length = List.length sheet)
    (rest : List C) : appendColumn cell column (sheet.render ++ rest) = some ((sheet.extend column).render, rest) := by
  induction sheet generalizing column with
  | nil =>
      obtain rfl := List.length_eq_zero_iff.mp fits
      rfl
  | cons row sheet ih =>
      cases column with
      | nil => simp at fits
      | cons a column =>
          have line : Sheet.render (row :: sheet) ++ rest = row.open_ ++ cell.newline :: (Sheet.render sheet ++ rest) := by
            simp [Sheet.render, Row.render]
          rw [line, appendColumn, cut_append row.newline_not_mem_open]
          simp only [Option.bind_eq_bind, Option.bind_some, ih (Nat.succ.inj fits), Option.pure_def]
          simp [Sheet.render, extend, Row.render, Row.open_push]

/-- It takes a line of the copy for each cell. -/
theorem appendColumn_isSome_iff {column : List α} {copy : List C} :
    (appendColumn cell column copy).isSome = true ↔ column.length ≤ copy.count cell.newline := by
  induction column generalizing copy with
  | nil => simp [appendColumn]
  | cons a column ih =>
      rw [appendColumn]
      cases found : cut cell.newline copy with
      | none => simp [cut_eq_none_iff.mp found]
      | some parts =>
          have lines := count_of_cut found
          have rest := @ih parts.2
          cases later : appendColumn cell column parts.2 with
          | none =>
              rw [later] at rest
              simp only [Option.bind_eq_bind, Option.bind_some, later, Option.bind_none, List.length_cons, lines]
              simpa using rest
          | some done =>
              rw [later] at rest
              simp only [Option.bind_eq_bind, Option.bind_some, later, List.length_cons, lines]
              simpa using rest

/-! ## Reading a table back -/

def readRow (cell : Cell C α) (line : List C) : Option (List C × List α) :=
  match pieces cell.comma [] line with
  | some (label :: fields) => (fields.mapM cell.decode).map fun cells => (label, cells)
  | _ => none

/-- The labels of a text, with the cells of each row. -/
def read (cell : Cell C α) (text : List C) : Option (List (List C × List α)) :=
  (pieces cell.newline [] text).bind fun lines => lines.mapM (readRow cell)

omit [DecidableEq C] in
theorem mapM_map {β γ δ : Type*} {f : γ → Option δ} {g : β → γ} {h : β → δ} {l : List β}
    (each : ∀ b ∈ l, f (g b) = some (h b)) : (l.map g).mapM f = some (l.map h) := by
  induction l with
  | nil => rfl
  | cons b l ih =>
      obtain ⟨first, rest⟩ := List.forall_mem_cons.mp each
      simp [List.mapM_cons, first, ih rest]

theorem readRow_open (row : Row cell) : readRow cell row.open_ = some (row.label.text, row.cells) := by
  have decoded : (row.cells.map cell.encode).mapM cell.decode = some (row.cells.map id) :=
    mapM_map fun a _ => cell.inverse a
  rw [readRow, row.open_eq_fields, pieces_flatMap row.comma_not_mem_fields]
  simp [Row.fields, decoded]

/-- What has been written is what is read. -/
theorem read_render (sheet : Sheet cell) :
    read cell sheet.render = some (sheet.map fun row => (row.label.text, row.cells)) := by
  have lines : sheet.render = (sheet.map Row.open_).flatMap fun line => line ++ [cell.newline] := by
    rw [List.flatMap_map]
    rfl
  have clean : ∀ line ∈ sheet.map Row.open_, cell.newline ∉ line := by
    intro line member
    obtain ⟨row, -, rfl⟩ := List.mem_map.mp member
    exact row.newline_not_mem_open
  rw [read, lines, pieces_flatMap clean, Option.bind_some]
  exact mapM_map fun row _ => readRow_open row

theorem read_column (labels : List (RowLabel cell)) (cells : List α) :
    read cell (column labels cells) = some ((labels.map RowLabel.text).zip (cells.map fun a => [a])) := by
  rw [column, read_render]
  simp [ofColumns, extend, blank, Row.push, List.map_zipWith, List.zip, List.zipWith_map_left, List.zipWith_map_right]

end Text

end Sheet

end Oreo.Tables
