import Mathlib.Algebra.GroupWithZero.Nat
import Mathlib.Data.List.DropRight
import Mathlib.Data.List.Forall2
import PocketSql.Console.Render
import PocketSql.Proofs.Store.Accesses
import PocketSql.Text.Lines

/-!
# Tables are aligned

The lines of a table are equally long, and what stands in a column stands at the same place in all of
them, whatever cells the rows have and lack. So each text can be read at the place of its column. A
text is filled up to a width that is limited; longer texts have no line.

## Main definitions

* `Grid.Printable` — rows whose texts have no line feed and are short enough.
* `Grid.offset`, `Grid.slice` — the place of a column, and what stands there.
* `Grid.Holds` — a line that holds texts, each at the place of its column.
* `QueryResult.toTable?` — a table that has no text where a width is above the limit.

## Main results

* `Grid.pairwise_columns` — columns come in the order in which their names first appear.
* `QueryResult.toTable_aligned` — what stands where in a table.
-/

namespace PocketSql

namespace Grid

/-! ## What can be printed -/

/-- The greatest width to which a text is filled up. -/
def widthLimit : Nat := 65535

/-- Rows with texts that fit on a line. A carriage return does no harm, as no line ends with one. -/
structure Printable (rows : List Row) : Prop where
  unbroken : ∀ row ∈ rows, ∀ cell ∈ row,
    '\n' ∉ cell.1.toList ∧ '\n' ∉ cell.2.display.toList
  short : ∀ row ∈ rows, ∀ cell ∈ row,
    cell.1.length ≤ widthLimit ∧ cell.2.display.length ≤ widthLimit

/-- A text between blanks, if the width is not above the limit. -/
def padded? (width : Nat) (text : String) : Option String :=
  if width ≤ widthLimit then some (padded width text) else none

def line? (widths : List Nat) (texts : List String) : Option String := do
  let cells ← (widths.zip texts).mapM fun (width, text) => padded? width text
  return "|" ++ "|".intercalate cells ++ "|"

def lines? (rows : List Row) : Option (List String) := do
  let names := columns rows
  let widths := names.map (width rows)
  let header ← line? widths names
  let body ← rows.mapM fun row => line? widths (names.map (cellText row))
  return [border widths, header, border widths] ++ body
    ++ [border widths, s!"{rows.length} row(s)"]

/-! ## Where texts stand -/

/-- How many characters of a line stand in front of the texts of a column. -/
def offset (widths : List Nat) (j : Nat) : Nat := 2 + ((widths.take j).map (· + 3)).sum

/-- What stands at a place of a line. -/
def slice (line : String) (start width : Nat) : List Char := (line.toList.drop start).take width

/-- The text that is read at a place: what stands there, without the blanks at its end. -/
def read (line : String) (start width : Nat) : String :=
  String.ofList ((slice line start width).rdropWhile (· = ' '))

/-- A text that is filled up with blanks. -/
def filled (width : Nat) (text : String) : List Char :=
  text.toList ++ List.replicate (width - text.length) ' '

/-- A line that holds a text at a place. -/
structure HoldsAt (line : String) (start width : Nat) (text : String) : Prop where
  fits : text.length ≤ width
  slice_eq : slice line start width = filled width text
  /-- Blanks at the end of a text are not told from those behind it. -/
  read_eq : text.toList.getLast? ≠ some ' ' → read line start width = text

/-- A line that holds texts, one in each column, at the places of the columns. -/
def Holds (widths : List Nat) (line : String) (texts : List String) : Prop :=
  widths.length = texts.length ∧ ∀ j width text, widths[j]? = some width → texts[j]? = some text →
    HoldsAt line (offset widths j) width text

/-! ## Cells between bars -/

/-- Cells with a bar behind each of them; without cells there is one bar. -/
def barred (bar : Char) (cells : List (List Char)) : List Char := [bar].intercalate cells ++ [bar]

section
variable (bar : Char)

theorem barred_cons (cell : List Char) {cells : List (List Char)} (more : cells ≠ []) :
    barred bar (cell :: cells) = cell ++ bar :: barred bar cells := by
  obtain ⟨next, cells, rfl⟩ := List.exists_cons_of_ne_nil more
  simp [barred, List.intercalate_cons_cons]

theorem length_barred (cells : List (List Char)) :
    (barred bar cells).length = max 1 (cells.map (·.length + 1)).sum := by
  induction cells with
  | nil => simp [barred]
  | cons cell cells ih =>
    by_cases more : cells = []
    · simp [more, barred]
    · rw [barred_cons bar cell more, List.length_append, List.length_cons, ih]
      obtain ⟨next, cells, rfl⟩ := List.exists_cons_of_ne_nil more
      simp only [List.map_cons, List.sum_cons]
      omega

/-- Behind the cells in front of it and their bars stands the cell. -/
theorem exists_drop_barred {cells : List (List Char)} {j : Nat} {cell : List Char}
    (h : cells[j]? = some cell) :
    ∃ rest, (barred bar cells).drop ((cells.take j).map (·.length + 1)).sum = cell ++ rest := by
  induction cells generalizing j with
  | nil => simp at h
  | cons first cells ih =>
    cases j with
    | zero =>
      obtain rfl := Option.some.inj h
      by_cases more : cells = []
      · exact ⟨[bar], by simp [more, barred]⟩
      · exact ⟨bar :: barred bar cells, by simp [barred_cons bar first more]⟩
    | succ j =>
      rw [List.getElem?_cons_succ] at h
      obtain ⟨rest, hrest⟩ := ih h
      have more : cells ≠ [] := by
        rintro rfl
        simp at h
      refine ⟨rest, ?_⟩
      rw [barred_cons bar first more, ← hrest, List.take_succ_cons, List.map_cons, List.sum_cons,
        Nat.add_assoc, List.drop_length_add_append, Nat.add_comm 1, List.drop_succ_cons]

theorem mem_barred {cells : List (List Char)} {c : Char} (h : c ∈ barred bar cells) :
    c = bar ∨ ∃ cell ∈ cells, c ∈ cell := by
  induction cells with
  | nil => exact .inl (by simpa [barred] using h)
  | cons first cells ih =>
    by_cases more : cells = []
    · simp only [more, barred, List.intercalate_singleton, List.mem_append,
        List.mem_singleton] at h
      obtain front | rfl := h
      · exact .inr ⟨first, by simp, front⟩
      · exact .inl rfl
    · rw [barred_cons bar first more, List.mem_append, List.mem_cons] at h
      obtain front | rfl | behind := h
      · exact .inr ⟨first, by simp, front⟩
      · exact .inl rfl
      · obtain same | ⟨cell, mem, hc⟩ := ih behind
        · exact .inl same
        · exact .inr ⟨cell, by simp [mem], hc⟩

end

theorem toList_padded (width : Nat) (text : String) :
    (padded width text).toList = ' ' :: (filled width text ++ [' ']) := by
  simp [padded, filled, String.toList_append]

theorem length_filled {width : Nat} {text : String} (fits : text.length ≤ width) :
    (filled width text).length = width := by
  rw [filled, List.length_append, List.length_replicate, String.length_toList]
  omega

/-- Padding is taken off again. -/
theorem rdropWhile_filled (width : Nat) {text : String}
    (solid : text.toList.getLast? ≠ some ' ') :
    (filled width text).rdropWhile (· = ' ') = text.toList := by
  have padding : ∀ n, (text.toList ++ List.replicate n ' ').rdropWhile (· = ' ') =
      text.toList.rdropWhile (· = ' ') := by
    intro n
    induction n with
    | zero => simp
    | succ n ih =>
      rw [List.replicate_succ', ← List.append_assoc, List.rdropWhile_concat_pos _ _ _ (by simp), ih]
  rw [filled, padding, List.rdropWhile_eq_self_iff]
  intro some
  rw [List.getLast?_eq_some_getLast some] at solid
  simpa using solid

theorem toList_line (widths : List Nat) (texts : List String) :
    (line widths texts).toList =
      '|' :: barred '|' ((List.zipWith padded widths texts).map String.toList) := by
  simp [line, barred, String.toList_append, String.toList_intercalate]

theorem toList_border (widths : List Nat) :
    (border widths).toList =
      '+' :: barred '+' (widths.map fun w => List.replicate (w + 2) '-') := by
  simp [border, barred, String.toList_append, String.toList_intercalate, Function.comp_def]

/-- Texts that fit into columns, one in each. -/
def Fits (widths : List Nat) (texts : List String) : Prop :=
  List.Forall₂ (fun width text => text.length ≤ width) widths texts

/-- The length of all lines of a table but the last one. -/
def lineLength (widths : List Nat) : Nat := 1 + max 1 (widths.map (· + 3)).sum

section
variable {widths : List Nat} {texts : List String}

theorem lengths_padded (fits : Fits widths texts) :
    ((List.zipWith padded widths texts).map String.toList).map (·.length + 1) =
      widths.map (· + 3) := by
  induction fits with
  | nil => rfl
  | cons first _ ih =>
    simp only [List.zipWith_cons_cons, List.map_cons, ih, toList_padded, List.length_cons,
      List.length_append, length_filled first, List.length_nil]

theorem length_line (fits : Fits widths texts) :
    (line widths texts).length = lineLength widths := by
  rw [← String.length_toList, toList_line, List.length_cons, length_barred, lengths_padded fits,
    lineLength, Nat.add_comm]

theorem length_border (widths : List Nat) : (border widths).length = lineLength widths := by
  have lengths : (widths.map fun w => List.replicate (w + 2) '-').map (·.length + 1) =
      widths.map (· + 3) := by
    rw [List.map_map]
    exact List.map_congr_left fun w _ => by rw [Function.comp_apply, List.length_replicate]
  rw [← String.length_toList, toList_border, List.length_cons, length_barred, lengths, lineLength,
    Nat.add_comm]

/-- A line holds the texts it is made of. -/
theorem holds_line (fits : Fits widths texts) : Holds widths (line widths texts) texts := by
  refine ⟨fits.length_eq, fun j width text hw ht => ?_⟩
  have fit : text.length ≤ width := by
    obtain ⟨hj, rfl⟩ := List.getElem?_eq_some_iff.1 hw
    obtain ⟨hj', rfl⟩ := List.getElem?_eq_some_iff.1 ht
    exact List.Forall₂.get fits hj hj'
  have cell : ((List.zipWith padded widths texts).map String.toList)[j]? =
      some (padded width text).toList := by
    rw [List.getElem?_map, List.getElem?_zipWith, hw, ht]
    rfl
  obtain ⟨rest, behind⟩ := exists_drop_barred '|' cell
  have slice_eq : slice (line widths texts) (offset widths j) width = filled width text := by
    rw [List.map_take, lengths_padded fits, ← List.map_take] at behind
    rw [slice, offset, toList_line, Nat.add_comm 2, List.drop_succ_cons, ← List.drop_drop, behind,
      toList_padded, List.cons_append, List.drop_succ_cons, List.drop_zero, List.append_assoc]
    exact List.take_left' (length_filled fit)
  refine ⟨fit, slice_eq, fun solid => ?_⟩
  rw [read, slice_eq, rdropWhile_filled width solid, String.ofList_toList]

end

/-! ## The columns of a table -/

/-- All names of cells, in the order in which they appear. -/
def keys (rows : List Row) : List String := rows.flatMap Row.names

theorem mem_columns {rows : List Row} {name : String} :
    name ∈ columns rows ↔ ∃ row ∈ rows, name ∈ row.names := by
  rw [columns, List.mem_eraseDups, List.mem_flatMap]

/-- What is kept of a list without repetitions is in the order of first appearance. -/
theorem pairwise_eraseDups (names : List String) :
    names.eraseDups.Pairwise fun m n => names.idxOf m < names.idxOf n := by
  induction names using List.reverseRecOn with
  | nil => simp
  | append_singleton names name ih =>
    have old : names.eraseDups.Pairwise fun m n =>
        (names ++ [name]).idxOf m < (names ++ [name]).idxOf n := by
      refine ih.imp_of_mem fun hm hn before => ?_
      rw [List.mem_eraseDups] at hm hn
      rwa [List.idxOf_append_of_mem hm, List.idxOf_append_of_mem hn]
    rw [List.eraseDups_append]
    by_cases seen : name ∈ names
    · simpa [List.removeAll, seen] using old
    · -- a name that is new comes behind all others
      have new : ([name].removeAll names).eraseDups = [name] := by
        simp [List.removeAll, seen, List.eraseDups_cons]
      rw [new, List.pairwise_append]
      refine ⟨old, List.pairwise_singleton _ _, fun m hm n hn => ?_⟩
      rw [List.mem_eraseDups] at hm
      rw [List.mem_singleton.1 hn, List.idxOf_append_of_mem hm, List.idxOf_append_of_notMem seen]
      have := List.idxOf_lt_length_of_mem hm
      omega

theorem pairwise_columns (rows : List Row) :
    (columns rows).Pairwise fun m n => (keys rows).idxOf m < (keys rows).idxOf n :=
  pairwise_eraseDups (keys rows)

theorem foldl_max_le_iff (lengths : List Nat) (start n : Nat) :
    lengths.foldl max start ≤ n ↔ start ≤ n ∧ ∀ length ∈ lengths, length ≤ n := by
  induction lengths generalizing start with
  | nil => simp
  | cons length lengths ih => simp [ih, and_assoc]

/-- A column is as wide as its longest text. -/
theorem width_le_iff {rows : List Row} {name : String} {n : Nat} :
    width rows name ≤ n ↔
      name.length ≤ n ∧ ∀ row ∈ rows, (cellText row name).length ≤ n := by
  rw [width, foldl_max_le_iff, List.forall_mem_map]

section
variable (rows : List Row)

/-- The widths of all columns. -/
def widths : List Nat := (columns rows).map (width rows)

theorem fits_names : Fits (widths rows) (columns rows) := by
  rw [Fits, widths, List.forall₂_map_left_iff, List.forall₂_same]
  exact fun name _ => (width_le_iff.1 (Nat.le_refl _)).1

variable {rows} {row : Row}

theorem fits_cells (h : row ∈ rows) :
    Fits (widths rows) ((columns rows).map (cellText row)) := by
  rw [Fits, widths, List.forall₂_map_left_iff, List.forall₂_map_right_iff, List.forall₂_same]
  exact fun name _ => (width_le_iff.1 (Nat.le_refl _)).2 row h

/-- The text of a cell; a missing cell reads as NULL. -/
theorem cellText_eq (row : Row) (name : String) :
    cellText row name = (row.get? name).elim "NULL" Value.display := by
  rw [cellText, Row.get]
  cases row.get? name <;> rfl

/-- What holds of the texts of all cells, and of NULL, holds of all texts in a table. -/
theorem forall_texts {P : String → Prop} (null : P "NULL")
    (cells : ∀ row ∈ rows, ∀ cell ∈ row, P cell.1 ∧ P cell.2.display) :
    (∀ name ∈ columns rows, P name) ∧ ∀ row ∈ rows, ∀ name, P (cellText row name) := by
  constructor
  · intro name hname
    obtain ⟨row, hrow, mem⟩ := mem_columns.1 hname
    obtain ⟨cell, hcell, rfl⟩ := List.mem_map.1 mem
    exact (cells row hrow cell hcell).1
  · intro row hrow name
    rw [cellText_eq]
    cases found : row.get? name with
    | none => exact null
    | some v => exact (cells row hrow _ (Row.mem_of_get? found)).2

end

/-! ## The lines of a table -/

section
variable {rows : List Row}

/-- The number of rows, as it stands below a table. -/
def count (rows : List Row) : String := s!"{rows.length} row(s)"

/-- The lines of a table but for the last one. -/
def body (rows : List Row) : List String :=
  [border (widths rows), line (widths rows) (columns rows), border (widths rows)]
    ++ rows.map (fun row => line (widths rows) ((columns rows).map (cellText row)))
    ++ [border (widths rows)]

theorem lines_eq (rows : List Row) : lines rows = body rows ++ [count rows] := by
  simp [lines, body, count, widths]

theorem length_body (rows : List Row) : (body rows).length = rows.length + 4 := by
  simp [body]

theorem getElem?_body {i : Nat} {row : Row} (h : rows[i]? = some row) :
    (body rows)[i + 3]? = some (line (widths rows) ((columns rows).map (cellText row))) := by
  have inside : i < rows.length := (List.getElem?_eq_some_iff.1 h).1
  rw [body, List.append_assoc, List.getElem?_append_right (by simp),
    List.getElem?_append_left (by simpa using inside)]
  simp [h]

/-- A line of the body is a border, or it has texts in all columns. -/
theorem mem_body {l : String} (h : l ∈ body rows) :
    l = border (widths rows) ∨ ∃ texts, l = line (widths rows) texts ∧ Fits (widths rows) texts ∧
      (texts = columns rows ∨ ∃ row ∈ rows, texts = (columns rows).map (cellText row)) := by
  simp only [body, List.mem_append, List.mem_cons, List.not_mem_nil, or_false, List.mem_map] at h
  obtain ((rfl | rfl | rfl) | ⟨row, hrow, rfl⟩) | rfl := h
  · exact .inl rfl
  · exact .inr ⟨_, rfl, fits_names rows, .inl rfl⟩
  · exact .inl rfl
  · exact .inr ⟨_, rfl, fits_cells hrow, .inr ⟨row, hrow, rfl⟩⟩
  · exact .inl rfl

/-- All lines but the last one are equally long. -/
theorem length_of_mem_body {l : String} (h : l ∈ body rows) :
    l.length = lineLength (widths rows) := by
  obtain rfl | ⟨texts, rfl, fits, -⟩ := mem_body h
  · exact length_border _
  · exact length_line fits

/-- Cells without line feeds are on a line between their bars. -/
theorem isLine_barred {bar : Char} {cells : List (List Char)} (some : bar ≠ '\n' ∧ bar ≠ '\r')
    (unbroken : ∀ cell ∈ cells, '\n' ∉ cell) : Text.IsLine (bar :: barred bar cells) := by
  constructor
  · intro mem
    obtain same | mem := List.mem_cons.1 mem
    · exact some.1 same.symm
    · obtain same | ⟨cell, hcell, mem⟩ := mem_barred bar mem
      · exact some.1 same.symm
      · exact unbroken cell hcell mem
  · rw [barred, ← List.cons_append, List.getLast?_concat]
    exact fun same => some.2 (Option.some.inj same)

theorem isLine_line {texts : List String} (unbroken : ∀ text ∈ texts, '\n' ∉ text.toList)
    (widths : List Nat) : Text.IsLine (line widths texts).toList := by
  rw [toList_line]
  apply isLine_barred (by decide)
  rw [List.forall_mem_map, ← List.map_uncurry_zip_eq_zipWith, List.forall_mem_map]
  rintro ⟨width, text⟩ hcell mem
  rw [Function.uncurry_apply_pair, toList_padded] at mem
  have free := unbroken text (List.of_mem_zip hcell).2
  simp [filled, free] at mem

theorem isLine_border (widths : List Nat) : Text.IsLine (border widths).toList := by
  rw [toList_border]
  apply isLine_barred (by decide)
  rw [List.forall_mem_map]
  intro w _
  simp

theorem toList_count (rows : List Row) :
    (count rows).toList = Nat.toDigits 10 rows.length ++ " row(s)".toList := by
  simp [count]
  rfl

theorem isLine_count (rows : List Row) : Text.IsLine (count rows).toList := by
  rw [toList_count]
  constructor
  · intro mem
    obtain digit | word := List.mem_append.1 mem
    · exact absurd (Nat.isDigit_of_mem_toDigits (by decide) (by decide) digit) (by decide)
    · exact absurd word (by decide)
  · rw [List.getLast?_append_of_ne_nil _ (by decide)]
    decide

variable (printable : Printable rows)
include printable

/-- The lines of a table are read as they were written. -/
theorem lines_text : Text.lines ("\n".intercalate (lines rows)) = lines rows := by
  have texts := forall_texts (P := ('\n' ∉ ·.toList)) (by decide) printable.unbroken
  apply Text.lines_intercalate
  · intro l hl
    rw [lines_eq, List.mem_append, List.mem_singleton] at hl
    obtain hl | rfl := hl
    · obtain rfl | ⟨names, rfl, -, rfl | ⟨row, hrow, rfl⟩⟩ := mem_body hl
      · exact isLine_border _
      · exact isLine_line texts.1 _
      · refine isLine_line ?_ _
        rw [List.forall_mem_map]
        exact fun name _ => texts.2 row hrow name
    · exact isLine_count rows
  · intro l hl
    rw [lines_eq, List.getLast?_concat] at hl
    obtain rfl := Option.some.inj hl
    intro none
    have chars := toList_count rows
    simp [none] at chars

/-! ## Widths that are not above the limit -/

theorem width_le_limit {name : String} (h : name ∈ columns rows) :
    width rows name ≤ widthLimit := by
  have texts := forall_texts (P := (·.length ≤ widthLimit)) (by decide) printable.short
  exact width_le_iff.2 ⟨texts.1 name h, fun row hrow => texts.2 row hrow name⟩

theorem line?_eq (texts : List String) :
    line? (widths rows) texts = some (line (widths rows) texts) := by
  have cells : ((widths rows).zip texts).mapM (fun (width, text) => padded? width text) =
      some (List.zipWith padded (widths rows) texts) := by
    rw [← List.map_uncurry_zip_eq_zipWith]
    apply mapM_eq_some
    rintro ⟨w, text⟩ mem
    obtain ⟨name, hname, rfl⟩ := List.mem_map.1 (List.of_mem_zip mem).1
    exact if_pos (width_le_limit printable hname)
  rw [line?, cells]
  rfl

theorem lines?_eq : lines? rows = some (lines rows) := by
  have body : rows.mapM (fun row => line? (widths rows) ((columns rows).map (cellText row))) =
      some (rows.map fun row => line (widths rows) ((columns rows).map (cellText row))) :=
    mapM_eq_some fun row _ => line?_eq printable _
  have header := line?_eq printable (columns rows)
  simp only [widths] at header body
  simp only [lines?, header, body, Option.bind_eq_bind, Option.bind_some]
  rfl

end

end Grid

namespace QueryResult

open Grid (Holds Printable)

/-- A result as a table, if no width in it is above the limit. -/
def toTable? (r : QueryResult) : Option String :=
  if !r.success then some r.toTable
  else
    match r.rows with
    | some (row :: rows) => (Grid.lines? (row :: rows)).map ("\n".intercalate ·)
    | _ => some r.toTable

/-- **A table is aligned.** Rows whose texts have no line feed, and are not longer than a width may
be, are shown on as many lines and five more, all but the last one equally long. The header holds the
names of all cells, each once and in the order of their first appearance. The line of a row holds the
text of its cell in each column, or NULL, at the place where the header holds the name. -/
theorem toTable_aligned {r : QueryResult} {rows : List Row} (success : r.success = true)
    (shown : r.rows = some rows) (nonempty : rows ≠ []) (printable : Printable rows) :
    let names := Grid.columns rows
    let widths := names.map (Grid.width rows)
    let lines := Text.lines r.toTable
    r.toTable? = some r.toTable ∧
      lines.length = rows.length + 5 ∧
      (∃ n, ∀ line ∈ lines.take (rows.length + 4), line.length = n) ∧
      (∀ name, name ∈ names ↔ ∃ row ∈ rows, name ∈ row.names) ∧
      names.Pairwise (fun m n =>
        (rows.flatMap Row.names).idxOf m < (rows.flatMap Row.names).idxOf n) ∧
      (∃ header, lines[1]? = some header ∧ Holds widths header names) ∧
      ∀ i row, rows[i]? = some row → ∃ line, lines[i + 3]? = some line ∧
        Holds widths line (names.map fun name => (row.get? name).elim "NULL" Value.display) := by
  intro names widths lines
  obtain ⟨first, rest, rfl⟩ := List.exists_cons_of_ne_nil nonempty
  have table : r.toTable = "\n".intercalate (Grid.lines (first :: rest)) := by
    simp [toTable, success, shown]
  have lines_eq : lines = Grid.body (first :: rest) ++ [Grid.count (first :: rest)] := by
    rw [← Grid.lines_eq, ← Grid.lines_text printable, ← table]
  have length := Grid.length_body (first :: rest)
  refine ⟨?_, ?_, ⟨Grid.lineLength widths, ?_⟩, fun name => Grid.mem_columns,
    Grid.pairwise_columns _, ?_, ?_⟩
  · simp [toTable?, success, shown, Grid.lines?_eq printable, table]
  · rw [lines_eq, List.length_append, length]
    rfl
  · rw [lines_eq, ← length, List.take_left]
    exact fun line hl => Grid.length_of_mem_body hl
  · exact ⟨_, by rw [lines_eq]; rfl, Grid.holds_line (Grid.fits_names _)⟩
  · intro i row hrow
    have fits := Grid.fits_cells (List.mem_of_getElem? hrow)
    have inside : i < (first :: rest).length := (List.getElem?_eq_some_iff.1 hrow).1
    refine ⟨Grid.line widths (names.map (Grid.cellText row)), ?_, ?_⟩
    · rw [lines_eq]
      exact (List.getElem?_append_left (by rw [length]; omega)).trans (Grid.getElem?_body hrow)
    · have texts : names.map (Grid.cellText row) =
          names.map fun name => (row.get? name).elim "NULL" Value.display :=
        List.map_congr_left fun name _ => Grid.cellText_eq row name
      rw [← texts]
      exact Grid.holds_line fits

/-- Two rows; the first one lacks a cell that the second one has. -/
def ragged : List Row :=
  [[("a.x", .number ⟨0x3FF0000000000000⟩)],
    [("a.x", .number ⟨0x4004000000000000⟩), ("b.y", .string "né|e")]]

theorem toTable_aligned_ragged :
    let r := ofRows ragged
    r.success = true ∧ r.rows = some ragged ∧ ragged ≠ [] ∧ Printable ragged ∧
      r.toTable? = some ("\n".intercalate ["+-----+------+", "| a.x | b.y  |", "+-----+------+",
        "| 1   | NULL |", "| 2.5 | né|e |", "+-----+------+", "2 row(s)"]) ∧
      ∃ line, (Text.lines r.toTable)[3]? = some line ∧ Holds [3, 4] line ["1", "NULL"] := by
  intro r
  have printable : Printable ragged := ⟨by decide +kernel, by decide +kernel⟩
  have nonempty : ragged ≠ [] := by decide
  obtain ⟨table, -, -, -, -, -, cells⟩ :=
    toTable_aligned (show r.success = true from rfl) (show r.rows = some ragged from rfl)
      nonempty printable
  have widths : (Grid.columns ragged).map (Grid.width ragged) = [3, 4] := by decide +kernel
  have texts : (Grid.columns ragged).map
      (fun name => ((ragged[0]).get? name).elim "NULL" Value.display) = ["1", "NULL"] := by
    decide +kernel
  obtain ⟨line, there, holds⟩ := cells 0 ragged[0] rfl
  rw [widths, texts] at holds
  exact ⟨rfl, rfl, nonempty, printable, table.trans (by decide +kernel), line, there, holds⟩

end QueryResult
end PocketSql
