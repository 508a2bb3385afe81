/-!
# Lines

A line ends with a line feed, and a carriage return right before it belongs to the ending. What
stands behind the last line feed is a line of its own, unless it is empty.
-/

namespace PocketSql.Text

/-- The lines of a text. `start` holds the characters of the current line, last one first. -/
def linesFrom (start : List Char) : List Char → List (List Char)
  | [] => if start.isEmpty then [] else [start.reverse]
  | c :: s =>
    if c = '\n' then
      (match start with
        | '\r' :: before => before.reverse
        | line => line.reverse) :: linesFrom [] s
    else linesFrom (c :: start) s

/-- The lines of a text, without what ends them. -/
def lines (s : String) : List String := (linesFrom [] s.toList).map String.ofList

@[simp] theorem lines_empty : lines "" = [] := rfl

/-- A text that is read as one line: no line feed is in it, and no carriage return at its end. -/
def IsLine (s : List Char) : Prop := '\n' ∉ s ∧ s.getLast? ≠ some '\r'

theorem linesFrom_cons_of_ne {c : Char} (h : c ≠ '\n') (start s : List Char) :
    linesFrom start (c :: s) = linesFrom (c :: start) s := by
  cases start <;> simp [linesFrom, h]

theorem linesFrom_feed {start : List Char} (h : start.head? ≠ some '\r') (rest : List Char) :
    linesFrom start ('\n' :: rest) = start.reverse :: linesFrom [] rest := by
  simp only [linesFrom, if_true]
  split
  · simp at h
  · rfl

/-- A line feed ends a line. -/
theorem linesFrom_append {start s : List Char} (h : IsLine (start.reverse ++ s))
    (rest : List Char) :
    linesFrom start (s ++ '\n' :: rest) = (start.reverse ++ s) :: linesFrom [] rest := by
  induction s generalizing start with
  | nil => simpa using linesFrom_feed (by simpa using h.2) rest
  | cons c s ih =>
    have other : c ≠ '\n' := fun e => h.1 (by simp [e])
    have longer : IsLine ((c :: start).reverse ++ s) := by simpa using h
    rw [List.cons_append, linesFrom_cons_of_ne other, ih longer]
    simp

/-- The last line needs no line feed. -/
theorem linesFrom_last {start s : List Char} (h : '\n' ∉ s) (text : start.reverse ++ s ≠ []) :
    linesFrom start s = [start.reverse ++ s] := by
  induction s generalizing start with
  | nil =>
    have front : start ≠ [] := by simpa using text
    simp [linesFrom, front]
  | cons c s ih =>
    have other : c ≠ '\n' := fun e => h (by simp [e])
    rw [linesFrom_cons_of_ne other, ih (fun m => h (by simp [m])) (by simp)]
    simp

theorem linesFrom_line {line : String} (h : IsLine line.toList) (rest : List Char) :
    linesFrom [] (line.toList ++ '\n' :: rest) = line.toList :: linesFrom [] rest :=
  linesFrom_append h rest

/-- Lines that are written one after the other, each with a line feed, are read back. -/
theorem lines_join {lines : List String} (h : ∀ line ∈ lines, IsLine line.toList) :
    Text.lines (String.join (lines.map (· ++ "\n"))) = lines := by
  have read : linesFrom [] (lines.flatMap fun line => line.toList ++ ['\n']) =
      lines.map String.toList := by
    induction lines with
    | nil => rfl
    | cons line lines ih =>
      rw [List.flatMap_cons, List.append_assoc, List.singleton_append,
        linesFrom_line (h line (by simp)), ih fun l hl => h l (by simp [hl]), List.map_cons]
  rw [Text.lines, String.toList_join, List.flatMap_map]
  simp [read]

/-- Lines that are written with line feeds between them are read back, if the last one is not
empty. -/
theorem lines_intercalate {lines : List String} (h : ∀ line ∈ lines, IsLine line.toList)
    (last : ∀ line ∈ lines.getLast?, line ≠ "") :
    Text.lines ("\n".intercalate lines) = lines := by
  have read : linesFrom [] (['\n'].intercalate (lines.map String.toList)) =
      lines.map String.toList := by
    induction lines with
    | nil => rfl
    | cons line lines ih =>
      cases lines with
      | nil =>
        have text : line.toList ≠ [] := by simpa using last line rfl
        have alone : linesFrom [] line.toList = [line.toList] :=
          linesFrom_last (h line (by simp)).1 text
        simpa using alone
      | cons next lines =>
        rw [List.map_cons, List.map_cons, List.intercalate_cons_cons, List.append_assoc,
          List.singleton_append, linesFrom_line (h line (by simp)), ← List.map_cons,
          ih (fun l hl => h l (by simp [hl])) (by simpa using last)]
  rw [Text.lines, String.toList_intercalate]
  simp [read]

end PocketSql.Text
