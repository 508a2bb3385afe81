import PocketSql.Console.Render
import PocketSql.Proofs.Json.Shape
import PocketSql.Proofs.Sql.Printing

/-!
# Results in JSON are told apart

The JSON text of a result is enough to tell the result, as far as it is shown: whether it succeeded,
its rows with their names and values, and which of the other fields it has. Numbers have to be finite,
as there is no other text for a NaN than that of NULL.

## Main definitions

* `Row.Same`, `QueryResult.Same` — the same names, and values that are the same.
* `QueryResult.Finite` — a result without NaNs and infinities.

## Main results

* `Value.same_of_shape` — the text of a value tells the value and its type.
* `same_of_render_json` — the text of a result tells the result.
-/

namespace PocketSql

open Sql (FiniteValue)

/-! ## Values -/

/-- The type of a value whose text begins with a character. -/
def typeOfFirst? : Char → Option DataType
  | '"' => some .string
  | 't' => some .boolean
  | 'f' => some .boolean
  | 'n' => none
  | _ => some .number

namespace Value

/-- The first character of the text of a value tells its type. -/
theorem typeOfFirst?_textAt {v : Value} (finite : FiniteValue v) :
    (v.toJson.textAt 0).head?.map typeOfFirst? = some v.dataType? := by
  cases v with
  | null => rfl
  | boolean b => cases b <;> rfl
  | string s => rfl
  | number x =>
    obtain ⟨negative, s, d, written, ⟨⟨c, t, rfl, hc⟩, -, -⟩, -⟩ :=
      Number.spells_json (finite x rfl)
    simp only [toJson, Json.textAt, written]
    cases negative with
    | true => rfl
    | false =>
      have digit : typeOfFirst? c = some .number := by
        unfold typeOfFirst?
        split <;> first | rfl | cases hc
      simp [digit, dataType?]

theorem shape_toJson (v : Value) : v.toJson.shape = .atom (v.toJson.textAt 0) := by
  cases v <;> rfl

/-- **The text of a value tells the value.** Values of different types have different texts. -/
theorem same_of_shape {v w : Value} (hv : FiniteValue v) (hw : FiniteValue w)
    (h : v.toJson.shape = w.toJson.shape) : v.same w = true := by
  have types : v.dataType? = w.dataType? := by
    have texts := h
    rw [shape_toJson, shape_toJson, Json.Shape.atom.injEq] at texts
    rw [← Option.some.injEq, ← typeOfFirst?_textAt hv, ← typeOfFirst?_textAt hw, texts]
  cases v <;> cases w <;> try cases types
  case null.null => rfl
  case boolean.boolean a b => exact decide_eq_true (Json.boolean_shape_injective h)
  case number.number x y => exact Json.same_of_number_shape (hv x rfl) (hw y rfl) h
  case string.string a b => exact decide_eq_true (Json.string_shape_injective h)

end Value

/-! ## Rows -/

/-- The same names in the same order, with the same values. -/
def Row.Same (row row' : Row) : Prop :=
  List.Forall₂ (fun cell cell' => cell.1 = cell'.1 ∧ cell.2.same cell'.2 = true) row row'

/-- A row without NaNs and infinities. -/
def Row.Finite (row : Row) : Prop := ∀ cell ∈ row, FiniteValue cell.2

theorem forall₂_of_map_eq {α β : Type} {f : α → β} {R : α → α → Prop} {xs ys : List α}
    (h : ∀ a ∈ xs, ∀ b ∈ ys, f a = f b → R a b) (same : xs.map f = ys.map f) :
    List.Forall₂ R xs ys := by
  induction xs generalizing ys with
  | nil =>
    rw [List.map_eq_nil_iff.1 same.symm]
    exact .nil
  | cons a xs ih =>
    obtain ⟨b, ys, rfl, head, tail⟩ := List.map_eq_cons_iff.1 same.symm
    refine .cons (h a (by simp) b (by simp) head.symm) (ih (fun a ha b hb => ?_) tail.symm)
    exact h a (by simp [ha]) b (by simp [hb])

theorem Row.same_of_shape {row row' : Row} (finite : row.Finite) (finite' : row'.Finite)
    (h : row.toJson.shape = row'.toJson.shape) : row.Same row' := by
  simp only [Row.toJson, Json.shape, Json.fieldShapes_eq, List.map_map, Json.Shape.object.injEq] at h
  refine forall₂_of_map_eq (fun cell hc cell' hc' eq => ?_) h
  obtain ⟨name, value⟩ := Prod.mk.inj eq
  exact ⟨name, Value.same_of_shape (finite cell hc) (finite' cell' hc') value⟩

/-! ## Fields that may be absent -/

/-- The fields that are there. -/
def present {α : Type} (fields : List (String × Option α)) : List (String × α) :=
  fields.filterMap fun field => field.2.map (field.1, ·)

section
variable {α : Type}

theorem mem_names_of_mem_present {fields : List (String × Option α)} {field : String × α}
    (h : field ∈ present fields) : field.1 ∈ fields.map (·.1) := by
  obtain ⟨whole, hw, found⟩ := List.mem_filterMap.1 h
  obtain ⟨v, -, rfl⟩ := Option.map_eq_some_iff.1 found
  exact List.mem_map_of_mem hw

/-- Where no name is repeated, the fields that are there tell which ones are absent. -/
theorem present_inj {xs ys : List (String × Option α)} (names : xs.map (·.1) = ys.map (·.1))
    (nodup : (xs.map (·.1)).Nodup) (h : present xs = present ys) : xs = ys := by
  induction xs generalizing ys with
  | nil => exact (List.map_eq_nil_iff.1 names.symm).symm
  | cons x xs ih =>
    obtain ⟨y, ys, rfl⟩ := List.exists_cons_of_ne_nil (l := ys) (by rintro rfl; cases names)
    obtain ⟨name, v⟩ := x
    obtain ⟨name', w⟩ := y
    simp only [List.map_cons, List.cons.injEq] at names
    obtain ⟨rfl, names⟩ := names
    obtain ⟨fresh, apart⟩ := List.nodup_cons.1 nodup
    cases v <;> cases w
    case none.none => rw [ih names apart h]
    case some.some =>
      obtain ⟨eq, rest⟩ := List.cons.inj h
      rw [ih names apart rest, (Prod.mk.inj eq).2]
    case none.some w =>
      have later : (name, w) ∈ present xs := by
        rw [show present xs = _ from h]
        exact List.mem_cons_self
      exact absurd (mem_names_of_mem_present later) fresh
    case some.none v =>
      have later : (name, v) ∈ present ys := by
        rw [← show _ = present ys from h]
        exact List.mem_cons_self
      exact absurd (names ▸ mem_names_of_mem_present later) fresh

end

namespace QueryResult

/-- The shapes of the fields that a result may have. -/
def fieldShapes (r : QueryResult) : List (String × Option Json.Shape) :=
  [("success", some (Json.boolean r.success).shape),
    ("rows", r.rows.map fun rows => .array (rows.map fun row => row.toJson.shape)),
    ("rowCount", r.rowCount.map fun n => (Json.natural n).shape),
    ("message", r.message.map fun m => (Json.string m).shape),
    ("error", r.error.map fun e => (Json.string e).shape)]

theorem nodup_names (r : QueryResult) : (r.fieldShapes.map (·.1)).Nodup := by
  rw [show r.fieldShapes.map (·.1) = ["success", "rows", "rowCount", "message", "error"] from rfl]
  decide

theorem shape_toJson (r : QueryResult) : r.toJson.shape = .object (present r.fieldShapes) := by
  obtain ⟨_, _ | _, _ | _, _ | _, _ | _, _⟩ := r <;>
    simp [toJson, Json.shape, fieldShapes, present, Function.comp_def]

/-- What is shown of two results is the same. -/
structure Same (r r' : QueryResult) : Prop where
  success : r.success = r'.success
  rows : Option.Rel (List.Forall₂ Row.Same) r.rows r'.rows
  rowCount : r.rowCount = r'.rowCount
  message : r.message = r'.message
  error : r.error = r'.error

/-- A result without NaNs and infinities. -/
def Finite (r : QueryResult) : Prop := ∀ rows, r.rows = some rows → ∀ row ∈ rows, row.Finite

theorem same_rows_of_shape {r r' : QueryResult} (finite : r.Finite) (finite' : r'.Finite)
    (h : (r.rows.map fun rows => Json.Shape.array (rows.map fun row => row.toJson.shape)) =
      r'.rows.map fun rows => Json.Shape.array (rows.map fun row => row.toJson.shape)) :
    Option.Rel (List.Forall₂ Row.Same) r.rows r'.rows := by
  cases hr : r.rows <;> cases hr' : r'.rows <;> rw [hr, hr'] at h
  case none.none => exact .none
  case none.some => cases h
  case some.none => cases h
  case some.some rows rows' =>
    refine .some (forall₂_of_map_eq (fun row mem row' mem' => ?_)
      (Json.Shape.array.inj (Option.some.inj h)))
    exact Row.same_of_shape (finite rows hr row mem) (finite' rows' hr' row' mem')

theorem same_of_shape {r r' : QueryResult} (finite : r.Finite) (finite' : r'.Finite)
    (h : r.toJson.shape = r'.toJson.shape) : r.Same r' := by
  rw [shape_toJson, shape_toJson, Json.Shape.object.injEq] at h
  have fields : r.fieldShapes = r'.fieldShapes := present_inj rfl r.nodup_names h
  simp only [fieldShapes, List.cons.injEq, Prod.mk.injEq, true_and, and_true] at fields
  obtain ⟨success, rows, rowCount, message, error⟩ := fields
  exact
    { success := Json.boolean_shape_injective (Option.some.inj success)
      rows := same_rows_of_shape finite finite' rows
      rowCount := Option.map_injective Json.natural_shape_injective rowCount
      message := Option.map_injective Json.string_shape_injective message
      error := Option.map_injective Json.string_shape_injective error }

/-- **The JSON text of a result tells the result.** -/
theorem same_of_render_json {r r' : QueryResult} (finite : r.Finite) (finite' : r'.Finite)
    (h : r.render .json = r'.render .json) : r.Same r' := by
  have text : r.toJson.textAt 0 = r'.toJson.textAt 0 := by
    simpa [render, Json.text] using congrArg String.toList h
  exact same_of_shape finite finite' (Json.shape_inj text)

/-- A result with a quoted numeral, a zero and one half. -/
def quotedOne (zero : Number) : QueryResult where
  success := true
  rows := some
    [[("\"a\"\n", .string "1"), ("b", .number zero), ("c", .number ⟨0x3FE0000000000000⟩)], []]
  rowCount := some 2
  message := none
  error := none
  errorKind := none

theorem finite_quotedOne {zero : Number} (h : zero.isFinite = true) : (quotedOne zero).Finite := by
  rintro rows ⟨⟩ row mem cell hc x hx
  simp only [List.mem_cons, List.not_mem_nil, or_false] at mem
  obtain rfl | rfl := mem
  · simp only [List.mem_cons, List.not_mem_nil, or_false] at hc
    obtain rfl | rfl | rfl := hc <;> cases hx
    · exact h
    · rfl
  · cases hc

/-- The two zeros have one text, and they are the same. -/
theorem same_of_render_json_zeros :
    (quotedOne ⟨0⟩).Finite ∧ (quotedOne ⟨0x8000000000000000⟩).Finite ∧
      (quotedOne ⟨0⟩).render .json = (quotedOne ⟨0x8000000000000000⟩).render .json ∧
      (quotedOne ⟨0⟩).Same (quotedOne ⟨0x8000000000000000⟩) := by
  have finite : (quotedOne ⟨0⟩).Finite := finite_quotedOne rfl
  have finite' : (quotedOne ⟨0x8000000000000000⟩).Finite := finite_quotedOne rfl
  have text : (quotedOne ⟨0⟩).render .json = (quotedOne ⟨0x8000000000000000⟩).render .json := by
    decide +kernel
  exact ⟨finite, finite', text, same_of_render_json finite finite' text⟩

/-- A NaN has the text of NULL. -/
example : (ofRows [[("a", .number ⟨0x7FF8000000000000⟩)]]).render .json =
    (ofRows [[("a", .null)]]).render .json := by
  decide +kernel

end QueryResult
end PocketSql
