import PocketSql.Number.Shortest

/-!
# Values

A cell holds NULL, a truth value, a number or a string. Values are compared by kind and content;
only numbers have an order.
-/

namespace PocketSql

/-- The three types a column can have. -/
inductive DataType where
  | string
  | number
  | boolean
  deriving DecidableEq, Repr

/-- The name under which a type is reported. -/
def DataType.name : DataType → String
  | .string => "string"
  | .number => "number"
  | .boolean => "boolean"

/-- The content of a cell. -/
inductive Value where
  | null
  | boolean (b : Bool)
  | number (x : Number)
  | string (s : String)
  deriving DecidableEq, Repr, Inhabited

namespace Value

def isNull : Value → Bool
  | null => true
  | _ => false

/-- The number that a value is. -/
def number? : Value → Option Number
  | number x => some x
  | _ => none

/-- The type of a value; NULL has none. -/
def dataType? : Value → Option DataType
  | null => none
  | boolean _ => some .boolean
  | number _ => some .number
  | string _ => some .string

/-- The name of a value's type. -/
def typeName (v : Value) : String :=
  match v.dataType? with
  | some t => t.name
  | none => "null"

/-- Equality of kind and content. The two zeros are equal, and a NaN equals itself. -/
def same : Value → Value → Bool
  | null, null => true
  | boolean a, boolean b => a = b
  | number x, number y => x.same y
  | string s, string t => s = t
  | _, _ => false

/-- The order of two numbers; other values are not comparable. -/
def compare? (v w : Value) : Option Ordering :=
  match v, w with
  | number x, number y => x.compare? y
  | _, _ => none

/-- The text of a value. Whole numbers below `10 ^ 15` are written as integers. -/
def display : Value → String
  | null => "NULL"
  | boolean b => if b then "true" else "false"
  | number x =>
    match x.whole? with
    | some n => toString n
    | none => x.text
  | string s => s

@[simp] theorem same_self (v : Value) : v.same v = true := by
  cases v <;> simp [same]

theorem same_comm (v w : Value) : v.same w = w.same v := by
  cases v <;> cases w <;> simp [same, Number.same_comm, eq_comm]

theorem same_trans {u v w : Value} (huv : u.same v = true) (hvw : v.same w = true) :
    u.same w = true := by
  cases u <;> cases v <;> cases w <;> simp_all [same]
  exact Number.same_trans huv hvw

theorem isNull_eq_of_same {v w : Value} (h : v.same w = true) : v.isNull = w.isNull := by
  cases v <;> cases w <;> simp_all [same, isNull]

end Value
end PocketSql
