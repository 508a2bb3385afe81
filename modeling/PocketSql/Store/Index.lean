import PocketSql.Value

/-!
# Indexes

An index lists, for each value of a column, the positions of the rows that hold it. NULL is not
indexed, and a value without positions has no entry.
-/

namespace PocketSql
namespace Store

/-- The positions of each value. -/
structure Index where
  entries : List (Value × List Nat)
  deriving DecidableEq, Repr

namespace Index

def empty : Index := ⟨[]⟩

/-- Add a position to the entry of a value, or a new entry at the end. -/
def added (v : Value) (position : Nat) : List (Value × List Nat) → List (Value × List Nat)
  | [] => [(v, [position])]
  | (w, positions) :: rest =>
    if w.same v then
      (w, if position ∈ positions then positions else positions ++ [position]) :: rest
    else (w, positions) :: added v position rest

/-- Remove a position from the entry of a value, and the entry with its last position. -/
def removed (v : Value) (position : Nat) : List (Value × List Nat) → List (Value × List Nat)
  | [] => []
  | (w, positions) :: rest =>
    if w.same v then
      match positions.filter (· ≠ position) with
      | [] => rest
      | left => (w, left) :: rest
    else (w, positions) :: removed v position rest

/-- The positions listed for a value. -/
def found (v : Value) : List (Value × List Nat) → List Nat
  | [] => []
  | (w, positions) :: rest => if w.same v then positions else found v rest

/-- Record that the row at a position holds a value. -/
def add (ix : Index) (v : Value) (position : Nat) : Index :=
  if v.isNull then ix else ⟨added v position ix.entries⟩

/-- Forget that the row at a position holds a value. -/
def remove (ix : Index) (v : Value) (position : Nat) : Index :=
  if v.isNull then ix else ⟨removed v position ix.entries⟩

/-- The positions of the rows that hold a value, in the order in which they were added. -/
def find (ix : Index) (v : Value) : List Nat := found v ix.entries

/-- Whether a value has an entry. -/
def contains (ix : Index) (v : Value) : Bool := ix.entries.any (·.1.same v)

/-- The number of distinct values. -/
def size (ix : Index) : Nat := ix.entries.length

def isEmpty (ix : Index) : Bool := ix.entries.isEmpty

/-- The index of a column's values, given in the order of their positions from `start` on. -/
def ofValues (start : Nat) (ix : Index) : List Value → Index
  | [] => ix
  | v :: rest => ofValues (start + 1) (ix.add v start) rest

@[simp] theorem find_empty (v : Value) : empty.find v = [] := rfl
@[simp] theorem contains_empty (v : Value) : empty.contains v = false := rfl
@[simp] theorem add_null (ix : Index) (p : Nat) : ix.add .null p = ix := rfl
@[simp] theorem remove_null (ix : Index) (p : Nat) : ix.remove .null p = ix := rfl

end Index
end Store
end PocketSql
