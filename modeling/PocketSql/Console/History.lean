import PocketSql.Text.Blank
import PocketSql.Text.Casing
import PocketSql.Text.Lines

/-!
# History

The queries of a console, newest last. A history holds a limited number of them and gives up the
oldest first. Entries are numbered from 1 on, and no number is given twice. A stored history has a
line for each query.
-/

namespace PocketSql

/-- A query that was entered, and whether it succeeded. -/
structure HistoryEntry where
  id : Nat
  query : String
  success : Bool
  deriving DecidableEq, Repr

/-- At most `capacity` entries, oldest first. -/
structure History where
  capacity : Nat
  entries : List HistoryEntry
  nextId : Nat
  deriving DecidableEq, Repr

namespace History

/-- The number of entries that a history holds unless another one is asked for. -/
def defaultCapacity : Nat := 500

/-- A history without entries. It can hold at least one. -/
def ofCapacity (capacity : Nat) : History := ⟨max capacity 1, [], 1⟩

/-- Record a query under the next number. A full history gives up its oldest entry. -/
def push (h : History) (query : String) (success : Bool) : History :=
  let kept := if h.entries.length = h.capacity then h.entries.tail else h.entries
  { h with entries := kept ++ [⟨h.nextId, query, success⟩], nextId := h.nextId + 1 }

/-- The newest `n` entries, oldest first. -/
def recent (h : History) (n : Nat) : List HistoryEntry := h.entries.drop (h.entries.length - n)

/-- The newest entry. -/
def last? (h : History) : Option HistoryEntry := h.entries.getLast?

/-- Forget the entries, but not the numbers they had. -/
def clear (h : History) : History := { h with entries := [] }

/-- The entries in which a text occurs, in any letter case. -/
def search (h : History) (text : String) : List HistoryEntry :=
  let needle := Text.lowerCase text.toList
  h.entries.filter fun e => Text.contains needle (Text.lowerCase e.query.toList)

/-- The queries of a stored history: its lines, trimmed, without the blank ones. -/
def storedQueries (stored : String) : List String :=
  ((Text.lines stored).map Text.trim).filter fun line => !line.isEmpty

/-- Record the queries of a stored history, as successful ones. -/
def load (h : History) (stored : String) : History :=
  (storedQueries stored).foldl (fun h query => h.push query true) h

/-- A query on one line: its line breaks become spaces. -/
def oneLine (query : String) : String :=
  String.ofList (query.toList.map fun c => if c = '\r' || c = '\n' then ' ' else c)

/-- The history as it is stored. -/
def stored (h : History) : String := String.join (h.entries.map fun e => oneLine e.query ++ "\n")

@[simp] theorem entries_ofCapacity (n : Nat) : (ofCapacity n).entries = [] := rfl
@[simp] theorem entries_clear (h : History) : h.clear.entries = [] := rfl
@[simp] theorem capacity_push (h : History) (q : String) (s : Bool) :
    (h.push q s).capacity = h.capacity := rfl
@[simp] theorem nextId_push (h : History) (q : String) (s : Bool) :
    (h.push q s).nextId = h.nextId + 1 := rfl

/-- A history that is not over its capacity stays so. -/
theorem length_push_le {h : History} (hc : 0 < h.capacity) (hl : h.entries.length ≤ h.capacity)
    (q : String) (s : Bool) : (h.push q s).entries.length ≤ h.capacity := by
  simp only [push]
  split <;> simp <;> omega

end History
end PocketSql
