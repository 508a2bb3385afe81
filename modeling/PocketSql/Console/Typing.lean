import PocketSql.Text.Clusters

/-!
# Typing

A line of a dialogue comes as it was typed, with the backspaces. A backspace erases the cluster
before it; where nothing is left, it does nothing. How many bytes a cluster has is noted in one byte
of its own, so that of a cluster of 256 bytes or more only an end is erased. Erasing a part of a
character spoils the line.
-/

namespace PocketSql

/-- A line while it is being typed. -/
structure Typing where
  /-- The characters, last one first. -/
  characters : List Char
  /-- The noted sizes of the clusters that can still be erased, last one first. -/
  sizes : List UInt8
  deriving DecidableEq, Repr

namespace Typing

def empty : Typing := ⟨[], []⟩

def backspace : Char := '\x08'

/-- The number of bytes in a text. -/
def byteSize : List Char → Nat
  | [] => 0
  | c :: s => c.utf8Size + byteSize s

@[simp] theorem byteSize_nil : byteSize [] = 0 := rfl
@[simp] theorem byteSize_cons (c : Char) (s : List Char) :
    byteSize (c :: s) = c.utf8Size + byteSize s := rfl
@[simp] theorem byteSize_append (s t : List Char) :
    byteSize (s ++ t) = byteSize s + byteSize t := by
  induction s with
  | nil => simp
  | cons c s ih => simp [ih, Nat.add_assoc]

@[simp] theorem byteSize_reverse (s : List Char) : byteSize s.reverse = byteSize s := by
  induction s with
  | nil => rfl
  | cons c s ih => simp [ih, Nat.add_comm]

/-- Erase bytes at the end of a text, which is given last character first. -/
def eraseBytes : Nat → List Char → Option (List Char)
  | 0, s => some s
  | _, [] => none
  | n, c :: s => if c.utf8Size ≤ n then eraseBytes (n - c.utf8Size) s else none

/-- Erasing as many bytes as a text has erases that text. -/
theorem eraseBytes_append (s rest : List Char) :
    eraseBytes (byteSize s) (s ++ rest) = some rest := by
  induction s with
  | nil => simp [eraseBytes]
  | cons c s ih =>
    have hpos := c.utf8Size_pos
    rw [byteSize_cons, List.cons_append, eraseBytes]
    · simp [ih]
    · omega

/-- Erase the last cluster, as far as its noted size goes. -/
def erase (t : Typing) : Option Typing :=
  match t.sizes with
  | [] => some t
  | n :: sizes => (eraseBytes n.toNat t.characters).map fun characters => ⟨characters, sizes⟩

/-- Type a cluster. -/
def add (t : Typing) (cluster : List Char) : Typing :=
  ⟨cluster.reverse ++ t.characters, UInt8.ofNat (byteSize cluster) :: t.sizes⟩

/-- A backspace undoes a cluster of less than 256 bytes. -/
theorem erase_add (t : Typing) {cluster : List Char} (h : byteSize cluster < 256) :
    (t.add cluster).erase = some t := by
  have hsize : (UInt8.ofNat (byteSize cluster)).toNat = byteSize cluster.reverse := by
    simpa using Nat.mod_eq_of_lt h
  simp only [add, erase, hsize, eraseBytes_append]
  rfl

/-- Type a cluster or a backspace. -/
def type (t : Typing) (cluster : List Char) : Option Typing :=
  if cluster = [backspace] then t.erase else some (t.add cluster)

/-- The line that is left of typed characters. -/
def line? (typed : String) : Option String :=
  ((Text.clusters typed.toList).foldlM type empty).map fun t => String.ofList t.characters.reverse

theorem characters_foldlM_type {clusters : List (List Char)} (h : [backspace] ∉ clusters)
    (t : Typing) :
    (clusters.foldlM type t).map characters = some (clusters.flatten.reverse ++ t.characters) := by
  induction clusters generalizing t with
  | nil => simp
  | cons cluster rest ih =>
    have hne : cluster ≠ [backspace] := fun e => h (by simp [e])
    have hrest : [backspace] ∉ rest := fun m => h (by simp [m])
    simp [List.foldlM_cons, type, hne, ih hrest, add]

/-- A line without backspaces is what was typed. -/
theorem line?_of_not_mem {typed : String} (h : backspace ∉ typed.toList) :
    line? typed = some typed := by
  have hc : [backspace] ∉ Text.clusters typed.toList := fun m =>
    h (by rw [← Text.flatten_clusters typed.toList]; exact List.mem_flatten.2 ⟨_, m, by simp⟩)
  obtain ⟨t, ht, hchars⟩ := Option.map_eq_some_iff.1 (characters_foldlM_type hc empty)
  rw [line?, ht]
  simp [hchars, empty]

end Typing
end PocketSql
