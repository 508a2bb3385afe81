import Mathlib.Data.List.DropRight
import PocketSql.Console.Session

/-!
# Histories as windows

A history shows the end of a log that is never shortened: the log of all queries that were ever
recorded, numbered from 1 on. Recording and loading prolong the log, clearing closes the window, and
the capacity is all that bounds it.

## Main definitions

* `Op` — what is done to a history, and which queries it records.
* `numbered` — the entries of a log.
* `Shows` — a history that shows the end of a log.
* `Continues` — a history that gives no number again.

## Main results

* `Shows.after` — what is done to a history prolongs the log.
* `window_afterAll` — the entries after any operations, by what was recorded.
-/

namespace PocketSql
namespace History

/-- What is done to a history. -/
inductive Op where
  | push (query : String) (success : Bool)
  /-- Load a file, as the files are at that time. -/
  | load (files : String → Except FileError String) (path : String)
  | clear

namespace Op

/-- The queries that are recorded, with their flags. -/
def recorded : Op → List (String × Bool)
  | push query success => [(query, success)]
  | load files path =>
    match files path with
    | .ok stored => (storedQueries stored).map (·, true)
    | .error _ => []
  | clear => []

def isClear : Op → Bool
  | clear => true
  | _ => false

end Op

/-- The history after something is done to it. A file that cannot be read leaves it as it is. -/
def after (h : History) : Op → History
  | .push query success => h.push query success
  | .load files path =>
    match h.loadFile files path with
    | .ok (_, loaded) => loaded
    | .error _ => h
  | .clear => h.clear

/-- The history after all that is done to it. -/
def afterAll (h : History) (ops : List Op) : History := ops.foldl after h

/-- All queries that are recorded. -/
def recordedBy (ops : List Op) : List (String × Bool) := ops.flatMap Op.recorded

/-- What is done after the last clearing. -/
def sinceClear (ops : List Op) : List Op := ops.rtakeWhile (!·.isClear)

/-- The entries of queries that are numbered from 1 on. -/
def numbered (queries : List (String × Bool)) : List HistoryEntry :=
  queries.mapIdx fun i query => ⟨i + 1, query.1, query.2⟩

/-! ## Numbers -/

section
variable (queries : List (String × Bool))

@[simp] theorem length_numbered : (numbered queries).length = queries.length := by simp [numbered]

theorem numbered_concat (query : String) (success : Bool) :
    numbered (queries ++ [(query, success)]) =
      numbered queries ++ [⟨queries.length + 1, query, success⟩] := by
  simp [numbered, List.mapIdx_append]

theorem map_numbered : (numbered queries).map (fun e => (e.query, e.success)) = queries := by
  apply List.ext_getElem
  · simp
  · intro i _ _
    simp [numbered]

theorem ids_numbered : (numbered queries).map (·.id) = List.range' 1 queries.length := by
  apply List.ext_getElem
  · simp
  · intro i _ _
    simp [numbered, Nat.add_comm]

/-- The number of an entry tells the query. -/
theorem getElem?_of_mem_numbered {e : HistoryEntry} (he : e ∈ numbered queries) :
    0 < e.id ∧ queries[e.id - 1]? = some (e.query, e.success) := by
  obtain ⟨i, hi, rfl⟩ := List.mem_mapIdx.1 he
  simp [hi]

end

/-! ## The end of a log -/

/-- A history that shows the end of all queries, as far back as `recent` goes. -/
structure Shows (h : History) (all recent : List (String × Bool)) : Prop where
  entries : h.entries = (numbered all).rtake (min h.capacity recent.length)
  nextId : h.nextId = all.length + 1
  recent_suffix : recent <:+ all
  capacity_pos : 0 < h.capacity

theorem shows_ofCapacity (capacity : Nat) : (ofCapacity capacity).Shows [] [] where
  entries := by simp [numbered]
  nextId := rfl
  recent_suffix := List.suffix_refl _
  capacity_pos := Nat.le_max_right _ _

namespace Shows

variable {h : History} {all recent : List (String × Bool)} (shows : h.Shows all recent)
include shows

theorem length_entries : h.entries.length = min h.capacity recent.length := by
  have := shows.recent_suffix.length_le
  rw [shows.entries, List.rtake, List.length_drop, length_numbered]
  omega

theorem size_le : min h.capacity recent.length ≤ all.length :=
  Nat.le_trans (Nat.min_le_right _ _) shows.recent_suffix.length_le

theorem map_entries :
    h.entries.map (fun e => (e.query, e.success)) =
      recent.rtake (min h.capacity recent.length) := by
  obtain ⟨front, whole⟩ := shows.recent_suffix
  have fits : min h.capacity recent.length ≤ recent.length := Nat.min_le_right _ _
  rw [shows.entries, List.rtake, List.map_drop, map_numbered, length_numbered, ← whole, List.rtake,
    List.length_append, Nat.add_sub_assoc fits, List.drop_length_add_append]

theorem ids :
    h.entries.map (·.id) =
      List.range' (all.length - min h.capacity recent.length + 1)
        (min h.capacity recent.length) := by
  rw [shows.entries, List.rtake, List.map_drop, ids_numbered, length_numbered, List.drop_range',
    Nat.sub_sub_self shows.size_le, Nat.mul_one, Nat.add_comm]

theorem getElem?_of_mem {e : HistoryEntry} (he : e ∈ h.entries) :
    0 < e.id ∧ all[e.id - 1]? = some (e.query, e.success) := by
  rw [shows.entries] at he
  exact getElem?_of_mem_numbered _ (List.mem_of_mem_drop he)

theorem id_le {e : HistoryEntry} (he : e ∈ h.entries) : e.id ≤ all.length := by
  have mem : e.id ∈ h.entries.map (·.id) := List.mem_map_of_mem he
  have := shows.size_le
  rw [shows.ids, List.mem_range'_1] at mem
  omega

/-- The newest entry has the number of all queries. -/
theorem id_last {e : HistoryEntry} (he : e ∈ h.last?) : e.id = all.length := by
  have last : e.id ∈ (h.entries.map (·.id)).getLast? := by
    rw [List.getLast?_map]
    exact Option.mem_map_of_mem _ he
  rw [shows.ids, List.getLast?_range'] at last
  split at last
  · cases last
  · have := Option.some.inj last
    have := shows.size_le
    omega

theorem push (query : String) (success : Bool) :
    (h.push query success).Shows (all ++ [(query, success)]) (recent ++ [(query, success)]) where
  entries := by
    have length := shows.length_entries
    have pos := shows.capacity_pos
    obtain ⟨size, kept, more⟩ :
        ∃ size, (if h.entries.length = h.capacity then h.entries.tail else h.entries) =
            (numbered all).rtake size ∧
          min h.capacity (recent.length + 1) = size + 1 := by
      split
      · next full =>
        -- a full history gives up its oldest entry
        refine ⟨h.capacity - 1, ?_, by omega⟩
        have back := shows.recent_suffix.length_le
        rw [shows.entries, List.rtake, List.rtake, List.tail_drop, length_numbered]
        congr 1
        omega
      · refine ⟨recent.length, ?_, by omega⟩
        rw [shows.entries]
        congr 1
        omega
    rw [capacity_push, List.length_append, List.length_singleton, more, numbered_concat,
      List.rtake_concat_succ, ← kept, ← shows.nextId]
    rfl
  nextId := by simp [shows.nextId]
  recent_suffix := by
    obtain ⟨front, hfront⟩ := shows.recent_suffix
    exact ⟨front, by rw [← List.append_assoc, hfront]⟩
  capacity_pos := shows.capacity_pos

theorem pushAll (queries : List String) :
    (queries.foldl (fun h query => h.push query true) h).Shows
      (all ++ queries.map (·, true)) (recent ++ queries.map (·, true)) := by
  induction queries generalizing h all recent with
  | nil => simpa using shows
  | cons query queries ih => simpa using ih (shows.push query true)

theorem clear : h.clear.Shows all [] where
  entries := by simp [List.rtake]
  nextId := shows.nextId
  recent_suffix := List.nil_suffix
  capacity_pos := shows.capacity_pos

/-- What is done to a history prolongs the log by what it records. -/
theorem after (op : Op) :
    (h.after op).Shows (all ++ op.recorded)
      (if op.isClear then [] else recent ++ op.recorded) := by
  cases op with
  | push query success => exact shows.push query success
  | clear => simpa [History.after, Op.recorded, Op.isClear] using shows.clear
  | load files path =>
    simp only [History.after, loadFile, Op.recorded, Op.isClear]
    cases files path with
    | ok stored => exact shows.pushAll (storedQueries stored)
    | error e => cases e <;> simpa using shows

end Shows

theorem recordedBy_concat (ops : List Op) (op : Op) :
    recordedBy (ops ++ [op]) = recordedBy ops ++ op.recorded := by
  simp [recordedBy]

theorem recordedBy_sinceClear_concat (ops : List Op) (op : Op) :
    recordedBy (sinceClear (ops ++ [op])) =
      if op.isClear then [] else recordedBy (sinceClear ops) ++ op.recorded := by
  cases clears : op.isClear <;> simp [sinceClear, clears, recordedBy]

/-- A new history shows the queries since the last clearing. -/
theorem shows_afterAll (capacity : Nat) (ops : List Op) :
    ((ofCapacity capacity).afterAll ops).Shows (recordedBy ops) (recordedBy (sinceClear ops)) := by
  induction ops using List.reverseRecOn with
  | nil => exact shows_ofCapacity capacity
  | append_singleton ops op ih =>
    rw [afterAll, List.foldl_concat, recordedBy_concat, recordedBy_sinceClear_concat]
    exact ih.after op

/-! ## Numbers that were given -/

/-- A history that comes after another one: what it did not keep has new numbers. -/
structure Continues (h before : History) : Prop where
  capacity_eq : h.capacity = before.capacity
  nextId_le : before.nextId ≤ h.nextId
  new : ∀ e ∈ h.entries, e ∈ before.entries ∨ before.nextId ≤ e.id

namespace Continues

variable {h before : History}

theorem refl (h : History) : h.Continues h := ⟨rfl, Nat.le_refl _, fun _ he => .inl he⟩

theorem trans {first : History} (hb : h.Continues before) (bf : before.Continues first) :
    h.Continues first where
  capacity_eq := hb.capacity_eq.trans bf.capacity_eq
  nextId_le := Nat.le_trans bf.nextId_le hb.nextId_le
  new e he := by
    obtain old | new := hb.new e he
    · exact bf.new e old
    · exact .inr (Nat.le_trans bf.nextId_le new)

theorem push (h : History) (query : String) (success : Bool) :
    (h.push query success).Continues h where
  capacity_eq := rfl
  nextId_le := Nat.le_succ _
  new e he := by
    obtain old | new := List.mem_append.1 he
    · refine .inl ?_
      split at old
      · exact List.mem_of_mem_tail old
      · exact old
    · rw [List.mem_singleton.1 new]
      exact .inr (Nat.le_refl _)

theorem pushAll (h : History) (queries : List String) :
    (queries.foldl (fun h query => h.push query true) h).Continues h := by
  induction queries generalizing h with
  | nil => exact refl h
  | cons query queries ih => exact (ih _).trans (push h query true)

theorem after (h : History) (op : Op) : (h.after op).Continues h := by
  cases op with
  | push query success => exact push h query success
  | clear => exact ⟨rfl, Nat.le_refl _, fun _ he => nomatch he⟩
  | load files path =>
    simp only [History.after, loadFile]
    cases files path with
    | ok stored => exact pushAll h (storedQueries stored)
    | error e => cases e <;> exact refl h

theorem afterAll (h : History) (ops : List Op) : (h.afterAll ops).Continues h := by
  induction ops generalizing h with
  | nil => exact refl h
  | cons op ops ih => exact (ih _).trans (after h op)

end Continues

/-- **A history is a window.** After any operations the entries are the last queries that were
recorded since the last clearing, as many as the capacity allows, with their own flags. Each has
its number among all queries that were ever recorded, so that numbers follow one another up to the
newest one. No number is given again, whatever is done later. -/
theorem window_afterAll (capacity : Nat) (ops : List Op) :
    let h := (ofCapacity capacity).afterAll ops
    let all := recordedBy ops
    let recent := recordedBy (sinceClear ops)
    let size := min (max capacity 1) recent.length
    h.entries.map (fun e => (e.query, e.success)) = recent.rtake size ∧
      h.entries.map (·.id) = List.range' (all.length - size + 1) size ∧
      (∀ e ∈ h.entries, 0 < e.id ∧ all[e.id - 1]? = some (e.query, e.success)) ∧
      (∀ e ∈ h.last?, e.id = all.length ∧ ∀ other ∈ h.entries, other.id ≤ e.id) ∧
      h.nextId = all.length + 1 ∧
      (∀ more, ∀ e ∈ (h.afterAll more).entries, e ∈ h.entries ∨ all.length < e.id) ∧
      ∀ n, h.recent n = h.entries.rtake (min n h.entries.length) := by
  intro h all recent size
  have shows : h.Shows all recent := shows_afterAll capacity ops
  have capacity_eq : h.capacity = max capacity 1 :=
    (Continues.afterAll (ofCapacity capacity) ops).capacity_eq
  have size_eq : min h.capacity recent.length = size := by rw [capacity_eq]
  refine ⟨size_eq ▸ shows.map_entries, size_eq ▸ shows.ids, fun e => shows.getElem?_of_mem, ?_,
    shows.nextId, ?_, ?_⟩
  · intro e he
    have newest := shows.id_last he
    exact ⟨newest, fun other ho => newest ▸ shows.id_le ho⟩
  · intro more e he
    have new := (Continues.afterAll h more).new e he
    rwa [shows.nextId] at new
  · intro n
    rw [History.recent, List.rtake]
    congr 1
    omega

end History
end PocketSql
