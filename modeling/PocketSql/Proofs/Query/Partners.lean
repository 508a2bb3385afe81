import Mathlib.Data.List.ProdSigma
import PocketSql.Proofs.Query.Joining

/-!
# Inner joins and left joins

A left join shows what the inner join of the same rows shows, in the same order, and in between the
left rows that have no partner. So the one is the other without these rows, and both can be counted:
the pairs of rows that agree, and the rows that agree with none.

## Main definitions

* `Store.Table.ofRows` — a table of any rows.

## Main results

* `Source.places_inner` — the places of an inner join among those of the left join.
* `Sql.JoinClause.joined_left_inner` — a left join and the inner join of the same rows.
-/

namespace PocketSql

open Store (Table)
open Sql (JoinClause)

/-- A table of some rows, whatever names they have. -/
def Store.Table.ofRows (name : String) (rows : List Row) : Table := ⟨.ofColumns name [], rows, []⟩

/-- The places of an inner join are those of the left join where a row has a partner. -/
theorem Source.places_inner (L R : Table) (joined a b : String) (p : Row → Bool) :
    (Source.mk L (some (⟨.inner, joined, a, b⟩, R))).places p =
      ((Source.mk L (some (⟨.left, joined, a, b⟩, R))).places p).filter (·.2.isSome) := by
  rw [places, places, List.filter_flatMap]
  apply List.flatMap_congr
  intro i _
  rw [List.filter_map, others_joined, others_joined]
  have agree : JoinClause.agrees ⟨.inner, joined, a, b⟩ = JoinClause.agrees ⟨.left, joined, a, b⟩ :=
    rfl
  rw [agree]
  cases R.positions (JoinClause.agrees ⟨.left, joined, a, b⟩ (L.rowAt i)) with
  | nil => rfl
  | cons j js => simp [List.filter_map, Function.comp_def]

namespace Sql.JoinClause

variable {clause : JoinClause} {table : String} {right : List Row}

theorem joined_cons (l : Row) (left : List Row) :
    clause.joined table (l :: left) right =
      clause.joinedRow table right l ++ clause.joined table left right := List.flatMap_cons

/-- An inner join has a row for each pair of rows that agree. -/
theorem joined_inner (table joined a b : String) (left right : List Row) :
    JoinClause.joined ⟨.inner, joined, a, b⟩ table left right =
      ((left ×ˢ right).filter fun pair => (pair.1.get a).same (pair.2.get b)).map fun pair =>
        Row.together table pair.1 joined pair.2 := by
  induction left with
  | nil => rfl
  | cons l left ih =>
    have first : JoinClause.joinedRow ⟨.inner, joined, a, b⟩ table right l =
        (right.filter fun r => (l.get a).same (r.get b)).map (Row.together table l joined) := by
      rw [joinedRow, partners]
      cases right.filter fun r => (l.get a).same (r.get b) <;> rfl
    rw [joined_cons, ih, first, List.product_cons, List.filter_append, List.map_append,
      List.filter_map, List.map_map]
    rfl

/-- A row is joined with each of its partners, and stands once in a left join if it has none. -/
theorem length_joinedRow (l : Row) :
    (clause.joinedRow table right l).length =
      right.countP (clause.agrees l) +
        if clause.kind = .left ∧ right.all (fun r => !clause.agrees l r) then 1 else 0 := by
  have partners : clause.partners right l = right.filter (clause.agrees l) := rfl
  rw [joinedRow, List.countP_eq_length_filter, partners]
  cases found : right.filter (clause.agrees l) with
  | nil =>
    have alone : right.all (fun r => !clause.agrees l r) = true := by
      simpa [List.filter_eq_nil_iff] using found
    by_cases kind : clause.kind = .left <;> simp [kind, alone]
  | cons r rs =>
    have partner : r ∈ right.filter (clause.agrees l) := by simp [found]
    have agrees := List.mem_filter.1 partner
    have accompanied : ¬ right.all (fun r => !clause.agrees l r) = true := by
      intro alone
      have apart := List.all_eq_true.1 alone r agrees.1
      rw [agrees.2] at apart
      cases apart
    simp [accompanied]

/-- How many rows a join has: one for each pair of rows that agree, and in a left join one for each
row that agrees with none. -/
theorem length_joined (clause : JoinClause) (table : String) (left right : List Row) :
    (clause.joined table left right).length =
      (left ×ˢ right).countP (fun pair => clause.agrees pair.1 pair.2) +
        if clause.kind = .left then left.countP (fun l => right.all fun r => !clause.agrees l r)
        else 0 := by
  induction left with
  | nil => simp [joined]
  | cons l left ih =>
    have first : (right.map (Prod.mk l)).countP (fun pair => clause.agrees pair.1 pair.2) =
        right.countP (clause.agrees l) := List.countP_map
    rw [joined_cons, List.length_append, length_joinedRow, ih, List.product_cons,
      List.countP_append, first, List.countP_cons]
    by_cases kind : clause.kind = .left
    · simp only [kind, true_and, if_true]
      omega
    · simp only [kind, false_and, if_false]
      omega

/-- **A left join and the inner join of the same rows.** The left join shows rows at places in
order: by the left rows, and by the right rows where the left one is the same. A row stands there
with each right row that agrees with it, and alone if there is none. Without the rows that stand
alone it is the inner join, which has a row for each pair that agrees; the left join has as many
more as there are rows without a partner. -/
theorem joined_left_inner (table joined a b : String) (left right : List Row) :
    let inner : JoinClause := ⟨.inner, joined, a, b⟩
    let outer : JoinClause := ⟨.left, joined, a, b⟩
    let shown := Source.joinedAt (.ofRows table left) (.ofRows joined right)
    let agree := fun l r : Row => (l.get a).same (r.get b)
    (∃ places : List Place,
      outer.joined table left right = places.map shown ∧
      inner.joined table left right = (places.filter (·.2.isSome)).map shown ∧
      places.Pairwise Precedes ∧
      (∀ i j, (i, some j) ∈ places ↔
        ∃ l r, left[i]? = some l ∧ right[j]? = some r ∧ agree l r = true) ∧
      ∀ i, (i, none) ∈ places ↔ ∃ l, left[i]? = some l ∧ ∀ r ∈ right, agree l r = false) ∧
    (inner.joined table left right).length =
      (left ×ˢ right).countP (fun pair => agree pair.1 pair.2) ∧
    (outer.joined table left right).length =
      (inner.joined table left right).length +
        left.countP fun l => right.all fun r => !agree l r := by
  intro inner outer shown agree
  let L : Table := .ofRows table left
  let R : Table := .ofRows joined right
  have length_eq (kind : JoinKind) := length_joined ⟨kind, joined, a, b⟩ table left right
  have joined_eq (kind : JoinKind) : JoinClause.joined ⟨kind, joined, a, b⟩ table left right =
      ((Source.mk L (some (⟨kind, joined, a, b⟩, R))).places fun _ => true).map shown := by
    rw [← Source.joined_eq_map (L := L) (R := R) rfl, List.filter_true]
    rfl
  refine ⟨⟨(Source.mk L (some (outer, R))).places fun _ => true, joined_eq .left, ?_,
    Source.pairwise_places _ _, ?_, ?_⟩, length_eq .inner, ?_⟩
  · rw [← Source.places_inner]
    exact joined_eq .inner
  · intro i j
    rw [Source.mem_places]
    simp only [true_and]
    constructor
    · rintro ⟨l, hl, r, hr, agreed⟩
      exact ⟨l, r, hl, hr, agreed⟩
    · rintro ⟨l, r, hl, hr, agreed⟩
      exact ⟨l, hl, r, hr, agreed⟩
  · intro i
    rw [Source.mem_places]
    simp only [true_and]
    constructor
    · rintro ⟨l, hl, -, apart⟩
      exact ⟨l, hl, apart⟩
    · rintro ⟨l, hl, apart⟩
      exact ⟨l, hl, rfl, apart⟩
  · rw [length_eq .inner]
    exact length_eq .left

/-- A column that is missing reads as NULL, which agrees with NULL. -/
example :
    let left : List Row := [[("boss", .string "a")], [("boss", .null)]]
    let right : List Row := [[("id", .null)], [], [("id", .string "b")]]
    joined ⟨.left, "notes", "boss", "id"⟩ "people" left right =
      [[("people.boss", .string "a")], [("people.boss", .null), ("notes.id", .null)],
        [("people.boss", .null)]] := by
  decide

end Sql.JoinClause
end PocketSql
