import Mathlib.Data.Set.Card
import PocketSql.Proofs.Sql.Printing
import PocketSql.Proofs.Store.Entries

/-!
# Indexes as multimaps

An index keeps no history, and yet it answers as the log of all that was ever done to it says: a
position is listed for a value just if the last operation that touches the two is an addition, and
positions stand in the order in which they were added anew. Adding a position that is listed and
removing one that is not change nothing, so that the time of an entry is that of the last operation
that changed it.

## Main definitions

* `Op` — what is done to an index, and which values and positions it touches.
* `stands` — the last operation that touches a value and a position is an addition.
* `Entered` — when a position was added anew, for the last time.
* `Answers` — an index that answers as a log says.

## Main results

* `Answers.after` — what is done to an index prolongs the log.
* `multimap_afterAll` — what an index answers after any operations.
-/

namespace PocketSql

theorem Number.same_iff (x y : Number) :
    x.same y = true ↔ x = y ∨ x.magnitude = 0 ∧ y.magnitude = 0 := by
  have zero : Number.zero.magnitude = 0 := rfl
  simp only [same, folded]
  split <;> split <;> grind

/-- Values are equal if they are identical or two zeros. -/
theorem Value.same_iff (v w : Value) :
    v.same w = true ↔
      v = w ∨ ∃ x y, v = .number x ∧ w = .number y ∧ x.magnitude = 0 ∧ y.magnitude = 0 := by
  cases v <;> cases w <;> simp [same, Number.same_iff]

namespace Store
namespace Index

/-- What is done to an index. -/
inductive Op where
  | add (v : Value) (position : Nat)
  | remove (v : Value) (position : Nat)
  | clear
  deriving DecidableEq, Repr

namespace Op

/-- Whether an operation is about a position of a value. Nothing is about the positions of NULL but
a clearing, which is about all positions. -/
def touches (v : Value) (p : Nat) : Op → Bool
  | add w q | remove w q => !w.isNull && w.same v && q = p
  | clear => true

def isAdd : Op → Bool
  | add _ _ => true
  | _ => false

end Op

/-- The index after something is done to it. -/
def after (ix : Index) : Op → Index
  | .add v p => ix.add v p
  | .remove v p => ix.remove v p
  | .clear => empty

/-- The index after all that is done to it. -/
def afterAll (ix : Index) (ops : List Op) : Index := ops.foldl after ix

/-! ## What a log says -/

/-- The last operation that touches a position of a value is an addition. -/
def stands (ops : List Op) (v : Value) (p : Nat) : Bool :=
  (ops.filter (Op.touches v p)).getLast?.any Op.isAdd

/-- The operation with number `i` adds a position of a value that does not stand before, and from
then on it stands. -/
structure Entered (ops : List Op) (v : Value) (p i : Nat) : Prop where
  adds : ∃ op, ops[i]? = some op ∧ op.touches v p = true ∧ op.isAdd = true
  new : stands (ops.take i) v p = false
  kept : ∀ op ∈ ops.drop (i + 1), op.touches v p = true → op.isAdd = true

/-- One position of a value was entered before another one. -/
def Earlier (ops : List Op) (v : Value) (p q : Nat) : Prop :=
  ∃ i j, i < j ∧ Entered ops v p i ∧ Entered ops v q j

section
variable {ops : List Op} {op : Op} {v : Value} {p q i j : Nat}

@[simp] theorem stands_nil (v : Value) (p : Nat) : stands [] v p = false := rfl

theorem stands_concat (ops : List Op) (op : Op) (v : Value) (p : Nat) :
    stands (ops ++ [op]) v p = if op.touches v p then op.isAdd else stands ops v p := by
  cases touched : op.touches v p <;> simp [stands, touched]

theorem Entered.lt (h : Entered ops v p i) : i < ops.length := by
  obtain ⟨op, hop, -⟩ := h.adds
  exact (List.getElem?_eq_some_iff.1 hop).1

/-- What was entered stays so as long as nothing but additions touch it. -/
theorem Entered.concat (h : Entered ops v p i) (keeps : op.touches v p = true → op.isAdd = true) :
    Entered (ops ++ [op]) v p i where
  adds := by
    rw [List.getElem?_append_left h.lt]
    exact h.adds
  new := by
    rw [List.take_append_of_le_length h.lt.le]
    exact h.new
  kept := by
    rw [List.drop_append_of_le_length h.lt]
    intro u hu
    obtain hu | hu := List.mem_append.1 hu
    · exact h.kept u hu
    · rwa [List.mem_singleton.1 hu]

/-- An addition enters what does not stand before. -/
theorem entered_concat_length (touched : op.touches v p = true) (adds : op.isAdd = true)
    (new : stands ops v p = false) : Entered (ops ++ [op]) v p ops.length where
  adds := ⟨op, by simp, touched, adds⟩
  new := by rwa [List.take_left]
  kept := by simp

/-- What the last operation leaves entered was entered before or is entered by it. -/
theorem Entered.of_concat (h : Entered (ops ++ [op]) v p i) :
    (Entered ops v p i ∧ (op.touches v p = true → op.isAdd = true)) ∨
      i = ops.length ∧ stands ops v p = false := by
  have bound := h.lt
  rw [List.length_append, List.length_singleton] at bound
  obtain before | rfl := Nat.lt_or_eq_of_le (Nat.le_of_lt_succ bound)
  · have adds := h.adds
    have new := h.new
    have kept := h.kept
    rw [List.getElem?_append_left before] at adds
    rw [List.take_append_of_le_length before.le] at new
    rw [List.drop_append_of_le_length before] at kept
    exact .inl ⟨⟨adds, new, fun u hu => kept u (List.mem_append_left _ hu)⟩,
      kept op (by simp)⟩
  · have new := h.new
    rw [List.take_left] at new
    exact .inr ⟨rfl, new⟩

/-- A position stands just if it was entered at some time. -/
theorem stands_iff_exists_entered (ops : List Op) (v : Value) (p : Nat) :
    stands ops v p = true ↔ ∃ i, Entered ops v p i := by
  induction ops using List.reverseRecOn with
  | nil =>
    refine iff_of_false (by simp) ?_
    rintro ⟨i, h⟩
    exact absurd h.lt (Nat.not_lt_zero i)
  | append_singleton ops op ih =>
    rw [stands_concat]
    constructor
    · intro h
      cases before : stands ops v p with
      | true =>
        obtain ⟨i, entered⟩ := ih.1 before
        refine ⟨i, entered.concat fun touched => ?_⟩
        rwa [if_pos touched] at h
      | false =>
        rw [before] at h
        split at h
        · next touched => exact ⟨_, entered_concat_length touched h before⟩
        · cases h
    · rintro ⟨i, h⟩
      obtain ⟨entered, keeps⟩ | ⟨rfl, -⟩ := h.of_concat
      · split
        · next touched => exact keeps touched
        · exact ih.2 ⟨i, entered⟩
      · obtain ⟨last, hlast, touched, adds⟩ := h.adds
        obtain rfl : op = last := by simpa using hlast
        rwa [if_pos touched]

theorem Entered.unique (h : Entered ops v p i) (h' : Entered ops v p j) : i = j := by
  induction ops using List.reverseRecOn with
  | nil => exact absurd h.lt (Nat.not_lt_zero i)
  | append_singleton ops op ih =>
    -- what was entered before stands, so the last operation does not enter it
    have apart {k : Nat} (entered : Entered ops v p k) : stands ops v p ≠ false := by
      rw [(stands_iff_exists_entered ops v p).2 ⟨k, entered⟩]
      simp
    obtain ⟨old, -⟩ | ⟨rfl, new⟩ := h.of_concat
    · obtain ⟨old', -⟩ | ⟨-, new'⟩ := h'.of_concat
      · exact ih old old'
      · exact absurd new' (apart old)
    · obtain ⟨old', -⟩ | ⟨rfl, -⟩ := h'.of_concat
      · exact absurd new (apart old')
      · rfl

theorem Earlier.concat (h : Earlier ops v p q) (hp : op.touches v p = true → op.isAdd = true)
    (hq : op.touches v q = true → op.isAdd = true) : Earlier (ops ++ [op]) v p q := by
  obtain ⟨i, j, before, entered, entered'⟩ := h
  exact ⟨i, j, before, entered.concat hp, entered'.concat hq⟩

end

/-! ## Answers by the log -/

/-- An index that lists the positions that stand, in the order in which they were entered. -/
structure Answers (ix : Index) (ops : List Op) : Prop where
  wellFormed : ix.WellFormed
  mem_iff : ∀ v p, p ∈ ix.find v ↔ stands ops v p = true
  ordered : ∀ v, (ix.find v).Pairwise (Earlier ops v)

theorem answers_empty : empty.Answers [] :=
  ⟨wellFormed_empty, by simp, fun _ => List.Pairwise.nil⟩

theorem answers_clear (ops : List Op) : empty.Answers (ops ++ [.clear]) where
  wellFormed := wellFormed_empty
  mem_iff v p := by simp [stands_concat, Op.touches, Op.isAdd]
  ordered v := List.Pairwise.nil

namespace Answers

variable {ix : Index} {ops : List Op} (h : ix.Answers ops)
include h

theorem add (w : Value) (q : Nat) : (ix.add w q).Answers (ops ++ [.add w q]) where
  wellFormed := h.wellFormed.add w q
  mem_iff v p := by
    rw [mem_find_add, h.mem_iff, stands_concat]
    cases touched : (Op.add w q).touches v p <;>
      simp_all [Op.touches, Op.isAdd, eq_comm (a := p)]
  ordered v := by
    have old : (ix.find v).Pairwise (Earlier (ops ++ [.add w q]) v) :=
      (h.ordered v).imp fun earlier => earlier.concat (fun _ => rfl) fun _ => rfl
    rw [find_add]
    split
    · next new =>
      obtain ⟨null, same, new⟩ := new
      refine List.pairwise_append.2 ⟨old, List.pairwise_singleton _ _, fun p hp r hr => ?_⟩
      rw [List.mem_singleton.1 hr]
      obtain ⟨i, entered⟩ := (stands_iff_exists_entered ops v p).1 ((h.mem_iff v p).1 hp)
      rw [h.mem_iff, Bool.not_eq_true] at new
      exact ⟨i, _, entered.lt, entered.concat fun _ => rfl,
        entered_concat_length (by simp [Op.touches, null, same]) rfl new⟩
    · exact old

theorem remove (w : Value) (q : Nat) : (ix.remove w q).Answers (ops ++ [.remove w q]) where
  wellFormed := h.wellFormed.remove w q
  mem_iff v p := by
    rw [mem_find_remove h.wellFormed, h.mem_iff, stands_concat]
    cases touched : (Op.remove w q).touches v p <;>
      simp_all [Op.touches, Op.isAdd, eq_comm (a := p)]
  ordered v := by
    -- what is still listed is not touched
    have apart {p : Nat} (hp : p ∈ (ix.remove w q).find v) :
        (Op.remove w q).touches v p = true → (Op.remove w q).isAdd = true := by
      have untouched := ((mem_find_remove h.wellFormed).1 hp).2
      intro touched
      simp only [Op.touches, Bool.and_eq_true, Bool.not_eq_true', decide_eq_true_eq] at touched
      exact absurd ⟨touched.1.1, touched.1.2, touched.2.symm⟩ untouched
    have listed : ((ix.remove w q).find v).Sublist (ix.find v) := by
      rw [find_remove h.wellFormed]
      split
      · exact List.filter_sublist
      · exact List.Sublist.refl _
    exact ((h.ordered v).sublist listed).imp_of_mem fun hp hp' earlier =>
      earlier.concat (apart hp) (apart hp')

/-- What is done to an index prolongs the log. -/
theorem after (op : Op) : (ix.after op).Answers (ops ++ [op]) := by
  cases op with
  | add w q => exact h.add w q
  | remove w q => exact h.remove w q
  | clear => exact answers_clear ops

end Answers

theorem answers_afterAll (ops : List Op) : (empty.afterAll ops).Answers ops := by
  induction ops using List.reverseRecOn with
  | nil => exact answers_empty
  | append_singleton ops op ih =>
    rw [afterAll, List.foldl_concat]
    exact ih.after op

/-- A well-formed index has as many entries as there are values with positions. -/
theorem WellFormed.encard_eq_size {ix : Index} (h : ix.WellFormed) :
    (Value.folded '' {v | ix.find v ≠ []}).encard = ix.size := by
  have values : Value.folded '' {v | ix.find v ≠ []} = (ix.keys.map Value.folded).toFinset := by
    ext w
    simp only [Set.mem_image, Set.mem_ofPred_eq, List.coe_toFinset, List.mem_map, keys]
    constructor
    · rintro ⟨v, positions, rfl⟩
      obtain ⟨e, he, same⟩ := List.any_eq_true.1 ((h.contains_iff v).2 positions)
      exact ⟨e.1, ⟨e, he, rfl⟩, (Value.same_iff_folded e.1 v).1 same⟩
    · rintro ⟨_, ⟨e, he, rfl⟩, rfl⟩
      refine ⟨e.1, ?_, rfl⟩
      rw [h.find_entry he]
      exact h.positions_ne_nil e he
  have distinct : (ix.keys.map Value.folded).Nodup := by
    refine List.pairwise_map.2 (h.keys_distinct.imp fun {v w} other => ?_)
    rw [Ne, ← Value.same_iff_folded, other]
    exact Bool.false_ne_true
  rw [values, Set.encard_coe_eq_coe_finsetCard, List.toFinset_card_of_nodup distinct]
  simp [keys, size]

/-- **An index is a faithful multimap.** After any operations it lists for a value, each once and in
the order in which they were entered, the positions for which the last operation on them is an
addition. It contains the values with positions, and their number is its size. NULL has no entry,
and values that are equal have one. -/
theorem multimap_afterAll (ops : List Op) :
    let ix := empty.afterAll ops
    (∀ v, (ix.find v).Nodup ∧ (∀ p, p ∈ ix.find v ↔ stands ops v p = true) ∧
        (∀ p ∈ ix.find v, ∃! i, Entered ops v p i) ∧ (ix.find v).Pairwise (Earlier ops v)) ∧
      (∀ v, ix.contains v = true ↔ ix.find v ≠ []) ∧
      (Value.folded '' {v | ix.find v ≠ []}).encard = ix.size ∧
      (∀ e ∈ ix.entries, e.1 ≠ .null ∧ e.2 ≠ []) ∧ ix.find .null = [] ∧
      (∀ v w, v.same w = true → ix.find v = ix.find w) ∧
      ∀ v w : Value, v.same w = true ↔
        v = w ∨ ∃ x y, v = .number x ∧ w = .number y ∧ x.magnitude = 0 ∧ y.magnitude = 0 := by
  intro ix
  have answers : ix.Answers ops := answers_afterAll ops
  have wellFormed := answers.wellFormed
  refine ⟨fun v => ⟨wellFormed.nodup_find v, answers.mem_iff v, ?_, answers.ordered v⟩,
    wellFormed.contains_iff, wellFormed.encard_eq_size, ?_, wellFormed.find_null rfl,
    fun v w => ix.find_congr, Value.same_iff⟩
  · intro p hp
    obtain ⟨i, entered⟩ := (stands_iff_exists_entered ops v p).1 ((answers.mem_iff v p).1 hp)
    exact ⟨i, entered, fun j entered' => entered'.unique entered⟩
  · intro e he
    refine ⟨fun null => ?_, wellFormed.positions_ne_nil e he⟩
    have := wellFormed.key_not_null e he
    simp [null, Value.isNull] at this

/-- A position that is removed and added again goes behind the others; one that is listed stays
where it is. -/
example :
    let zero := Value.number ⟨0⟩
    let ix := empty.afterAll [.add zero 1, .add (.number ⟨0x8000000000000000⟩) 2, .add .null 4,
      .remove zero 1, .add zero 2, .add zero 1, .add (.string "a") 3, .remove (.string "a") 3]
    ix.find zero = [2, 1] ∧ ix.contains (.string "a") = false ∧ ix.size = 1 := by
  decide

end Index
end Store
end PocketSql
