import PocketSql.Store.Index

/-!
# The entries of an index

An index is a list of entries, of which the first one for a value counts. In a well-formed index
each value has at most one entry, so that the entries and what `Index.find` answers tell the same.
Adding and removing keep an index well-formed and change the positions of one value.
-/

namespace PocketSql
namespace Store
namespace Index

/-- The values that have an entry. -/
def keys (ix : Index) : List Value := ix.entries.map (·.1)

/-- No value has two entries; NULL has none, and every entry lists some positions, each once. -/
structure WellFormed (ix : Index) : Prop where
  keys_distinct : ix.keys.Pairwise fun v w => v.same w = false
  key_not_null : ∀ e ∈ ix.entries, e.1.isNull = false
  positions_ne_nil : ∀ e ∈ ix.entries, e.2 ≠ []
  positions_nodup : ∀ e ∈ ix.entries, e.2.Nodup

theorem wellFormed_empty : empty.WellFormed :=
  ⟨List.Pairwise.nil, by simp [empty], by simp [empty], by simp [empty]⟩

/-! ## Equal values -/

theorem same_congr {v w : Value} (h : v.same w = true) (u : Value) : u.same v = u.same w := by
  rw [Bool.eq_iff_iff]
  constructor
  · intro hv
    exact Value.same_trans hv h
  · intro hw
    exact Value.same_trans hw (by rw [Value.same_comm]; exact h)

theorem found_congr {v w : Value} (h : v.same w = true) (es : List (Value × List Nat)) :
    found v es = found w es := by
  induction es with
  | nil => rfl
  | cons e es ih =>
    simp only [found, same_congr h, ih]

/-- Equal values have the same positions. -/
theorem find_congr (ix : Index) {v w : Value} (h : v.same w = true) : ix.find v = ix.find w :=
  found_congr h ix.entries

theorem found_eq_nil {v : Value} {es : List (Value × List Nat)}
    (h : ∀ e ∈ es, e.1.same v = false) : found v es = [] := by
  induction es with
  | nil => rfl
  | cons e es ih =>
    simp only [found, h e List.mem_cons_self, Bool.false_eq_true, if_false]
    exact ih fun f hf => h f (List.mem_cons_of_mem e hf)

theorem found_mem_or_nil (v : Value) (es : List (Value × List Nat)) :
    found v es = [] ∨ ∃ e ∈ es, e.1.same v = true ∧ found v es = e.2 := by
  induction es with
  | nil => exact .inl rfl
  | cons e es ih =>
    by_cases he : e.1.same v = true
    · exact .inr ⟨e, List.mem_cons_self, he, by simp [found, he]⟩
    · simp only [found, he]
      rcases ih with h | ⟨f, hf, hs, h⟩
      · exact .inl h
      · exact .inr ⟨f, List.mem_cons_of_mem e hf, hs, h⟩

/-! ## Adding a position -/

theorem found_added (v : Value) (p : Nat) (u : Value) (es : List (Value × List Nat)) :
    found u (added v p es) =
      if v.same u then (if p ∈ found v es then found v es else found v es ++ [p])
      else found u es := by
  induction es with
  | nil => simp [added, found]
  | cons e es ih =>
    rcases e with ⟨w, positions⟩
    by_cases hw : w.same v = true
    · have hu : w.same u = v.same u := by
        rw [Value.same_comm w, Value.same_comm v]
        exact same_congr hw u
      by_cases hvu : v.same u = true <;> simp [added, found, hw, hu, hvu]
    · by_cases hu : v.same u = true
      · have hwu : w.same u = false := by
          rw [← same_congr hu]
          exact Bool.eq_false_iff.2 hw
        simp only [added, found, hw, hwu, hu, if_true, Bool.false_eq_true, if_false, ih]
      · simp only [added, found, hw, hu, if_false, ih, Bool.false_eq_true]

theorem keys_added (v : Value) (p : Nat) (es : List (Value × List Nat)) :
    (added v p es).map (·.1) =
      if es.any (·.1.same v) then es.map (·.1) else es.map (·.1) ++ [v] := by
  induction es with
  | nil => rfl
  | cons e es ih =>
    by_cases he : e.1.same v = true
    · simp [added, he]
    · simp only [added, he, List.map_cons, ih, List.any_cons, Bool.false_or,
        Bool.false_eq_true, if_false]
      split <;> rfl

/-- The entries after an addition are the old ones and the one that the position was added to. -/
theorem mem_added {v : Value} {p : Nat} {es : List (Value × List Nat)} {e : Value × List Nat}
    (h : e ∈ added v p es) :
    e ∈ es ∨ e = (v, [p]) ∨ ∃ f ∈ es, e = (f.1, if p ∈ f.2 then f.2 else f.2 ++ [p]) := by
  induction es with
  | nil => exact .inr (.inl (List.mem_singleton.1 h))
  | cons f es ih =>
    by_cases hf : f.1.same v = true
    · simp only [added, hf, if_true] at h
      rcases List.mem_cons.1 h with h | h
      · exact .inr (.inr ⟨f, List.mem_cons_self, h⟩)
      · exact .inl (List.mem_cons_of_mem f h)
    · simp only [added, hf] at h
      rcases List.mem_cons.1 h with h | h
      · exact .inl (h ▸ List.mem_cons_self)
      · rcases ih h with h | h | ⟨g, hg, h⟩
        · exact .inl (List.mem_cons_of_mem f h)
        · exact .inr (.inl h)
        · exact .inr (.inr ⟨g, List.mem_cons_of_mem f hg, h⟩)

/-- A new position goes behind those that a value has. -/
theorem find_add (ix : Index) (v : Value) (p : Nat) (u : Value) :
    (ix.add v p).find u =
      if v.isNull = false ∧ v.same u = true ∧ p ∉ ix.find u then ix.find u ++ [p]
      else ix.find u := by
  by_cases hn : v.isNull = true
  · simp [add, hn]
  · have hadd : (ix.add v p).find u = found u (added v p ix.entries) := by
      simp [add, find, hn]
    rw [hadd, found_added]
    by_cases hu : v.same u = true
    · rw [found_congr hu]
      by_cases hp : p ∈ found u ix.entries <;> simp [find, hn, hu, hp]
    · simp [find, hu]

theorem mem_find_add {ix : Index} {v : Value} {p : Nat} {u : Value} {q : Nat} :
    q ∈ (ix.add v p).find u ↔ q ∈ ix.find u ∨ v.isNull = false ∧ v.same u = true ∧ q = p := by
  rw [find_add]
  split
  · next h => simp [h.1, h.2.1]
  · next h =>
    constructor
    · exact .inl
    · rintro (hq | ⟨hn, hu, rfl⟩)
      · exact hq
      · exact Decidable.byContradiction fun hq => h ⟨hn, hu, hq⟩

theorem WellFormed.add {ix : Index} (h : ix.WellFormed) (v : Value) (p : Nat) :
    (ix.add v p).WellFormed := by
  by_cases hn : v.isNull = true
  · simpa [Index.add, hn] using h
  have hadd : (ix.add v p) = ⟨added v p ix.entries⟩ := by simp [Index.add, hn]
  have hv : v.isNull = false := Bool.eq_false_iff.2 hn
  rw [hadd]
  refine ⟨?_, ?_, ?_, ?_⟩
  · simp only [keys, keys_added]
    split
    · exact h.keys_distinct
    · next hany =>
      refine List.pairwise_append.2 ⟨h.keys_distinct, List.pairwise_singleton _ _, ?_⟩
      intro w hw u hu
      rw [List.mem_singleton.1 hu]
      obtain ⟨e, he, rfl⟩ := List.mem_map.1 hw
      exact Bool.eq_false_iff.2 fun hs => hany (List.any_eq_true.2 ⟨e, he, hs⟩)
  · intro e he
    rcases mem_added he with he | rfl | ⟨f, hf, rfl⟩
    · exact h.key_not_null e he
    · exact hv
    · exact h.key_not_null f hf
  · intro e he
    rcases mem_added he with he | rfl | ⟨f, hf, rfl⟩
    · exact h.positions_ne_nil e he
    · simp
    · have := h.positions_ne_nil f hf
      split <;> simp [this]
  · intro e he
    rcases mem_added he with he | rfl | ⟨f, hf, rfl⟩
    · exact h.positions_nodup e he
    · simp
    · have := h.positions_nodup f hf
      split
      · exact this
      · next hp =>
        refine List.nodup_append.2 ⟨this, by simp, ?_⟩
        intro q hq r hr
        rw [List.mem_singleton.1 hr]
        rintro rfl
        exact hp hq

/-! ## Removing a position -/

theorem keys_removed_sublist (v : Value) (p : Nat) (es : List (Value × List Nat)) :
    ((removed v p es).map (·.1)).Sublist (es.map (·.1)) := by
  induction es with
  | nil => exact List.Sublist.slnil
  | cons e es ih =>
    simp only [removed]
    split
    · split
      · exact List.sublist_cons_self _ _
      · exact List.Sublist.refl _
    · exact ih.cons_cons _

/-- The entries after a removal are old ones and a shortened one that is not empty. -/
theorem mem_removed {v : Value} {p : Nat} {es : List (Value × List Nat)} {e : Value × List Nat}
    (h : e ∈ removed v p es) :
    e ∈ es ∨ ∃ f ∈ es, e.1 = f.1 ∧ e.2 = f.2.filter (· ≠ p) ∧ e.2 ≠ [] := by
  induction es with
  | nil => exact nomatch h
  | cons f es ih =>
    simp only [removed] at h
    split at h
    · split at h
      · exact .inl (List.mem_cons_of_mem f h)
      · next hleft =>
        rcases List.mem_cons.1 h with rfl | h
        · exact .inr ⟨f, List.mem_cons_self, rfl, rfl, by simpa using hleft⟩
        · exact .inl (List.mem_cons_of_mem f h)
    · rcases List.mem_cons.1 h with rfl | h
      · exact .inl List.mem_cons_self
      · rcases ih h with h | ⟨g, hg, hk⟩
        · exact .inl (List.mem_cons_of_mem f h)
        · exact .inr ⟨g, List.mem_cons_of_mem f hg, hk⟩

theorem found_removed {v : Value} {p : Nat} {es : List (Value × List Nat)}
    (h : (es.map (·.1)).Pairwise fun v w => v.same w = false) (u : Value) :
    found u (removed v p es) =
      if v.same u then (found u es).filter (· ≠ p) else found u es := by
  induction es with
  | nil => simp [removed, found]
  | cons e es ih =>
    rcases e with ⟨w, positions⟩
    rw [List.map_cons, List.pairwise_cons] at h
    by_cases hw : w.same v = true
    · have hu : w.same u = v.same u := by
        rw [Value.same_comm w, Value.same_comm v]
        exact same_congr hw u
      -- The entry may have gone, and then no later one stands for the value.
      have hrest : v.same u = true → found u es = [] := by
        intro hvu
        refine found_eq_nil fun f hf => ?_
        rw [← same_congr (Value.same_trans hw hvu), Value.same_comm]
        exact h.1 f.1 (List.mem_map.2 ⟨f, hf, rfl⟩)
      simp only [removed, hw, if_true, found, hu]
      split
      · next hnil =>
        by_cases hvu : v.same u = true
        · simp only [hvu, if_true, hrest hvu, hnil]
        · simp only [hvu, if_false, Bool.false_eq_true]
      · simp only [found, hu]
        split <;> rfl
    · simp only [removed, hw, found, Bool.false_eq_true, if_false, ih h.2]
      by_cases hu : w.same u = true
      · have hvu : v.same u = false := by
          rw [← same_congr hu, Value.same_comm]
          exact Bool.eq_false_iff.2 hw
        simp [hu, hvu]
      · simp [hu]

theorem find_remove {ix : Index} (h : ix.WellFormed) (v : Value) (p : Nat) (u : Value) :
    (ix.remove v p).find u =
      if v.isNull = false ∧ v.same u = true then (ix.find u).filter (· ≠ p) else ix.find u := by
  by_cases hn : v.isNull = true
  · simp [remove, hn]
  · simp only [remove, hn, find, Bool.false_eq_true, if_false]
    rw [found_removed h.keys_distinct]
    simp

theorem mem_find_remove {ix : Index} (h : ix.WellFormed) {v : Value} {p : Nat} {u : Value}
    {q : Nat} :
    q ∈ (ix.remove v p).find u ↔
      q ∈ ix.find u ∧ ¬(v.isNull = false ∧ v.same u = true ∧ q = p) := by
  rw [find_remove h]
  split
  · next hc => simp [hc.1, hc.2]
  · next hc =>
    refine ⟨fun hq => ⟨hq, fun ⟨hn, hu, _⟩ => hc ⟨hn, hu⟩⟩, And.left⟩

theorem WellFormed.remove {ix : Index} (h : ix.WellFormed) (v : Value) (p : Nat) :
    (ix.remove v p).WellFormed := by
  by_cases hn : v.isNull = true
  · simpa [Index.remove, hn] using h
  have hrem : (ix.remove v p) = ⟨removed v p ix.entries⟩ := by simp [Index.remove, hn]
  rw [hrem]
  refine ⟨h.keys_distinct.sublist (keys_removed_sublist v p ix.entries), ?_, ?_, ?_⟩
  · intro e he
    rcases mem_removed he with he | ⟨f, hf, hk, -⟩
    · exact h.key_not_null e he
    · rw [hk]
      exact h.key_not_null f hf
  · intro e he
    rcases mem_removed he with he | ⟨f, hf, -, -, hne⟩
    · exact h.positions_ne_nil e he
    · exact hne
  · intro e he
    rcases mem_removed he with he | ⟨f, hf, -, hp, -⟩
    · exact h.positions_nodup e he
    · rw [hp]
      exact (h.positions_nodup f hf).filter _

/-! ## Reading a well-formed index -/

namespace WellFormed

variable {ix : Index}

theorem nodup_find (h : ix.WellFormed) (v : Value) : (ix.find v).Nodup := by
  rcases found_mem_or_nil v ix.entries with hf | ⟨e, he, -, hf⟩
  · rw [find, hf]
    exact List.nodup_nil
  · rw [find, hf]
    exact h.positions_nodup e he

theorem find_null (h : ix.WellFormed) {v : Value} (hv : v.isNull = true) : ix.find v = [] := by
  refine found_eq_nil fun e he => ?_
  refine Bool.eq_false_iff.2 fun hs => ?_
  have := h.key_not_null e he
  rw [Value.isNull_eq_of_same hs, hv] at this
  exact Bool.noConfusion this

/-- The first entry of a value is its only one. -/
theorem find_entry (h : ix.WellFormed) {e : Value × List Nat} (he : e ∈ ix.entries) :
    ix.find e.1 = e.2 := by
  have hd := h.keys_distinct
  simp only [keys] at hd
  simp only [find]
  generalize ix.entries = es at he hd
  induction es with
  | nil => exact nomatch he
  | cons f es ih =>
    rw [List.map_cons, List.pairwise_cons] at hd
    rcases List.mem_cons.1 he with rfl | he
    · simp [found]
    · have := hd.1 e.1 (List.mem_map.2 ⟨e, he, rfl⟩)
      simp only [found, this, Bool.false_eq_true, if_false]
      exact ih he hd.2

/-- A value has an entry just if it has positions. -/
theorem contains_iff (h : ix.WellFormed) (v : Value) :
    ix.contains v = true ↔ ix.find v ≠ [] := by
  rw [contains, List.any_eq_true]
  constructor
  · rintro ⟨e, he, hs⟩
    rw [← find_congr ix hs, h.find_entry he]
    exact h.positions_ne_nil e he
  · intro hv
    rcases found_mem_or_nil v ix.entries with hf | ⟨e, he, hs, -⟩
    · exact absurd hf hv
    · exact ⟨e, he, hs⟩

end WellFormed

/-! ## Building an index anew -/

theorem WellFormed.ofValues {ix : Index} (h : ix.WellFormed) (start : Nat) (vs : List Value) :
    (ofValues start ix vs).WellFormed := by
  induction vs generalizing start ix with
  | nil => exact h
  | cons v vs ih => exact ih (h.add v start) (start + 1)

/-- An index built from values lists each of them at its place. -/
theorem mem_find_ofValues {start : Nat} {ix : Index} {vs : List Value} {u : Value} {q : Nat} :
    q ∈ (ofValues start ix vs).find u ↔
      q ∈ ix.find u ∨
        ∃ i v, vs[i]? = some v ∧ v.isNull = false ∧ v.same u = true ∧ q = start + i := by
  induction vs generalizing start ix with
  | nil => simp [ofValues]
  | cons v vs ih =>
    rw [ofValues, ih, mem_find_add]
    constructor
    · rintro ((hq | ⟨hn, hs, rfl⟩) | ⟨i, w, hi, hn, hs, rfl⟩)
      · exact .inl hq
      · exact .inr ⟨0, v, rfl, hn, hs, rfl⟩
      · exact .inr ⟨i + 1, w, hi, hn, hs, by omega⟩
    · rintro (hq | ⟨i, w, hi, hn, hs, rfl⟩)
      · exact .inl (.inl hq)
      · cases i with
        | zero =>
          obtain rfl : v = w := by simpa using hi
          exact .inl (.inr ⟨hn, hs, rfl⟩)
        | succ i => exact .inr ⟨i, w, hi, hn, hs, by omega⟩

end Index
end Store
end PocketSql
