import PocketSql.Proofs.Store.Clash

/-!
# How strict an update is

The policies tell what becomes of an assignment whose column does not take the value. Two of them
leave it out, and differ in what is told about it later; the third one refuses the update. Nothing
else depends on the policy: which rows match, which assignments are carried out, and which of them
clash.

## Main results

* `Table.accepted_refused` — the first assignment that is left out tells why an update is refused.
* `Table.update_strictness` — an update under the three policies, from one table.
-/

namespace PocketSql
namespace Store
namespace Table

variable {t : Table} {assignments : List (String × Value)} {p : Row → Bool}

/-- Where assignments may not be left out, the first one that is left out tells the error. -/
theorem accepted_refused {schema : Schema} {field : IgnoredField} {later : List IgnoredField}
    (first : assignments.filterMap schema.refusal? = field :: later) :
    accepted schema .reject assignments = .error field.reason := by
  induction assignments with
  | nil => cases first
  | cons a assignments ih =>
    rw [accepted]
    cases found : schema.column? a.1 with
    | none =>
      have unknown : schema.refusal? a = none := by simp [Schema.refusal?, found]
      rw [List.filterMap_cons_none unknown] at first
      exact ih first
    | some c =>
      cases valid : c.validate a.2 with
      | ok =>
        have taken : schema.refusal? a = none := by simp [Schema.refusal?, found, valid]
        rw [List.filterMap_cons_none taken] at first
        simp only [valid, ih first]
        rfl
      | error e =>
        have refused := Schema.refusal?_eq_some_iff.2 ⟨c, e, found, valid, rfl⟩
        rw [List.filterMap_cons_some refused] at first
        have same : field = ⟨a.1, e⟩ := (List.cons.inj first).1.symm
        simp only [valid, if_true, same]

/-- An update that matches no row changes nothing, whatever its values are. -/
theorem update_of_nowhere (nowhere : t.positions p = []) (policy : FieldPolicy) :
    t.update assignments p policy = .ok (⟨0, []⟩, t) := by
  rw [update, nowhere]
  rfl

/-- A strict update that matches some row is refused for the first assignment that is left out. -/
theorem update_refused (there : t.positions p ≠ []) {field : IgnoredField}
    {later : List IgnoredField}
    (first : assignments.filterMap t.schema.refusal? = field :: later) :
    t.update assignments p .reject = .error field.reason := by
  rw [update, if_neg (by simpa using there), accepted_refused first]
  rfl

/-- Where no assignment is left out, or the policy allows it, the policy does not matter. -/
theorem update_congr {policy policy' : FieldPolicy}
    (strict : policy = .reject → assignments.filterMap t.schema.refusal? = [])
    (strict' : policy' = .reject → assignments.filterMap t.schema.refusal? = []) :
    t.update assignments p policy = t.update assignments p policy' := by
  by_cases nowhere : t.positions p = []
  · rw [update_of_nowhere nowhere, update_of_nowhere nowhere]
  · rw [update_eq nowhere strict, update_eq nowhere strict']

/-- An update that is refused leaves the table as it is. -/
theorem after_update_of_error {policy : FieldPolicy} {e : Error}
    (refused : t.update assignments p policy = .error e) :
    t.after (.update assignments p policy) = t := by
  rw [after, refused]

/-- **The policies differ in strictness only.** From one table, an update that leaves out what the
columns do not take does the same whether it reports this or not. The strict update succeeds just if
that one leaves out nothing, and then does the same. If it alone is refused, it is so for the first
assignment that the other one leaves out, with the error of its column, and changes nothing. -/
theorem update_strictness (t : Table) (assignments : List (String × Value)) (p : Row → Bool) :
    (t.update assignments p .skip = t.update assignments p .warn ∧
      t.after (.update assignments p .skip) = t.after (.update assignments p .warn)) ∧
    (∀ outcome u, t.update assignments p .reject = .ok (outcome, u) ↔
      t.update assignments p .warn = .ok (outcome, u) ∧ outcome.ignored = []) ∧
    ∀ e outcome u, t.update assignments p .reject = .error e →
      t.update assignments p .warn = .ok (outcome, u) →
        t.after (.update assignments p .reject) = t ∧
        ∃ before a after c, assignments = before ++ a :: after ∧
          (∀ b ∈ before, t.schema.refusal? b = none) ∧
          t.schema.column? a.1 = some c ∧ c.validate a.2 = .error e ∧
          outcome.ignored.head? = some ⟨a.1, e⟩ := by
  have lenient : t.update assignments p .skip = t.update assignments p .warn :=
    update_congr nofun nofun
  refine ⟨⟨lenient, by rw [after, after, lenient]⟩, ?_, ?_⟩
  · intro outcome u
    constructor
    · intro strict
      have nothing := (ignored_update strict).2 rfl
      refine ⟨?_, nothing⟩
      obtain ⟨nowhere, rfl, rfl⟩ | ⟨-, none, -⟩ := update_ok strict
      · exact update_of_nowhere nowhere .warn
      · rw [← strict]
        exact update_congr nofun none
    · rintro ⟨reported, nothing⟩
      obtain ⟨nowhere, rfl, rfl⟩ | ⟨-, -, -, rfl, -⟩ := update_ok reported
      · exact update_of_nowhere nowhere .reject
      · rw [← reported]
        exact update_congr (fun _ => nothing) nofun
  · intro e outcome u refused reported
    refine ⟨after_update_of_error refused, ?_⟩
    obtain ⟨nowhere, -⟩ | ⟨there, -, -, rfl, -⟩ := update_ok reported
    · rw [update_of_nowhere nowhere] at refused
      cases refused
    · cases ignored : assignments.filterMap t.schema.refusal? with
      | nil =>
        have same : t.update assignments p .reject = t.update assignments p .warn :=
          update_congr (fun _ => ignored) nofun
        rw [same, reported] at refused
        cases refused
      | cons field later =>
        rw [update_refused there ignored] at refused
        cases refused
        obtain ⟨before, a, after, split, none, first, -⟩ := List.filterMap_eq_cons_iff.1 ignored
        obtain ⟨c, e, found, invalid, rfl⟩ := Schema.refusal?_eq_some_iff.1 first
        exact ⟨before, a, after, c, split, none, found, invalid, rfl⟩

/-- The thing without a slot gets a label, and is reported not to take a missing weight or the name
of a slot. A strict update is refused for the weight, which comes first, and labels nothing. -/
theorem update_strictness_shelf :
    let t := (ofSchema shelf).afterAll shelfHistory
    let assignments := [("color", .string "red"), ("label", .string "a"), ("weight", .null),
      ("slot", .string "top")]
    let p := fun row : Row => (row.get "slot").isNull
    t.update assignments p .reject = .error (.nullNotAllowed "weight") ∧
      ∃ u, t.update assignments p .warn = .ok
          (⟨1, [⟨"weight", .nullNotAllowed "weight"⟩,
            ⟨"slot", .typeMismatch "slot" .number .string⟩]⟩, u) ∧
        u ≠ t ∧ t.update assignments p .skip = t.update assignments p .warn ∧
        t.after (.update assignments p .reject) = t := by
  intro t assignments p
  have refused : t.update assignments p .reject = .error (.nullNotAllowed "weight") := rfl
  obtain ⟨u, reported, changed⟩ : ∃ u, t.update assignments p .warn = .ok
      (⟨1, [⟨"weight", .nullNotAllowed "weight"⟩,
        ⟨"slot", .typeMismatch "slot" .number .string⟩]⟩, u) ∧ u ≠ t := by
    refine ⟨_, rfl, ?_⟩
    decide
  obtain ⟨⟨lenient, -⟩, -, alone⟩ := update_strictness t assignments p
  exact ⟨refused, u, reported, changed, lenient, (alone _ _ u refused reported).1⟩

end Table
end Store
end PocketSql
