import PocketSql.Proofs.Sql.Script

/-!
# Where a value is asked for

A parser asks for a value behind some tokens if it fails on them alone because a value is missing.
Which tokens these are is a matter of grammar: they are cut off in front of a value.

## Main definitions

* `InStatement`, `InScript` — tokens cut off in front of a value of a statement or of a script.
* `Asks` — a parser asks for a value behind the tokens of a kind.

## Main results

* `asks_single`, `asks_script` — where the parsers of statements and scripts ask for a value.
-/

namespace PocketSql
namespace Sql

namespace Grammar

variable {α : Type}

/-! ## Places -/

/-- A list is cut off in one of its items. -/
inductive InList (separator : Token) (item : List Token → α → Prop) (place : List Token → Prop) :
    List Token → Prop where
  | here {ts : List Token} (h : place ts) : InList separator item place ts
  | later {ts us : List Token} {a : α} (h : item ts a) (tail : InList separator item place us) :
      InList separator item place (ts ++ separator :: us)

inductive InTuple (item : List Token → α → Prop) (place : List Token → Prop) :
    List Token → Prop where
  | mk {ts : List Token} (h : InList .comma item place ts) : InTuple item place (.openParen :: ts)

inductive InCondition : List Token → Prop where
  | mk {ts : List Token} {column : String} (op : Comparison) (left : IsReference .full ts column) :
      InCondition (ts ++ [.comparison op])

inductive InWhere : List Token → Prop where
  | mk {ts : List Token} (h : InList (.keyword .andWord) (IsCondition .full) InCondition ts) :
      InWhere (.keyword .whereWord :: ts)

inductive InColumnDef : List Token → Prop where
  | mk {ns ts cs : List Token} {name type : String} {constraints : List Constraint}
      (named : IsName ns name) (typed : IsTypeName .full ts type)
      (constrained : IsSequence (IsConstraint .full) cs constraints) :
      InColumnDef (ns ++ (ts ++ (cs ++ [.keyword .default])))

inductive InAssignment : List Token → Prop where
  | mk {ts : List Token} {column : String} (left : IsName ts column) :
      InAssignment (ts ++ [.comparison .eq])

/-- A statement is cut off in front of a value. -/
inductive InStatement : List Token → Prop where
  | createTable {ns ts : List Token} {table : String} {ifNotExists : Bool}
      (named : IsGuarded .full [.keyword .notWord, .keyword .existsWord] ns (table, ifNotExists))
      (declared : InTuple (IsColumnDef .full) InColumnDef ts) :
      InStatement (.keyword .create :: .keyword .table :: (ns ++ ts))
  | insert {ns cs vs : List Token} {table : String} {columns : Option (List String)}
      (named : IsName ns table) (target : IsTarget .full cs columns)
      (values : InList .comma (IsTuple IsValue) (InTuple IsValue (· = [])) vs) :
      InStatement (.keyword .insert :: .keyword .into :: (ns ++ (cs ++ .keyword .values :: vs)))
  | select {cs ns js ws : List Token} {columns : List String} {table : String}
      {join : Option JoinClause} (selected : IsSelection .full cs columns) (named : IsName ns table)
      (joined : IsJoins .full table js join) (filtered : InWhere ws) :
      InStatement (.keyword .select :: (cs ++ .keyword .fromWord :: (ns ++ (js ++ ws))))
  | assignment {ns as : List Token} {table : String} (named : IsName ns table)
      (assigned : InList .comma (IsAssignment .full) InAssignment as) :
      InStatement (.keyword .update :: (ns ++ .keyword .set :: as))
  | update {ns as ws : List Token} {table : String} {assignments : List (String × Value)}
      (named : IsName ns table) (assigned : IsList .comma (IsAssignment .full) as assignments)
      (filtered : InWhere ws) :
      InStatement (.keyword .update :: (ns ++ .keyword .set :: (as ++ ws)))
  | delete {ns ws : List Token} {table : String} (named : IsName ns table)
      (filtered : InWhere ws) :
      InStatement (.keyword .delete :: .keyword .fromWord :: (ns ++ ws))

/-- A script is cut off in front of a value. -/
inductive InScript : List Token → Prop where
  | here {ts : List Token} (h : InStatement ts) : InScript ts
  | skip {ts : List Token} (h : InScript ts) : InScript (.semicolon :: ts)
  | later {ts us : List Token} {s : Statement} (h : IsStatement .full ts s) (tail : InScript us) :
      InScript (ts ++ .semicolon :: us)

end Grammar

open Grammar

namespace Parser

variable {α β : Type} {ts rest : List Token} {t u : Token}

/-! ## Failures -/

/-- The failure of a parser that asks for a value where `t` stands. -/
abbrev missing (t : Token) : Error := .unexpectedToken t .value

/-- Two parsers in a row fail just where the first one does or the second one goes on to. -/
theorem bind_error_iff {p : Parser α} {f : α → Parser β} {e : Error} :
    (p >>= f).runOn ts = (.error e, rest) ↔
      p.runOn ts = (.error e, rest) ∨
        ∃ a us, p.runOn ts = (.ok a, us) ∧ (f a).runOn us = (.error e, rest) := by
  rw [runOn_bind]
  cases p.runOn ts with
  | mk result us => cases result <;> simp

/-- The next token is a value, or a value is missing. -/
theorem value_cases (ts : List Token) :
    (∃ v, IsValue [ahead ts] v ∧ value.runOn ts = (.ok v, ts.tail)) ∨
      value.runOn ts = (.error (missing (ahead ts)), ts) := by
  rw [value, runOn_current_bind]
  split
  · next x h => exact .inl ⟨_, h ▸ .number x, rfl⟩
  · next s h => exact .inl ⟨_, h ▸ .string s, rfl⟩
  · next s h => exact .inl ⟨_, h ▸ .word s, rfl⟩
  · next h => exact .inl ⟨_, h ▸ .trueWord, rfl⟩
  · next h => exact .inl ⟨_, h ▸ .falseWord, rfl⟩
  · next h => exact .inl ⟨_, h ▸ .null, rfl⟩
  · exact .inr rfl

theorem value_missing (h : value.runOn ts = (.error (missing t), rest)) :
    ts = rest ∧ ahead rest = t := by
  obtain ⟨v, -, hv⟩ | hv := value_cases ts
  · rw [hv] at h
    cases h
  · rw [hv] at h
    cases h
    exact ⟨rfl, rfl⟩

theorem runOn_value_of_none (none : ∀ v, ¬ IsValue [ahead ts] v) :
    value.runOn ts = (.error (missing (ahead ts)), ts) := by
  obtain ⟨v, hv, -⟩ | h := value_cases ts
  · exact absurd hv (none v)
  · exact h

/-! ## Parsers that ask for no value -/

/-- A parser never fails because a value is missing. -/
def NeverAsks (p : Parser α) : Prop :=
  ∀ (ts rest : List Token) (t : Token), p.runOn ts ≠ (.error (missing t), rest)

namespace NeverAsks

theorem bind {p : Parser α} {f : α → Parser β} (h : NeverAsks p) (h' : ∀ a, NeverAsks (f a)) :
    NeverAsks (p >>= f) := by
  intro ts rest t hr
  obtain hp | ⟨a, us, -, hf⟩ := bind_error_iff.1 hr
  · exact h ts rest t hp
  · exact h' a us rest t hf

theorem pure (a : α) : NeverAsks (pure a : Parser α) := by
  intro ts rest t h
  cases h

theorem throw {e : Error} (other : ∀ t, e ≠ missing t) : NeverAsks (throw e : Parser α) := by
  intro ts rest t h
  cases h
  exact other t rfl

theorem unexpected {expected : Expected} (other : expected ≠ .value) :
    NeverAsks (unexpected expected : Parser α) := by
  intro ts rest t h
  cases h
  exact other rfl

theorem ite {c : Prop} [Decidable c] {p q : Parser α} (h : NeverAsks p) (h' : NeverAsks q) :
    NeverAsks (if c then p else q) := by
  split
  · exact h
  · exact h'

theorem current : NeverAsks current := by
  intro ts rest t h
  cases h

theorem advance : NeverAsks advance := by
  intro ts rest t h
  cases h

theorem at? (u : Token) : NeverAsks (at? u) := by
  intro ts rest t h
  cases h

theorem accept (u : Token) : NeverAsks (accept u) :=
  current.bind fun _ => (advance.bind fun _ => pure true).ite (pure false)

theorem expect (u : Token) : NeverAsks (expect u) :=
  current.bind fun _ => advance.ite (unexpected (by simp))

theorem expectAfter (leading k : Keyword) : NeverAsks (expectAfter leading k) :=
  current.bind fun _ => advance.ite (throw (by simp))

theorem forM_expect (us : List Token) : NeverAsks (us.forM Parser.expect) := by
  induction us with
  | nil => exact pure ()
  | cons u us ih => exact (expect u).bind fun _ => ih

theorem name : NeverAsks name := by
  refine current.bind fun u => ?_
  split
  · exact advance.bind fun _ => pure _
  · exact unexpected (by simp)

theorem comparison : NeverAsks comparison := by
  refine current.bind fun u => ?_
  split
  · exact advance.bind fun _ => pure _
  · exact unexpected (by simp)

theorem columnRef : NeverAsks columnRef :=
  name.bind fun _ => (accept .dot).bind fun _ => (name.bind fun _ => pure _).ite (pure _)

theorem qualifiedColumn : NeverAsks qualifiedColumn :=
  name.bind fun _ => (expect .dot).bind fun _ => name.bind fun _ => pure _

theorem separated {item : Parser α} (h : NeverAsks item) (separator : Token) :
    NeverAsks (separated separator item) := by
  have upTo (n : Nat) : NeverAsks (separatedUpTo separator item n) := by
    induction n with
    | zero => exact pure []
    | succ n ih =>
      exact h.bind fun _ => (accept separator).bind fun _ => (ih.bind fun _ => pure _).ite (pure _)
  intro ts rest t hr
  rw [Parser.separated, runOn_get_bind] at hr
  exact upTo _ _ _ _ hr

theorem parenthesized {item : Parser α} (h : NeverAsks item) : NeverAsks (parenthesized item) :=
  (expect _).bind fun _ => (h.separated _).bind fun _ => (expect _).bind fun _ => pure _

theorem arguments : NeverAsks arguments := by
  intro ts rest t h
  change Parser.arguments ts = _ at h
  induction ts with
  | nil => cases h
  | cons u ts ih =>
    simp only [Parser.arguments] at h
    split at h
    · cases h
    · split at h
      · cases h
      · split at h
        · cases h
        · next tail =>
          cases h
          exact ih tail

theorem typeWords (n : Nat) : NeverAsks (typeWords n) := by
  induction n with
  | zero => exact pure []
  | succ n ih =>
    refine current.bind fun u => ?_
    split
    · exact advance.bind fun _ => (accept _).bind fun _ =>
        (arguments.bind fun _ => ih.bind fun _ => pure _).ite (ih.bind fun _ => pure _)
    · exact pure []

theorem typeName : NeverAsks typeName := by
  intro ts rest t h
  rw [Parser.typeName, runOn_get_bind] at h
  exact (typeWords _).bind (fun _ => (unexpected (by simp)).ite (pure _)) _ _ _ h

theorem guardedName (guard : List Token) : NeverAsks (guardedName guard) :=
  (accept _).bind fun _ => ((forM_expect guard).bind fun _ => name.bind fun _ => pure _).ite
    (name.bind fun _ => pure _)

theorem target : NeverAsks target :=
  (at? _).bind fun _ => (name.parenthesized.bind fun _ => pure _).ite (pure _)

theorem selection : NeverAsks selection :=
  (accept _).bind fun _ => (pure _).ite (columnRef.separated _)

theorem atJoin : NeverAsks atJoin := by
  refine current.bind fun u => ?_
  split <;> exact pure _

theorem joinKind : NeverAsks joinKind := by
  refine current.bind fun u => ?_
  split
  · exact advance.bind fun _ => pure _
  · exact advance.bind fun _ => (accept _).bind fun _ => pure _
  · exact pure _

theorem join (table : String) : NeverAsks (join table) :=
  joinKind.bind fun _ => (expect _).bind fun _ => name.bind fun _ => (expect _).bind fun _ =>
    qualifiedColumn.bind fun _ => (expect _).bind fun _ => qualifiedColumn.bind fun _ =>
      (pure _).ite ((pure _).ite (throw (by simp)))

theorem joins (table : String) : NeverAsks (joins table) := by
  rw [Parser.joins]
  refine atJoin.bind fun _ => ite ((join table).bind fun _ => atJoin.bind fun _ => ?_) (pure _)
  exact ite ((throw (by simp)).bind fun _ => pure _) (pure _)

end NeverAsks

/-! ## Parsers that ask for values -/

/-- A parser asks for a value behind the tokens that are a place: where it fails because a value is
missing it has taken a place, and behind a place it fails if what comes next is no value. -/
structure Asks (p : Parser α) (place : List Token → Prop) : Prop where
  sound : ∀ {ts rest : List Token} {t : Token}, p.runOn ts = (.error (missing t), rest) →
    ∃ front, place front ∧ ts = front ++ rest ∧ ahead rest = t
  complete : ∀ {front rest : List Token}, place front → (∀ v, ¬ IsValue [ahead rest] v) →
    p.runOn (front ++ rest) = (.error (missing (ahead rest)), rest)

/-- On the tokens of a place alone a value is missing at the end, and on no other ones. -/
theorem Asks.missing_iff {p : Parser α} {place : List Token → Prop} (h : Asks p place)
    (ended : .endOfInput ∉ ts) :
    (p.runOn ts).1 = .error (missing .endOfInput) ↔ place ts := by
  constructor
  · intro hr
    obtain ⟨rest, run⟩ : ∃ rest, p.runOn ts = (.error (missing .endOfInput), rest) :=
      ⟨_, Prod.ext hr rfl⟩
    obtain ⟨front, hfront, hts, last⟩ := h.sound run
    cases rest with
    | nil => rwa [hts, List.append_nil]
    | cons t us =>
      rw [ahead_cons] at last
      rw [hts, last] at ended
      simp at ended
  · intro hp
    have none : ∀ v, ¬ IsValue [ahead []] v := fun _ hv => nomatch hv
    have run := h.complete hp none
    rw [List.append_nil] at run
    rw [run]
    rfl

/-- A parser that succeeds has found a value behind a place. -/
theorem Asks.exists_value {p : Parser α} {place : List Token → Prop} (h : Asks p place) {a : α}
    (hts : place ts) (ok : (p.runOn (ts ++ t :: rest)).1 = .ok a) : ∃ v, IsValue [t] v := by
  by_contra none
  rw [h.complete hts (by simpa using none)] at ok
  cases ok

theorem asks_value : Asks value (· = []) where
  sound h := ⟨[], rfl, value_missing h⟩
  complete place none := by
    rw [place]
    exact runOn_value_of_none none

/-- What is done with the result does not matter. -/
theorem Asks.before {p : Parser α} {f : α → Parser β} {place : List Token → Prop}
    (h : Asks p place) (never : ∀ a, NeverAsks (f a)) : Asks (p >>= f) place where
  sound hr := by
    obtain hp | ⟨a, us, -, hf⟩ := bind_error_iff.1 hr
    · exact h.sound hp
    · exact absurd hf (never a _ _ _)
  complete hp none := by
    rw [runOn_bind, h.complete hp none]

theorem asks_condition : Asks condition InCondition where
  sound h := by
    simp only [condition, bind_error_iff] at h
    obtain h | ⟨column, us, hc, h | ⟨op, vs, hop, h | ⟨v, ws, hv, h⟩⟩⟩ := h
    · exact absurd h (NeverAsks.columnRef _ _ _)
    · exact absurd h (NeverAsks.comparison _ _ _)
    · obtain ⟨ts, hts, rfl⟩ := reads_columnRef.sound hc
      obtain ⟨rfl, ht⟩ := value_missing h
      rw [comparison_ok hop]
      exact ⟨_, .mk op hts, by simp, ht⟩
    · cases h
  complete {_ rest} h none := by
    obtain @⟨ts, column, op, left⟩ := h
    have first : columnRef.runOn (ts ++ .comparison op :: rest) =
        (.ok column, .comparison op :: rest) :=
      reads_columnRef.complete left (by simp)
    simp [condition, runOn_bind, first, runOn_comparison_cons, runOn_value_of_none none]

/-! ## Lists -/

section
variable {item : Parser α} {phrase : List Token → α → Prop} {follow : Token → Prop}
  {place : List Token → Prop} {separator : Token}

theorem sound_inList (R : Reads item phrase follow) (A : Asks item place)
    (more : separator ≠ .endOfInput) {n : Nat}
    (h : (separatedUpTo separator item n).runOn ts = (.error (missing t), rest)) :
    ∃ front, InList separator phrase place front ∧ ts = front ++ rest ∧ ahead rest = t := by
  induction n generalizing ts with
  | zero => cases h
  | succ n ih =>
    simp only [separatedUpTo, bind_error_iff] at h
    obtain h | ⟨a, us, ha, h | ⟨another, vs, hs, h⟩⟩ := h
    · obtain ⟨front, hfront, rfl, ht⟩ := A.sound h
      exact ⟨front, .here hfront, rfl, ht⟩
    · exact absurd h (NeverAsks.accept _ _ _ _)
    · obtain ⟨body, hbody, rfl⟩ := R.sound ha
      obtain ⟨rfl, rfl⟩ | ⟨rfl, -, rfl⟩ := (accept_ok_iff more).1 hs
      · simp only [if_true, bind_error_iff] at h
        obtain h | ⟨as, ws, -, h⟩ := h
        · obtain ⟨front, hfront, rfl, ht⟩ := ih h
          exact ⟨_, .later hbody hfront, by simp, ht⟩
        · cases h
      · cases h

theorem complete_inList (R : Reads item phrase follow) (A : Asks item place)
    (between : follow separator) {n : Nat} {front : List Token}
    (h : InList separator phrase place front) (bound : front.length < n)
    (none : ∀ v, ¬ IsValue [ahead rest] v) :
    (separatedUpTo separator item n).runOn (front ++ rest) =
      (.error (missing (ahead rest)), rest) := by
  induction h generalizing n with
  | here h =>
    obtain _ | n := n
    · omega
    rw [separatedUpTo, runOn_bind, A.complete h none]
  | @later ts us a h tail ih =>
    obtain _ | n := n
    · omega
    have first :
        item.runOn (ts ++ separator :: (us ++ rest)) = (.ok a, separator :: (us ++ rest)) :=
      R.complete h between
    have shorter : us.length < n := by
      simp only [List.length_append, List.length_cons] at bound
      omega
    simp [separatedUpTo, runOn_bind, first, ih shorter]

theorem Asks.separated (A : Asks item place) (R : Reads item phrase follow)
    (more : separator ≠ .endOfInput) (between : follow separator) :
    Asks (Parser.separated separator item) (InList separator phrase place) where
  sound h := by
    rw [Parser.separated, runOn_get_bind] at h
    exact sound_inList R A more h
  complete h none := by
    rw [Parser.separated, runOn_get_bind]
    exact complete_inList R A between h (by rw [List.length_append]; omega) none

theorem Asks.parenthesized (A : Asks item place) (R : Reads item phrase follow)
    (comma : follow .comma) : Asks (Parser.parenthesized item) (InTuple phrase place) where
  sound h := by
    simp only [Parser.parenthesized, bind_error_iff] at h
    obtain h | ⟨_, us, hopen, h | ⟨as, vs, has, h | ⟨_, ws, hclose, h⟩⟩⟩ := h
    · exact absurd h (NeverAsks.expect _ _ _ _)
    · obtain ⟨front, hfront, rfl, ht⟩ := (A.separated R (by simp) comma).sound h
      rw [(expect_ok_iff (by simp)).1 hopen]
      exact ⟨_, .mk hfront, rfl, ht⟩
    · exact absurd h (NeverAsks.expect _ _ _ _)
    · cases h
  complete h none := by
    obtain ⟨h⟩ := h
    simp [Parser.parenthesized, runOn_bind, (A.separated R (by simp) comma).complete h none]

end

theorem asks_conditions : Asks conditions InWhere where
  sound h := by
    simp only [conditions, bind_error_iff] at h
    obtain h | ⟨present, us, hw, h⟩ := h
    · exact absurd h (NeverAsks.accept _ _ _ _)
    · obtain ⟨rfl, rfl⟩ | ⟨rfl, -, rfl⟩ := (accept_ok_iff (by simp)).1 hw
      · obtain ⟨front, hfront, rfl, ht⟩ :=
          (asks_condition.separated reads_condition (by simp) trivial).sound h
        exact ⟨_, .mk hfront, rfl, ht⟩
      · cases h
  complete h none := by
    obtain ⟨h⟩ := h
    simp [conditions, runOn_bind,
      (asks_condition.separated reads_condition (by simp) trivial).complete h none]

/-! ## Declarations of columns -/

theorem sound_inConstraints {n : Nat} {d : ColumnDef} (bound : ts.length < n)
    (h : (constraints n d).runOn ts = (.error (missing t), rest)) :
    ∃ body cs, IsSequence (IsConstraint .full) body cs ∧
      ts = body ++ .keyword .default :: rest ∧ ahead rest = t := by
  induction n generalizing ts d with
  | zero => omega
  | succ n ih =>
    have further {c : Constraint} {body ts' : List Token} (hc : IsConstraint .full body c)
        (hts : ts = body ++ ts')
        (h : (constraints n (c.add d)).runOn ts' = (.error (missing t), rest)) :
        ∃ body cs, IsSequence (IsConstraint .full) body cs ∧
          ts = body ++ .keyword .default :: rest ∧ ahead rest = t := by
      have shorter : ts'.length < n := by
        rw [hts] at bound
        cases hc <;> simp at bound <;> omega
      obtain ⟨body', cs, hbody', rfl, ht⟩ := ih shorter h
      exact ⟨body ++ body', c :: cs, .cons hc hbody', by simp [hts], ht⟩
    rw [constraints, runOn_current_bind] at h
    split at h
    · next hk =>
      rw [runOn_advance_bind, bind_error_iff] at h
      obtain h | ⟨_, us, hkey, h⟩ := h
      · exact absurd h (NeverAsks.expect _ _ _ _)
      · have hts := eq_cons_of_ahead hk (by simp)
        rw [(expect_ok_iff (by simp)).1 hkey] at hts
        exact further .primaryKey hts h
    · next hk =>
      rw [runOn_advance_bind] at h
      exact further .unique (eq_cons_of_ahead hk (by simp)) h
    · next hk =>
      rw [runOn_advance_bind, bind_error_iff] at h
      obtain h | ⟨_, us, hnull, h⟩ := h
      · exact absurd h (NeverAsks.expect _ _ _ _)
      · have hts := eq_cons_of_ahead hk (by simp)
        rw [(expect_ok_iff (by simp)).1 hnull] at hts
        exact further .notNull hts h
    · next hk =>
      rw [runOn_advance_bind] at h
      exact further .null (eq_cons_of_ahead hk (by simp)) h
    · next hk =>
      have hts := eq_cons_of_ahead hk (by simp)
      rw [runOn_advance_bind, bind_error_iff] at h
      obtain h | ⟨v, us, hv, h⟩ := h
      · obtain ⟨hrest, ht⟩ := value_missing h
        rw [hrest] at hts
        exact ⟨[], [], .nil, hts, ht⟩
      · obtain ⟨body, hbody, htail⟩ := reads_value.sound hv
        rw [htail] at hts
        exact further (.default hbody) hts h
    · cases h

theorem complete_inConstraints {n : Nat} {body : List Token} {cs : List Constraint} {d : ColumnDef}
    (h : IsSequence (IsConstraint .full) body cs) (bound : body.length < n)
    (none : ∀ v, ¬ IsValue [ahead rest] v) :
    (constraints n d).runOn (body ++ .keyword .default :: rest) =
      (.error (missing (ahead rest)), rest) := by
  induction h generalizing n d with
  | nil =>
    obtain _ | n := n
    · omega
    simp [constraints, runOn_bind, runOn_value_of_none none]
  | @cons ts us c cs hc tail ih =>
    obtain _ | n := n
    · omega
    have shorter : us.length < n := by
      cases hc <;> simp only [List.length_append, List.length_cons] at bound <;> omega
    cases hc with
    | default hv =>
      simp [constraints, runOn_bind, reads_value.complete hv, ih shorter]
    | _ => simp [constraints, runOn_bind, ih shorter]

theorem asks_columnDef : Asks columnDef InColumnDef where
  sound h := by
    simp only [columnDef, bind_error_iff, runOn_get_bind] at h
    obtain h | ⟨column, us, hname, h | ⟨type, vs, htype, h⟩⟩ := h
    · exact absurd h (NeverAsks.name _ _ _)
    · exact absurd h (NeverAsks.typeName _ _ _)
    · obtain ⟨body, hbody, rfl⟩ := reads_name.sound hname
      obtain ⟨body', hbody', rfl⟩ := reads_typeName.sound htype
      obtain ⟨body'', cs, hbody'', rfl, ht⟩ := sound_inConstraints (Nat.lt_succ_self _) h
      exact ⟨_, .mk hbody hbody' hbody'', by simp, ht⟩
  complete {_ rest} h none := by
    obtain @⟨ns, ts, cs, column, type, constraints, hname, htype, hcs⟩ := h
    have ends : EndsType (ahead (cs ++ .keyword .default :: rest)) := by
      cases hcs with
      | nil => simp [EndsType]
      | cons hc _ => cases hc <;> simp [EndsType]
    have typed : typeName.runOn (ts ++ (cs ++ .keyword .default :: rest)) =
        (.ok type, cs ++ .keyword .default :: rest) :=
      reads_typeName.complete htype ends
    simp only [columnDef, List.append_assoc, List.singleton_append, runOn_bind,
      reads_name.complete hname, typed]
    rw [← runOn_bind, runOn_get_bind]
    exact complete_inConstraints hcs (by rw [List.length_append]; omega) none

theorem asks_columnDefs :
    Asks (parenthesized columnDef) (InTuple (IsColumnDef .full) InColumnDef) :=
  asks_columnDef.parenthesized reads_columnDef (by simp [EndsType, EndsColumn])

/-! ## Statements -/

theorem asks_rows :
    Asks (separated .comma (parenthesized value))
      (InList .comma (IsTuple IsValue) (InTuple IsValue (· = []))) :=
  (asks_value.parenthesized reads_value trivial).separated
    (reads_value.parenthesized trivial trivial) (by simp) trivial

theorem asks_assignment : Asks assignment InAssignment where
  sound h := by
    simp only [assignment, bind_error_iff] at h
    obtain h | ⟨column, us, hc, h | ⟨_, vs, heq, h | ⟨v, ws, hv, h⟩⟩⟩ := h
    · exact absurd h (NeverAsks.name _ _ _)
    · exact absurd h (NeverAsks.expect _ _ _ _)
    · obtain ⟨body, hbody, rfl⟩ := reads_name.sound hc
      obtain ⟨rfl, ht⟩ := value_missing h
      rw [(expect_ok_iff (by simp)).1 heq]
      exact ⟨_, .mk hbody, by simp, ht⟩
    · cases h
  complete h none := by
    obtain ⟨hc⟩ := h
    simp [assignment, runOn_bind, reads_name.complete hc, runOn_value_of_none none]

theorem asks_assignments :
    Asks (separated .comma assignment) (InList .comma (IsAssignment .full) InAssignment) :=
  asks_assignment.separated reads_assignment (by simp) trivial

theorem sound_inCreateTable (h : createTable.runOn ts = (.error (missing t), rest)) :
    ∃ front, InStatement front ∧ ts = front ++ rest ∧ ahead rest = t := by
  simp only [createTable, bind_error_iff] at h
  obtain h | ⟨_, us, hcreate, h | ⟨_, vs, htable, h | ⟨⟨table, ifNotExists⟩, ws, hname,
    h | ⟨columns, xs, hcolumns, h⟩⟩⟩⟩ := h
  · exact absurd h (NeverAsks.expect _ _ _ _)
  · exact absurd h (NeverAsks.expectAfter _ _ _ _ _)
  · exact absurd h (NeverAsks.guardedName _ _ _ _)
  · obtain ⟨ns, hns, rfl⟩ := (reads_guardedName (by simp)).sound hname
    obtain ⟨front, hfront, rfl, ht⟩ := asks_columnDefs.sound h
    rw [(expect_ok_iff (by simp)).1 hcreate, expectAfter_ok_iff.1 htable]
    exact ⟨_, .createTable hns hfront, by simp, ht⟩
  · cases h

theorem sound_inInsert (h : insert.runOn ts = (.error (missing t), rest)) :
    ∃ front, InStatement front ∧ ts = front ++ rest ∧ ahead rest = t := by
  simp only [insert, bind_error_iff] at h
  obtain h | ⟨_, us, hinsert, h | ⟨_, vs, hinto, h | ⟨table, ws, hname, h | ⟨columns, xs, htarget,
    h | ⟨_, ys, hvalues, h | ⟨rows, zs, hrows, h⟩⟩⟩⟩⟩⟩ := h
  · exact absurd h (NeverAsks.expect _ _ _ _)
  · exact absurd h (NeverAsks.expectAfter _ _ _ _ _)
  · exact absurd h (NeverAsks.name _ _ _)
  · exact absurd h (NeverAsks.target _ _ _)
  · exact absurd h (NeverAsks.expect _ _ _ _)
  · obtain ⟨ns, hns, rfl⟩ := reads_name.sound hname
    obtain ⟨cs, hcs, rfl⟩ := reads_target.sound htarget
    obtain ⟨front, hfront, rfl, ht⟩ := asks_rows.sound h
    rw [(expect_ok_iff (by simp)).1 hinsert, expectAfter_ok_iff.1 hinto,
      (expect_ok_iff (by simp)).1 hvalues]
    exact ⟨_, .insert hns hcs hfront, by simp, ht⟩
  · cases h

theorem sound_inSelect (h : select.runOn ts = (.error (missing t), rest)) :
    ∃ front, InStatement front ∧ ts = front ++ rest ∧ ahead rest = t := by
  simp only [select, bind_error_iff] at h
  obtain h | ⟨_, us, hselect, h | ⟨columns, vs, hcolumns, h | ⟨_, ws, hfrom, h | ⟨table, xs, hname,
    h | ⟨clause, ys, hjoin, h | ⟨conditions, zs, hwhere, h⟩⟩⟩⟩⟩⟩ := h
  · exact absurd h (NeverAsks.expect _ _ _ _)
  · exact absurd h (NeverAsks.selection _ _ _)
  · exact absurd h (NeverAsks.expect _ _ _ _)
  · exact absurd h (NeverAsks.name _ _ _)
  · exact absurd h (NeverAsks.joins _ _ _ _)
  · obtain ⟨cs, hcs, rfl⟩ := reads_selection.sound hcolumns
    obtain ⟨ns, hns, rfl⟩ := reads_name.sound hname
    obtain ⟨js, hjs, rfl⟩ := (reads_joins table).sound hjoin
    obtain ⟨front, hfront, rfl, ht⟩ := asks_conditions.sound h
    rw [(expect_ok_iff (by simp)).1 hselect, (expect_ok_iff (by simp)).1 hfrom]
    exact ⟨_, .select hcs hns hjs hfront, by simp, ht⟩
  · cases h

theorem sound_inUpdate (h : update.runOn ts = (.error (missing t), rest)) :
    ∃ front, InStatement front ∧ ts = front ++ rest ∧ ahead rest = t := by
  simp only [update, bind_error_iff] at h
  obtain h | ⟨_, us, hupdate, h | ⟨table, vs, hname, h | ⟨_, ws, hset, h | ⟨assignments, xs,
    hassigned, h | ⟨conditions, ys, hwhere, h⟩⟩⟩⟩⟩ := h
  · exact absurd h (NeverAsks.expect _ _ _ _)
  · exact absurd h (NeverAsks.name _ _ _)
  · exact absurd h (NeverAsks.expect _ _ _ _)
  · obtain ⟨ns, hns, rfl⟩ := reads_name.sound hname
    obtain ⟨front, hfront, rfl, ht⟩ := asks_assignments.sound h
    rw [(expect_ok_iff (by simp)).1 hupdate, (expect_ok_iff (by simp)).1 hset]
    exact ⟨_, .assignment hns hfront, by simp, ht⟩
  · obtain ⟨ns, hns, rfl⟩ := reads_name.sound hname
    obtain ⟨as, has, rfl⟩ := reads_assignments.sound hassigned
    obtain ⟨front, hfront, rfl, ht⟩ := asks_conditions.sound h
    rw [(expect_ok_iff (by simp)).1 hupdate, (expect_ok_iff (by simp)).1 hset]
    exact ⟨_, .update hns has hfront, by simp, ht⟩
  · cases h

theorem sound_inDelete (h : delete.runOn ts = (.error (missing t), rest)) :
    ∃ front, InStatement front ∧ ts = front ++ rest ∧ ahead rest = t := by
  simp only [delete, bind_error_iff] at h
  obtain h | ⟨_, us, hdelete, h | ⟨_, vs, hfrom, h | ⟨table, ws, hname,
    h | ⟨conditions, xs, hwhere, h⟩⟩⟩⟩ := h
  · exact absurd h (NeverAsks.expect _ _ _ _)
  · exact absurd h (NeverAsks.expectAfter _ _ _ _ _)
  · exact absurd h (NeverAsks.name _ _ _)
  · obtain ⟨ns, hns, rfl⟩ := reads_name.sound hname
    obtain ⟨front, hfront, rfl, ht⟩ := asks_conditions.sound h
    rw [(expect_ok_iff (by simp)).1 hdelete, expectAfter_ok_iff.1 hfrom]
    exact ⟨_, .delete hns hfront, by simp, ht⟩
  · cases h

theorem NeverAsks.dropTable : NeverAsks dropTable :=
  (expect _).bind fun _ => (expectAfter _ _).bind fun _ => (guardedName _).bind fun _ => pure _

theorem NeverAsks.showTables : NeverAsks showTables :=
  (expect _).bind fun _ => (expectAfter _ _).bind fun _ => pure _

theorem NeverAsks.describe : NeverAsks describe :=
  advance.bind fun _ => name.bind fun _ => pure _

theorem ahead_inWhere (h : InWhere ts) (rest : List Token) :
    ahead (ts ++ rest) = .keyword .whereWord := by
  cases h
  rfl

theorem asks_statement : Asks statement InStatement where
  sound h := by
    rw [statement, runOn_current_bind] at h
    split at h
    · exact sound_inCreateTable h
    · exact absurd h (NeverAsks.dropTable _ _ _)
    · exact sound_inInsert h
    · exact sound_inSelect h
    · exact sound_inUpdate h
    · exact sound_inDelete h
    · exact absurd h (NeverAsks.showTables _ _ _)
    · exact absurd h (NeverAsks.describe _ _ _)
    · exact absurd h (NeverAsks.describe _ _ _)
    · cases h
    · cases h
  complete {_ rest} h none := by
    rw [statement, runOn_current_bind]
    cases h with
    | createTable named declared =>
      simp [createTable, runOn_bind, (reads_guardedName _).complete named,
        asks_columnDefs.complete declared none]
    | @insert ns cs vs table columns named target values =>
      have targetRead : Parser.target.runOn (cs ++ .keyword .values :: (vs ++ rest)) =
          (.ok columns, .keyword .values :: (vs ++ rest)) :=
        reads_target.complete target (by simp)
      simp [insert, runOn_bind, reads_name.complete named, targetRead,
        asks_rows.complete values none]
    | @select cs ns js ws columns table join selected named joined filtered =>
      have columnsRead (ts : List Token) :
          selection.runOn (cs ++ .keyword .fromWord :: ts) =
            (.ok columns, .keyword .fromWord :: ts) :=
        reads_selection.complete selected (by simp)
      have unjoined : EndsTable (ahead (ws ++ rest)) := by
        simp [ahead_inWhere filtered, EndsTable]
      simp [select, runOn_bind, columnsRead, reads_name.complete named,
        (reads_joins table).complete joined unjoined, asks_conditions.complete filtered none]
    | assignment named assigned =>
      simp [update, runOn_bind, reads_name.complete named,
        asks_assignments.complete assigned none]
    | @update ns as ws table assignments named assigned filtered =>
      have last : ahead (ws ++ rest) ≠ .comma := by
        simp [ahead_inWhere filtered]
      simp [update, runOn_bind, reads_name.complete named,
        reads_assignments.complete assigned ⟨trivial, last⟩,
        asks_conditions.complete filtered none]
    | delete named filtered =>
      simp [delete, runOn_bind, reads_name.complete named, asks_conditions.complete filtered none]

theorem asks_single : Asks single InStatement :=
  asks_statement.before fun _ => (NeverAsks.accept _).bind fun _ => (NeverAsks.at? _).bind fun _ =>
    (NeverAsks.pure _).ite (NeverAsks.unexpected (by simp))

/-! ## Scripts -/

theorem starts_inStatement (h : InStatement ts) : ∃ k us, ts = .keyword k :: us := by
  cases h <;> exact ⟨_, _, rfl⟩

theorem sound_inScript {n : Nat} (h : (statementsUpTo n).runOn ts = (.error (missing t), rest)) :
    ∃ front, InScript front ∧ ts = front ++ rest ∧ ahead rest = t := by
  induction hlen : ts.length using Nat.strongRecOn generalizing n ts with
  | _ len ih =>
    obtain _ | n := n
    · cases h
    by_cases semicolon : ahead ts = .semicolon
    · have hts := eq_cons_of_ahead semicolon (by simp)
      rw [hts, List.length_cons] at hlen
      rw [hts, runOn_statementsUpTo_semicolon] at h
      obtain ⟨front, hfront, tail, ht⟩ := ih _ (by omega) h rfl
      exact ⟨_, .skip hfront, by rw [hts, tail]; rfl, ht⟩
    rw [statementsUpTo, runOn_skip_bind _ semicolon, runOn_at?_bind] at h
    split at h
    · cases h
    · simp only [bind_error_iff, runOn_at?_bind] at h
      obtain h | ⟨s, vs, hs, h⟩ := h
      · obtain ⟨front, hfront, rfl, ht⟩ := asks_statement.sound h
        exact ⟨front, .here hfront, rfl, ht⟩
      · obtain ⟨body, hbody, rfl⟩ := reads_statement.sound hs
        split at h
        · simp only [bind_error_iff] at h
          obtain h | ⟨ss, ws, -, h⟩ := h
          · by_cases more : ahead vs = .semicolon
            · have hvs := eq_cons_of_ahead more (by simp)
              rw [hvs] at h hlen ⊢
              simp only [List.length_append, List.length_cons] at hlen
              obtain _ | n := n
              · cases h
              rw [runOn_statementsUpTo_semicolon] at h
              obtain ⟨front, hfront, tail, ht⟩ := ih _ (by omega) h rfl
              exact ⟨_, .later hbody hfront, by simp [← tail], ht⟩
            · have last : ahead vs = .endOfInput := by simp_all
              rw [runOn_statementsUpTo_end n last] at h
              cases h
          · cases h
        · cases h

theorem complete_inScript {n : Nat} {front : List Token} (h : InScript front)
    (bound : front.length < n) (none : ∀ v, ¬ IsValue [ahead rest] v) :
    (statementsUpTo n).runOn (front ++ rest) = (.error (missing (ahead rest)), rest) := by
  induction h generalizing n with
  | @here ts h =>
    obtain _ | n := n
    · omega
    obtain ⟨k, us, hts⟩ := starts_inStatement h
    have first : ahead (ts ++ rest) = .keyword k := by rw [hts]; rfl
    rw [statementsUpTo, runOn_skip_bind _ (by simp [first]), runOn_at?_bind,
      if_neg (by simp [first]), runOn_bind, asks_statement.complete h none]
  | skip _ ih =>
    obtain _ | n := n
    · omega
    rw [List.cons_append, runOn_statementsUpTo_semicolon]
    exact ih (by simp at bound; omega)
  | @later ts us s h _ ih =>
    simp only [List.length_append, List.length_cons] at bound
    obtain _ | _ | n := n
    · omega
    · omega
    rw [List.append_assoc, List.cons_append, runOn_statementsUpTo_statement h (.inr rfl),
      runOn_map, runOn_statementsUpTo_semicolon, ih (by omega)]

theorem asks_script : Asks script InScript where
  sound h := by
    rw [script, runOn_get_bind] at h
    exact sound_inScript h
  complete h none := by
    rw [script, runOn_get_bind]
    exact complete_inScript h (by rw [List.length_append]; omega) none

end Parser
end Sql
end PocketSql
