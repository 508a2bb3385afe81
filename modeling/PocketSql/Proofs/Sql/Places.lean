import PocketSql.Proofs.Sql.ValueTokens

/-!
# Tokens in the place of others

A token of a statement cannot be replaced by another one, and the statement stay the same, but at
two places. At the start of an item of a list in parentheses, where names of columns stand, a
keyword may be replaced by the name that it stands for; and of the arguments of a type only the
texts count.

## Main definitions

* `Place` — where in a statement a token stands.
* `Place.Allows` — one token may stand at a place where another one is meant.
* `Agrees` — tokens that may stand where others are meant.

## Main results

* `keeps_statement` — a statement is the same one with such tokens.
-/

namespace PocketSql
namespace Sql
namespace Grammar

/-! ## Places -/

/-- Where in a statement a token stands. -/
inductive Place where
  /-- Outside of parentheses. -/
  | outside
  /-- At the start of an item of a list in parentheses. -/
  | start
  /-- Behind the start of an item. -/
  | item
  /-- Among the arguments of a type. -/
  | arguments
  deriving DecidableEq, Repr

namespace Place

/-- The place behind a token. -/
def after : Place → Token → Place
  | outside, .openParen => start
  | outside, _ => outside
  | arguments, .closeParen => item
  | arguments, _ => arguments
  | _, .openParen => arguments
  | _, .closeParen => outside
  | _, .comma => start
  | _, _ => item

/-- The place behind tokens in a row. -/
def afterAll (p : Place) (ts : List Token) : Place := ts.foldl after p

@[simp] theorem afterAll_nil (p : Place) : p.afterAll [] = p := rfl

@[simp] theorem afterAll_cons (p : Place) (t : Token) (ts : List Token) :
    p.afterAll (t :: ts) = (p.after t).afterAll ts := rfl

@[simp] theorem afterAll_append (p : Place) (ts us : List Token) :
    p.afterAll (ts ++ us) = (p.afterAll ts).afterAll us := List.foldl_append

/-- Where each token keeps the place, so do all of them. -/
theorem afterAll_of_still {p : Place} {ts : List Token} (still : ∀ t ∈ ts, p.after t = p) :
    p.afterAll ts = p := by
  induction ts with
  | nil => rfl
  | cons t ts ih =>
    rw [List.forall_mem_cons] at still
    rw [afterAll_cons, still.1, ih still.2]

theorem outside_after {t : Token} (h : t ≠ .openParen) : outside.after t = outside := by
  unfold after
  split <;> simp_all

theorem arguments_after {t : Token} (h : t ≠ .closeParen) : arguments.after t = arguments := by
  unfold after
  split <;> simp_all

theorem afterAll_arguments {ts : List Token} (closed : .closeParen ∉ ts) :
    arguments.afterAll ts = .arguments :=
  afterAll_of_still fun _ ht => arguments_after (ne_of_mem_of_not_mem ht closed)

/-- The second token may stand at a place where the first one is meant. -/
def Allows (p : Place) (t t' : Token) : Prop :=
  t' = t ∨
    match p with
    | start => t.name?.map Token.name = some t'
    | arguments => t'.text = t.text ∧ ∀ u ∈ [t, t'], u ∉ [.comma, .closeParen, .endOfInput]
    | _ => False

theorem Allows.refl (p : Place) (t : Token) : p.Allows t t := .inl rfl

instance (p : Place) (t t' : Token) : Decidable (p.Allows t t') :=
  match p with
  | outside | item => inferInstanceAs (Decidable (_ ∨ False))
  | start => inferInstanceAs (Decidable (_ ∨ _ = _))
  | arguments => inferInstanceAs (Decidable (_ ∨ _ ∧ _))

end Place

/-! ## Agreement -/

/-- Tokens that may stand from a place on where others are meant. -/
inductive Agrees : Place → List Token → List Token → Prop
  | nil (p : Place) : Agrees p [] []
  | cons {p : Place} {t t' : Token} {ts ts' : List Token} (allowed : p.Allows t t')
      (rest : Agrees (p.after t) ts ts') : Agrees p (t :: ts) (t' :: ts')

variable {α : Type} {p q : Place} {ts ts' us : List Token}

theorem Agrees.eq_nil (h : Agrees p [] ts') : ts' = [] := by
  cases h
  rfl

theorem Agrees.of_append (h : Agrees p (ts ++ us) ts') :
    ∃ vs ws, ts' = vs ++ ws ∧ Agrees p ts vs ∧ Agrees (p.afterAll ts) us ws := by
  induction ts generalizing p ts' with
  | nil => exact ⟨[], ts', rfl, .nil p, h⟩
  | cons t ts ih =>
    cases h with
    | cons allowed rest =>
      obtain ⟨vs, ws, rfl, first, second⟩ := ih rest
      exact ⟨_ :: vs, ws, rfl, .cons allowed first, second⟩

/-- Within an item and outside of parentheses, a token stays the same. -/
theorem Agrees.of_cons {t : Token} (h : Agrees p (t :: ts) ts') (fixed : p = .outside ∨ p = .item) :
    ∃ us, ts' = t :: us ∧ Agrees (p.after t) ts us := by
  cases h with
  | cons allowed rest =>
    obtain rfl | rfl := fixed <;>
    · obtain rfl : _ = t := by simpa [Place.Allows] using allowed
      exact ⟨_, rfl, rest⟩

theorem Agrees.of_keyword {k : Keyword} (h : Agrees .outside (.keyword k :: ts) ts') :
    ∃ us, ts' = .keyword k :: us ∧ Agrees .outside ts us := h.of_cons (.inl rfl)

/-- Where the place stays one within an item or outside of parentheses, nothing changes. -/
theorem Agrees.eq_of_still (h : Agrees p ts ts') (fixed : p = .outside ∨ p = .item)
    (still : ∀ t ∈ ts, p.after t = p) : ts' = ts := by
  induction ts generalizing ts' with
  | nil => exact h.eq_nil
  | cons t ts ih =>
    rw [List.forall_mem_cons] at still
    obtain ⟨us, rfl, behind⟩ := h.of_cons fixed
    rw [still.1] at behind
    rw [ih behind still.2]

/-- What has no parentheses stays the same outside of them. -/
theorem Agrees.eq_of_outside (h : Agrees .outside ts ts') (none : .openParen ∉ ts) : ts' = ts :=
  h.eq_of_still (.inl rfl) fun _ ht => Place.outside_after (ne_of_mem_of_not_mem ht none)

/-- A phrase that starts at a place and ends at another one is the same with tokens that may stand
there. -/
structure Keeps (p q : Place) (phrase : List Token → α → Prop) : Prop where
  ends : ∀ {ts a}, phrase ts a → p.afterAll ts = q
  agrees : ∀ {ts ts' a}, phrase ts a → Agrees p ts ts' → phrase ts' a

namespace Keeps

variable {item : List Token → α → Prop} {a : α}

/-- Where a phrase is followed by other tokens. -/
theorem split (h : Keeps p q item) (ha : item ts a) (agrees : Agrees p (ts ++ us) ts') :
    ∃ vs ws, ts' = vs ++ ws ∧ item vs a ∧ Agrees q us ws := by
  obtain ⟨vs, ws, rfl, first, second⟩ := agrees.of_append
  rw [h.ends ha] at second
  exact ⟨vs, ws, rfl, h.agrees ha first, second⟩

theorem of_still (fixed : p = .outside ∨ p = .item)
    (still : ∀ {ts a}, item ts a → ∀ t ∈ ts, p.after t = p) : Keeps p p item where
  ends h := Place.afterAll_of_still (still h)
  agrees h agrees := by rwa [agrees.eq_of_still fixed (still h)]

theorem list (h : Keeps p q item) (fixed : q = .outside ∨ q = .item) {separator : Token}
    (back : q.after separator = p) : Keeps p q (IsList separator item) where
  ends hs := by
    induction hs with
    | one ha => exact h.ends ha
    | more ha _ ih => rw [Place.afterAll_append, h.ends ha, Place.afterAll_cons, back, ih]
  agrees {ts ts' as} hs agrees := by
    induction hs generalizing ts' with
    | one ha => exact .one (h.agrees ha agrees)
    | more ha _ ih =>
      obtain ⟨vs, ws, rfl, first, second⟩ := h.split ha agrees
      obtain ⟨us, rfl, behind⟩ := second.of_cons fixed
      rw [back] at behind
      exact .more first (ih behind)

theorem sequence (h : Keeps p p item) : Keeps p p (IsSequence item) where
  ends hs := by
    induction hs with
    | nil => rfl
    | cons ha _ ih => rw [Place.afterAll_append, h.ends ha, ih]
  agrees {ts ts' as} hs agrees := by
    induction hs generalizing ts' with
    | nil =>
      rw [agrees.eq_nil]
      exact .nil
    | cons ha _ ih =>
      obtain ⟨vs, ws, rfl, first, second⟩ := h.split ha agrees
      exact .cons first (ih second)

theorem tuple (h : Keeps .start .item item) : Keeps .outside .outside (IsTuple item) where
  ends hs := by
    obtain ⟨hs⟩ := hs
    rename_i ts
    calc Place.outside.afterAll (.openParen :: ts ++ [.closeParen])
        = (Place.start.afterAll ts).after .closeParen := Place.afterAll_append _ _ _
      _ = .outside := by rw [(h.list (.inr rfl) rfl).ends hs]; rfl
  agrees hs agrees := by
    obtain ⟨hs⟩ := hs
    obtain ⟨us, rfl, behind⟩ := agrees.of_cons (.inl rfl)
    obtain ⟨vs, ws, rfl, inside, closing⟩ := (h.list (.inr rfl) rfl).split hs behind
    obtain ⟨us, rfl, none⟩ := closing.of_cons (.inr rfl)
    rw [none.eq_nil]
    exact .mk inside

/-- What has no parentheses stays outside of them. -/
theorem of_outside (none : ∀ {ts a}, item ts a → .openParen ∉ ts) :
    Keeps .outside .outside item :=
  of_still (.inl rfl) fun h _ ht => Place.outside_after (ne_of_mem_of_not_mem ht (none h))

end Keeps

/-! ## Names, types and values -/

theorem keeps_name : Keeps .start .item IsName where
  ends h := by cases h <;> rfl
  agrees h agrees := by
    cases h with
    | word =>
      cases agrees with
      | cons allowed none =>
        rw [none.eq_nil]
        obtain rfl | named := allowed
        · exact .word _
        · cases named
          exact .word _
    | keyword k free =>
      cases agrees with
      | cons allowed none =>
        rw [none.eq_nil]
        obtain rfl | named := allowed
        · exact .keyword k free
        · simp only [Token.name?, Keyword.name?, free] at named
          cases named
          exact .word _

/-- At the start of an item a value stays the same, as it is no keyword that stands for a name. -/
theorem keeps_value : Keeps .start .item IsValue where
  ends h := by cases h <;> rfl
  agrees {ts ts' v} h agrees := by
    suffices unchanged : ts' = ts by rwa [unchanged]
    cases h <;>
    · cases agrees with
      | cons allowed none =>
        rw [none.eq_nil]
        obtain rfl | named := allowed
        · rfl
        · cases named <;> rfl

/-- Of the arguments of a type the texts stay the same. -/
theorem Agrees.arguments (h : Agrees .arguments ts ts') (closed : .closeParen ∉ ts)
    (ended : .endOfInput ∉ ts) :
    .closeParen ∉ ts' ∧ .endOfInput ∉ ts' ∧
      (ts'.filter (· ≠ .comma)).map Token.text = (ts.filter (· ≠ .comma)).map Token.text := by
  induction ts generalizing ts' with
  | nil => simp [h.eq_nil]
  | cons t ts ih =>
    rw [List.mem_cons, not_or] at closed ended
    cases h with
    | @cons _ _ t' _ us allowed behind =>
      rw [Place.arguments_after (Ne.symm closed.1)] at behind
      obtain ⟨closed', ended', texts⟩ := ih behind closed.2 ended.2
      rw [List.mem_cons, List.mem_cons, not_or, not_or]
      obtain rfl | ⟨text, counts⟩ := allowed
      · refine ⟨⟨closed.1, closed'⟩, ⟨ended.1, ended'⟩, ?_⟩
        by_cases comma : t' = .comma <;> simpa [comma] using texts
      · have old := counts t (by simp)
        have new := counts t' (by simp)
        simp only [List.mem_cons, List.not_mem_nil, or_false, not_or] at old new
        refine ⟨⟨Ne.symm new.2.1, closed'⟩, ⟨Ne.symm new.2.2, ended'⟩, ?_⟩
        simpa [old.1, new.1, text] using texts

theorem keeps_typeWord : Keeps .item .item IsTypeWord where
  ends h := by
    cases h with
    | bare => rfl
    | @withArguments word ts closed _ =>
      calc Place.item.afterAll (.name word :: .openParen :: ts ++ [.closeParen])
          = (Place.arguments.afterAll ts).after .closeParen := Place.afterAll_append _ _ _
        _ = .item := by rw [Place.afterAll_arguments closed]; rfl
  agrees h agrees := by
    cases h with
    | bare =>
      obtain ⟨us, rfl, none⟩ := agrees.of_cons (.inr rfl)
      rw [none.eq_nil]
      exact .bare _
    | @withArguments word ts closed ended =>
      have place : (Place.item.after (.name word)).after .openParen = .arguments := rfl
      obtain ⟨us, rfl, opened⟩ := agrees.of_cons (.inr rfl)
      obtain ⟨us, rfl, behind⟩ := opened.of_cons (.inr rfl)
      rw [place] at behind
      obtain ⟨vs, ws, rfl, inside, closing⟩ := behind.of_append
      obtain ⟨closed', ended', texts⟩ := inside.arguments closed ended
      rw [Place.afterAll_arguments closed] at closing
      cases closing with
      | cons allowed none =>
        obtain rfl | ⟨-, counts⟩ := allowed
        · rw [none.eq_nil, ← texts]
          exact .withArguments _ closed' ended'
        · simp at counts

theorem keeps_columnDef : Keeps .start .item (IsColumnDef .full) := by
  have constraint : Keeps .item .item (IsConstraint .full) := by
    refine .of_still (.inr rfl) fun h => ?_
    cases h with
    | default h => cases h <;> simp [Place.after]
    | _ => simp [Place.after]
  constructor
  · intro ts d h
    obtain ⟨named, ⟨words, -⟩, constrained⟩ := h
    rw [Place.afterAll_append, keeps_name.ends named, Place.afterAll_append,
      keeps_typeWord.sequence.ends words, constraint.sequence.ends constrained]
  · intro ts ts' d h agrees
    obtain ⟨named, ⟨words, some⟩, constrained⟩ := h
    obtain ⟨vs, ws, rfl, named', behind⟩ := keeps_name.split named agrees
    obtain ⟨us, ws, rfl, words', behind'⟩ := keeps_typeWord.sequence.split words behind
    exact .mk named' (.words words' some) (constraint.sequence.agrees constrained behind')

theorem keeps_target : Keeps .outside .outside (IsTarget .full) where
  ends h := by
    cases h with
    | all => rfl
    | columns h => exact keeps_name.tuple.ends h
  agrees h agrees := by
    cases h with
    | all =>
      rw [agrees.eq_nil]
      exact .all
    | columns h => exact .columns (keeps_name.tuple.agrees h agrees)

/-! ## Statements -/

theorem paren_not_mem_name {s : String} (h : IsName ts s) : .openParen ∉ ts := not_mem_name h rfl

theorem paren_not_mem_value {v : Value} (h : IsValue ts v) : .openParen ∉ ts := by
  cases h <;> simp

theorem paren_not_mem_reference {column : String} (h : IsReference .full ts column) :
    .openParen ∉ ts := not_mem_reference h rfl (by simp)

theorem paren_not_mem_where {cs : List Condition} (h : IsWhere .full ts cs) : .openParen ∉ ts := by
  have condition {ts : List Token} {c : Condition} (h : IsCondition .full ts c) :
      .openParen ∉ ts := by
    obtain ⟨op, left, right⟩ := h
    simp [paren_not_mem_reference left, paren_not_mem_value right]
  cases h with
  | missing => simp
  | clause h => simp [not_mem_list h condition (by simp)]

theorem paren_not_mem_joins {table : String} {j : Option JoinClause}
    (h : IsJoins .full table ts j) : .openParen ∉ ts := by
  have kind {ts : List Token} {kind : JoinKind} (h : IsJoinKind ts kind) : .openParen ∉ ts := by
    cases h <;> simp
  have column {ts : List Token} {r : String × String} (h : IsQualified .full ts r) :
      .openParen ∉ ts := by
    obtain ⟨first, second⟩ := h
    simp [paren_not_mem_name first, paren_not_mem_name second]
  cases h with
  | missing => simp
  | clause h =>
    cases h with
    | direct head named first second | swapped head named first second =>
      simp [kind head, paren_not_mem_name named, column first, column second]

theorem paren_not_mem_selection {columns : List String} (h : IsSelection .full ts columns) :
    .openParen ∉ ts := by
  cases h with
  | all => simp
  | columns h => exact not_mem_list h paren_not_mem_reference (by simp)

theorem paren_not_mem_guarded {guard : List Token} {r : String × Bool}
    (h : IsGuarded .full guard ts r) (words : .openParen ∉ guard) : .openParen ∉ ts := by
  cases h with
  | bare h => exact paren_not_mem_name h
  | guarded h => simp [words, paren_not_mem_name h]

theorem paren_not_mem_assignment {a : String × Value} (h : IsAssignment .full ts a) :
    .openParen ∉ ts := by
  obtain ⟨left, right⟩ := h
  simp [paren_not_mem_name left, paren_not_mem_value right]

theorem IsStatement.kept {s : Statement} (h : IsStatement .full ts s) :
    Place.outside.afterAll ts = .outside ∧
      ∀ ts', Agrees .outside ts ts' → IsStatement .full ts' s := by
  have unchanged (none : .openParen ∉ ts) : Place.outside.afterAll ts = .outside ∧
      ∀ ts', Agrees .outside ts ts' → IsStatement .full ts' s := by
    refine ⟨Place.afterAll_of_still fun t ht => ?_, fun ts' agrees => ?_⟩
    · exact Place.outside_after (ne_of_mem_of_not_mem ht none)
    · rwa [agrees.eq_of_outside none]
  -- only statements that create tables and insert rows have parentheses
  cases h with
  | @createTable ns ts _ _ _ named declared =>
    have table : Keeps .outside .outside
        (IsGuarded .full [.keyword .notWord, .keyword .existsWord]) :=
      .of_outside fun h => paren_not_mem_guarded h (by simp)
    have columns := keeps_columnDef.tuple
    refine ⟨?_, fun ts' agrees => ?_⟩
    · calc Place.outside.afterAll (.keyword .create :: .keyword .table :: (ns ++ ts))
          = (Place.outside.afterAll ns).afterAll ts := Place.afterAll_append _ _ _
        _ = .outside := by rw [table.ends named, columns.ends declared]
    · obtain ⟨us, rfl, behind⟩ := agrees.of_keyword
      obtain ⟨us, rfl, declaration⟩ := behind.of_keyword
      obtain ⟨us, ws, rfl, named', list⟩ := table.split named declaration
      exact .createTable named' (columns.agrees declared list)
  | @insert ns cs vs _ _ _ named target values =>
    have table : Keeps .outside .outside IsName := .of_outside paren_not_mem_name
    have rows : Keeps .outside .outside (IsList .comma (IsTuple IsValue)) :=
      keeps_value.tuple.list (.inl rfl) rfl
    refine ⟨?_, fun ts' agrees => ?_⟩
    · calc Place.outside.afterAll
            (.keyword .insert :: .keyword .into :: (ns ++ (cs ++ .keyword .values :: vs)))
          = (Place.outside.afterAll ns).afterAll (cs ++ .keyword .values :: vs) :=
            Place.afterAll_append _ _ _
        _ = (Place.outside.afterAll cs).afterAll (.keyword .values :: vs) := by
            rw [table.ends named, Place.afterAll_append]
        _ = Place.outside.afterAll vs := by rw [keeps_target.ends target]; rfl
        _ = .outside := rows.ends values
    · obtain ⟨us, rfl, behind⟩ := agrees.of_keyword
      obtain ⟨us, rfl, insertion⟩ := behind.of_keyword
      obtain ⟨us, ws, rfl, named', source⟩ := table.split named insertion
      obtain ⟨us, ws, rfl, target', clause⟩ := keeps_target.split target source
      obtain ⟨us, rfl, list⟩ := clause.of_keyword
      exact .insert named' target' (rows.agrees values list)
  | dropTable named => exact unchanged (by simp [paren_not_mem_guarded named (by simp)])
  | select selected named joined filtered =>
    exact unchanged (by simp [paren_not_mem_selection selected, paren_not_mem_name named,
      paren_not_mem_joins joined, paren_not_mem_where filtered])
  | update named assigned filtered =>
    exact unchanged (by simp [paren_not_mem_name named, paren_not_mem_where filtered,
      not_mem_list assigned paren_not_mem_assignment])
  | delete named filtered =>
    exact unchanged (by simp [paren_not_mem_name named, paren_not_mem_where filtered])
  | showTables => exact unchanged (by simp)
  | describe _ _ named => exact unchanged (by simp [paren_not_mem_name named])

/-- **A statement is the same one with tokens that may stand where others are meant.** -/
theorem keeps_statement : Keeps .outside .outside (IsStatement .full) :=
  ⟨fun h => h.kept.1, fun h => h.kept.2 _⟩

end Grammar
end Sql
end PocketSql
