import PocketSql.Proofs.Sql.Script

/-!
# The loops of the parser come to an end

The loops of the parser have a bound on their turns, which is above the number of tokens. It is no
bound: a turn goes on only when it has taken a token. What a loop does without a bound is told by
an equation, one turn and then the loop again; and that each turn takes a token makes the loop the
one solution of its equation.

## Main definitions

* `TakesTokens` — a turn goes on with fewer tokens only.
* `separatedTurn`, `typeWordsTurn`, `constraintsTurn`, `statementsTurn` — the turns of the parser.
* `LoopsEnd` — each loop of the parser is the one solution of its equation.

## Main results

* `TakesTokens.eq_iff` — a loop whose turns take tokens is the one solution of its equation.
* `loopsEnd` — so are the loops of the parser.
* `length_script_le` — statements and semicolons are not more than the tokens that are taken.
-/

namespace PocketSql
namespace Sql

open Grammar

namespace Parser

/-! ## Loops -/

section
variable {σ α β : Type}

/-- A loop with a bound above the number of tokens. -/
def unbounded (loop : Nat → Parser α) : Parser α := do loop ((← get).length + 1)

/-- A turn of a loop goes on with fewer tokens only: what it does depends on no other. -/
def TakesTokens (turn : (σ → Parser α) → σ → Parser α) : Prop :=
  ∀ {again again' : σ → Parser α} {ts : List Token},
    (∀ s us, us.length < ts.length → (again s).runOn us = (again' s).runOn us) →
      ∀ s, (turn again s).runOn ts = (turn again' s).runOn ts

namespace TakesTokens

variable {turn : (σ → Parser α) → σ → Parser α} (takes : TakesTokens turn)
include takes

theorem unique {again again' : σ → Parser α} (h : again = turn again) (h' : again' = turn again') :
    again = again' := by
  have same (ts : List Token) : ∀ s, (again s).runOn ts = (again' s).runOn ts := by
    induction hn : ts.length using Nat.strongRecOn generalizing ts with
    | _ n ih =>
      intro s
      rw [h, h']
      exact takes (fun s us shorter => ih _ (hn ▸ shorter) us rfl s) s
  funext s ts
  exact same ts s

variable {loop : Nat → σ → Parser α} (step : ∀ n s, loop (n + 1) s = turn (loop n) s)
include step

/-- Any two bounds above the number of tokens give the same. -/
theorem bound {n m : Nat} {ts : List Token} (hn : ts.length < n) (hm : ts.length < m) (s : σ) :
    (loop n s).runOn ts = (loop m s).runOn ts := by
  induction n generalizing m ts s with
  | zero => omega
  | succ n ih =>
    obtain _ | m := m
    · omega
    rw [step, step]
    exact takes (fun s us shorter => ih (by omega) (by omega) s) s

/-- **A loop whose turns take tokens is the one solution of its equation.** -/
theorem eq_iff (again : σ → Parser α) :
    again = turn again ↔ again = fun s => unbounded (loop · s) := by
  have solves : (fun s => unbounded (loop · s)) = turn fun s => unbounded (loop · s) := by
    funext s ts
    have first : (unbounded (loop · s)).runOn ts = (turn (loop ts.length) s).runOn ts := by
      rw [unbounded, runOn_get_bind, step]
    refine first.trans (takes (fun s us shorter => ?_) s)
    rw [unbounded, runOn_get_bind]
    exact takes.bound step shorter (Nat.lt_succ_self _) s
  constructor
  · intro h
    exact takes.unique h solves
  · rintro rfl
    exact solves

end TakesTokens

/-- The same for a loop without a state. -/
theorem TakesTokens.eq_iff_alone {turn : Parser α → Parser α}
    (takes : TakesTokens fun (again : Unit → Parser α) _ => turn (again ()))
    {loop : Nat → Parser α} (step : ∀ n, loop (n + 1) = turn (loop n)) (again : Parser α) :
    again = turn again ↔ again = unbounded loop := by
  have solution := @takes.eq_iff _ _ _ (fun n _ => loop n) (fun n _ => step n) fun _ => again
  simpa only [funext_iff, forall_const] using solution

/-- What follows a parser matters for the tokens that it leaves. -/
theorem runOn_bind_congr {p : Parser α} {f g : α → Parser β} {ts : List Token}
    (h : ∀ a us, p.runOn ts = (.ok a, us) → (f a).runOn us = (g a).runOn us) :
    (p >>= f).runOn ts = (p >>= g).runOn ts := by
  rw [runOn_bind, runOn_bind]
  cases read : p.runOn ts with
  | mk result us =>
    cases result with
    | error e => rfl
    | ok a => exact h a us read

theorem Sound.length_le {p : Parser α} {phrase : List Token → α → Prop} (sound : Sound p phrase)
    {ts us : List Token} {a : α} (h : p.runOn ts = (.ok a, us)) : us.length ≤ ts.length := by
  obtain ⟨body, -, rfl⟩ := sound h
  simp

end

/-! ## Lists -/

section
variable {α : Type}

/-- One item of a list, and the others behind a separator. -/
def separatedTurn (separator : Token) (item : Parser α) (again : Parser (List α)) :
    Parser (List α) := do
  let a ← item
  if ← accept separator then return a :: (← again) else return [a]

theorem separated_iff {separator : Token} (more : separator ≠ .endOfInput) {item : Parser α}
    {phrase : List Token → α → Prop} (sound : Sound item phrase) (again : Parser (List α)) :
    again = separatedTurn separator item again ↔ again = separated separator item := by
  have takes : TakesTokens fun (again : Unit → _) _ => separatedTurn separator item (again ()) := by
    intro again again' ts same _
    refine runOn_bind_congr fun a us read => runOn_bind_congr fun another vs accepted => ?_
    obtain ⟨rfl, rfl⟩ | ⟨rfl, -, rfl⟩ := (accept_ok_iff more).1 accepted
    · have shorter : vs.length < ts.length := sound.length_le read
      rw [if_pos rfl, if_pos rfl, runOn_bind, runOn_bind, same () vs shorter]
    · rfl
  have step (n : Nat) : separatedUpTo separator item (n + 1) =
      separatedTurn separator item (separatedUpTo separator item n) := rfl
  exact takes.eq_iff_alone step again

/-- The lists that the parser reads, by their separators and items. -/
inductive IsListOf : {α : Type} → Token → Parser α → Prop where
  | columns : IsListOf .comma columnDef
  | names : IsListOf .comma name
  | values : IsListOf .comma value
  | rows : IsListOf .comma (parenthesized value)
  | references : IsListOf .comma columnRef
  | assignments : IsListOf .comma assignment
  | conditions : IsListOf (.keyword .andWord) condition

theorem IsListOf.separated_iff {separator : Token} {item : Parser α}
    (h : IsListOf separator item) (again : Parser (List α)) :
    again = separatedTurn separator item again ↔ again = separated separator item := by
  cases h with
  | columns => exact Parser.separated_iff (by simp) reads_columnDef.sound again
  | names => exact Parser.separated_iff (by simp) reads_name.sound again
  | values => exact Parser.separated_iff (by simp) reads_value.sound again
  | rows =>
    exact Parser.separated_iff (by simp) (reads_value.parenthesized trivial trivial).sound again
  | references => exact Parser.separated_iff (by simp) reads_columnRef.sound again
  | assignments => exact Parser.separated_iff (by simp) reads_assignment.sound again
  | conditions => exact Parser.separated_iff (by simp) reads_condition.sound again

end

/-! ## Types and constraints -/

/-- One word of a type, with its arguments, and the others. -/
def typeWordsTurn (again : Parser (List String)) : Parser (List String) := do
  match ← current with
  | .name word =>
    advance
    if ← accept .openParen then
      let texts ← (arguments : Parser (List String))
      return (word ++ "(" ++ ",".intercalate texts ++ ")") :: (← again)
    else return word :: (← again)
  | _ => return []

theorem typeWords_iff (again : Parser (List String)) :
    again = typeWordsTurn again ↔ again = unbounded typeWords := by
  have takes : TakesTokens fun (again : Unit → _) _ => typeWordsTurn (again ()) := by
    intro again again' ts same _
    dsimp only
    rw [typeWordsTurn, typeWordsTurn, runOn_current_bind, runOn_current_bind]
    split
    · next word ahead =>
      rw [eq_cons_of_ahead ahead (by simp)] at same ⊢
      rw [runOn_advance_bind, runOn_advance_bind]
      refine runOn_bind_congr fun opened us accepted => ?_
      obtain ⟨rfl, rest⟩ | ⟨rfl, -, rfl⟩ := (accept_ok_iff (by simp)).1 accepted
      · refine runOn_bind_congr fun texts vs read => ?_
        obtain ⟨body, rfl, -⟩ := arguments_ok read
        have shorter : vs.length < (.name word :: ts.tail).length := by
          rw [List.tail_cons] at rest
          rw [List.length_cons, rest, List.length_cons, List.length_append, List.length_cons]
          omega
        rw [runOn_bind, runOn_bind, same () vs shorter]
      · simp only [Bool.false_eq_true, if_false, List.tail_cons]
        rw [runOn_bind, runOn_bind, same () ts.tail (by simp)]
    · rfl
  have step (n : Nat) : typeWords (n + 1) = typeWordsTurn (typeWords n) := rfl
  exact takes.eq_iff_alone step again

/-- One constraint of a column, and the others. -/
def constraintsTurn (again : ColumnDef → Parser ColumnDef) (d : ColumnDef) :
    Parser ColumnDef := do
  match ← current with
  | .keyword .primary =>
    advance
    expect (.keyword .key)
    again { d with primaryKey := true, notNull := true }
  | .keyword .unique =>
    advance
    again { d with unique := true }
  | .keyword .notWord =>
    advance
    expect (.keyword .null)
    again { d with notNull := true }
  | .keyword .null =>
    advance
    again d
  | .keyword .default =>
    advance
    again { d with default := some (← value) }
  | _ => return d

theorem constraints_iff (again : ColumnDef → Parser ColumnDef) :
    again = constraintsTurn again ↔ again = fun d => unbounded (constraints · d) := by
  have takes : TakesTokens constraintsTurn := by
    intro again again' ts same d
    -- behind the keyword there are fewer tokens
    have behind {t : Token} (h : ahead ts = t) (more : t ≠ .endOfInput) {us : List Token}
        (left : us.length ≤ ts.tail.length) (d : ColumnDef) :
        (again d).runOn us = (again' d).runOn us := by
      refine same d us ?_
      rw [eq_cons_of_ahead h more, List.length_cons]
      omega
    have word (k : Keyword) (h : ahead ts = .keyword k) (d : ColumnDef) :
        (again d).runOn ts.tail = (again' d).runOn ts.tail :=
      behind h (by simp) (Nat.le_refl _) d
    have words (k k' : Keyword) (h : ahead ts = .keyword k) (d : ColumnDef) :
        (expect (.keyword k') >>= fun _ => again d).runOn ts.tail =
          (expect (.keyword k') >>= fun _ => again' d).runOn ts.tail := by
      refine runOn_bind_congr fun _ us read => behind h (by simp) ?_ d
      rw [(expect_ok_iff (by simp)).1 read, List.length_cons]
      omega
    rw [constraintsTurn, constraintsTurn, runOn_current_bind, runOn_current_bind]
    split
    · next h => exact words _ _ h _
    · next h => exact word _ h _
    · next h => exact words _ _ h _
    · next h => exact word _ h _
    · next h =>
      rw [runOn_advance_bind, runOn_advance_bind]
      exact runOn_bind_congr fun v us read =>
        behind h (by simp) (Sound.length_le reads_value.sound read) _
    · rfl
  exact takes.eq_iff (fun n d => by rw [constraints]; rfl) again

/-! ## Scripts -/

/-- A statement takes a token. -/
theorem length_statement_lt {ts us : List Token} {s : Statement}
    (h : statement.runOn ts = (.ok s, us)) : us.length < ts.length := by
  obtain ⟨body, phrase, rfl⟩ := reads_statement.sound h
  obtain ⟨k, vs, rfl⟩ := phrase.starts
  simp only [List.cons_append, List.length_cons, List.length_append]
  omega

/-- The semicolons in front of a statement, the statement, and the others if it is ended. -/
def statementsTurn (again : Parser (List Statement)) : Parser (List Statement) := do
  modify (List.dropWhile (· = .semicolon))
  if ← at? .endOfInput then return []
  let s ← statement
  if (← at? .semicolon) || (← at? .endOfInput) then return s :: (← again)
  else unexpected .endOfScript

theorem script_iff (again : Parser (List Statement)) :
    again = statementsTurn again ↔ again = script := by
  have takes : TakesTokens fun (again : Unit → _) _ => statementsTurn (again ()) := by
    intro again again' ts same _
    refine runOn_bind_congr fun _ us skipped => ?_
    obtain rfl : ts.dropWhile (· = .semicolon) = us := congrArg Prod.snd skipped
    have left := (List.dropWhile_suffix (· = Token.semicolon) (l := ts)).length_le
    rw [runOn_at?_bind, runOn_at?_bind]
    split
    · rfl
    · refine runOn_bind_congr fun s vs read => ?_
      have shorter := Nat.lt_of_lt_of_le (length_statement_lt read) left
      simp only [runOn_at?_bind]
      split
      · rw [runOn_bind, runOn_bind, same () vs shorter]
      · rfl
  have step (n : Nat) : statementsUpTo (n + 1) = statementsTurn (statementsUpTo n) := rfl
  exact takes.eq_iff_alone step again

/-- **The loops of the parser come to an end**: each of them is the one solution of its equation. -/
structure LoopsEnd : Prop where
  lists : ∀ {α : Type} {separator : Token} {item : Parser α}, IsListOf separator item →
    ∀ again, again = separatedTurn separator item again ↔ again = separated separator item
  typeWords : ∀ again, again = typeWordsTurn again ↔ again = unbounded typeWords
  constraints : ∀ again,
    again = constraintsTurn again ↔ again = fun d => unbounded (constraints · d)
  statements : ∀ again, again = statementsTurn again ↔ again = script

theorem loopsEnd : LoopsEnd :=
  ⟨IsListOf.separated_iff, typeWords_iff, constraints_iff, script_iff⟩

end Parser

/-- Statements start with tokens that are no semicolons. -/
theorem Grammar.IsScript.length_add_count_le {ts : List Token} {ss : List Statement}
    (h : IsScript ts ss) : ss.length + ts.count .semicolon ≤ ts.length := by
  have single {ts : List Token} {s : Statement} (h : IsStatement .full ts s) :
      1 + ts.count .semicolon ≤ ts.length := by
    obtain ⟨k, us, rfl⟩ := h.starts
    have others := us.count_le_length (a := Token.semicolon)
    rw [List.count_cons_of_ne (by simp), List.length_cons]
    omega
  induction h with
  | empty => simp
  | skip _ ih =>
    rw [List.count_cons_self, List.length_cons]
    omega
  | last h => exact single h
  | more h _ ih =>
    have first := single h
    rw [List.count_append, List.count_cons_self, List.length_append, List.length_cons,
      List.length_cons]
    omega

namespace Parser

/-- **A script takes a token for each statement and for each semicolon.** -/
theorem length_script_le {ts rest : List Token} {ss : List Statement}
    (h : script.runOn ts = (.ok ss, rest)) :
    ∃ us, ts = us ++ rest ∧ ss.length + us.count .semicolon ≤ us.length := by
  rw [script, runOn_get_bind] at h
  obtain ⟨us, phrase, hts, -⟩ := sound_statementsUpTo (Nat.lt_succ_self _) h
  exact ⟨us, hts, phrase.length_add_count_le⟩

end Parser

end Sql
end PocketSql
