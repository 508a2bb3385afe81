import PocketSql.Proofs.Sql.Reading

/-!
# The parser accepts its grammar

Each part of the parser reads the phrases of one kind, and names the tokens that may follow them.
-/

namespace PocketSql
namespace Sql

open Grammar

namespace Parser

/-! ## Names and values -/

theorem reads_name : Reads name IsName fun _ => True where
  sound {ts rest s} h := by
    rw [name, runOn_current_bind] at h
    cases ts with
    | nil => cases h
    | cons t ts =>
      cases t with
      | name s' =>
        cases h
        exact ⟨_, .word s, rfl⟩
      | keyword k =>
        cases hk : k.reserved <;> simp [Token.name?, Keyword.name?, hk] at h
        obtain ⟨rfl, rfl⟩ := h
        exact ⟨_, .keyword k hk, rfl⟩
      | _ => cases h
  complete h _ := by
    cases h with
    | word s => rfl
    | keyword k free => simp [name, runOn_bind, Token.name?, Keyword.name?, free]

/-- A name starts with a token that is a name. -/
theorem ahead_name {ts : List Token} {s : String} (h : IsName ts s) (rest : List Token) :
    (ahead (ts ++ rest)).name? = some s := by
  cases h with
  | word => rfl
  | keyword k free => simp [Token.name?, Keyword.name?, free]

theorem reads_value : Reads value IsValue fun _ => True where
  sound {ts rest v} h := by
    rw [value, runOn_current_bind] at h
    cases ts with
    | nil => cases h
    | cons t ts =>
      cases t with
      | number x =>
        cases h
        exact ⟨_, .number x, rfl⟩
      | string s =>
        cases h
        exact ⟨_, .string s, rfl⟩
      | name s =>
        cases h
        exact ⟨_, .word s, rfl⟩
      | keyword k =>
        -- only three keywords are values
        cases k <;> cases h
        · exact ⟨_, .null, rfl⟩
        · exact ⟨_, .trueWord, rfl⟩
        · exact ⟨_, .falseWord, rfl⟩
      | _ => cases h
  complete h _ := by
    cases h <;> rfl

theorem reads_qualifiedColumn : Reads qualifiedColumn (IsQualified .full) fun _ => True where
  sound h := by
    simp only [qualifiedColumn, bind_ok_iff, pure_ok_iff] at h
    obtain ⟨table, us, ht, _, vs, hdot, column, ws, hc, rfl, rfl⟩ := h
    obtain ⟨body, hbody, rfl⟩ := reads_name.sound ht
    obtain ⟨body', hbody', rfl⟩ := reads_name.sound hc
    rw [(expect_ok_iff (by simp)).1 hdot]
    exact ⟨_, .mk hbody hbody', by simp⟩
  complete {_ rest _} h _ := by
    obtain @⟨ts, us, table, column, ht, hc⟩ := h
    have first : name.runOn (ts ++ .dot :: (us ++ rest)) = (.ok table, .dot :: (us ++ rest)) :=
      reads_name.complete ht trivial
    simp [qualifiedColumn, runOn_bind, first, reads_name.complete hc]

theorem reads_columnRef : Reads columnRef (IsReference .full) (· ≠ .dot) where
  sound h := by
    simp only [columnRef, bind_ok_iff] at h
    obtain ⟨first, us, hf, dotted, vs, hdot, h⟩ := h
    obtain ⟨body, hbody, rfl⟩ := reads_name.sound hf
    obtain ⟨rfl, rfl⟩ | ⟨rfl, -, rfl⟩ := (accept_ok_iff (by simp)).1 hdot
    · simp only [if_true, bind_ok_iff, pure_ok_iff] at h
      obtain ⟨column, ws, hc, rfl, rfl⟩ := h
      obtain ⟨body', hbody', rfl⟩ := reads_name.sound hc
      exact ⟨_, .qualified (.mk hbody hbody'), by simp⟩
    · simp only [Bool.false_eq_true, if_false, pure_ok_iff] at h
      obtain ⟨rfl, rfl⟩ := h
      exact ⟨body, .plain hbody, rfl⟩
  complete {_ rest _} h behind := by
    cases h with
    | plain h =>
      simp [columnRef, runOn_bind, reads_name.complete h, runOn_accept_of_ne behind]
    | @qualified table column h =>
      obtain @⟨ts, us, _, _, ht, hc⟩ := h
      have first : name.runOn (ts ++ .dot :: (us ++ rest)) = (.ok table, .dot :: (us ++ rest)) :=
        reads_name.complete ht trivial
      simp [columnRef, runOn_bind, first, reads_name.complete hc]

theorem starts_reference {ts : List Token} {r : String} (h : IsReference .full ts r)
    (rest : List Token) : ∃ s, (ahead (ts ++ rest)).name? = some s := by
  cases h with
  | plain h => exact ⟨_, ahead_name h rest⟩
  | qualified h =>
    obtain ⟨h, _⟩ := h
    rw [List.append_assoc]
    exact ⟨_, ahead_name h _⟩

/-! ## Conditions -/

theorem runOn_comparison_cons (op : Comparison) (ts : List Token) :
    comparison.runOn (.comparison op :: ts) = (.ok op, ts) := rfl

theorem comparison_ok {op : Comparison} {ts rest : List Token}
    (h : comparison.runOn ts = (.ok op, rest)) : ts = .comparison op :: rest := by
  rw [comparison, runOn_current_bind] at h
  cases ts with
  | nil => cases h
  | cons t ts => cases t <;> cases h; rfl

theorem reads_condition : Reads condition (IsCondition .full) fun _ => True where
  sound h := by
    simp only [condition, bind_ok_iff, pure_ok_iff] at h
    obtain ⟨column, us, hc, op, vs, hop, v, ws, hv, rfl, rfl⟩ := h
    obtain ⟨body, hbody, rfl⟩ := reads_columnRef.sound hc
    obtain ⟨body', hbody', rfl⟩ := reads_value.sound hv
    rw [comparison_ok hop]
    exact ⟨_, .mk op hbody hbody', by simp⟩
  complete {_ rest _} h _ := by
    obtain @⟨ts, us, column, v, op, hc, hv⟩ := h
    have first : columnRef.runOn (ts ++ .comparison op :: (us ++ rest)) =
        (.ok column, .comparison op :: (us ++ rest)) :=
      reads_columnRef.complete hc (by simp)
    simp [condition, runOn_bind, first, runOn_comparison_cons, reads_value.complete hv]

theorem reads_conditions :
    Reads conditions (IsWhere .full) fun t => t ≠ .keyword .whereWord ∧ t ≠ .keyword .andWord where
  sound h := by
    simp only [conditions, bind_ok_iff] at h
    obtain ⟨present, us, hw, h⟩ := h
    obtain ⟨rfl, rfl⟩ | ⟨rfl, -, rfl⟩ := (accept_ok_iff (by simp)).1 hw
    · obtain ⟨body, hbody, rfl⟩ := (reads_condition.separated (by simp) trivial).sound h
      exact ⟨_, .clause hbody, rfl⟩
    · simp only [Bool.false_eq_true, if_false, pure_ok_iff] at h
      obtain ⟨rfl, rfl⟩ := h
      exact ⟨[], .missing, rfl⟩
  complete {_ rest _} h behind := by
    cases h with
    | missing => simp [conditions, runOn_bind, runOn_accept_of_ne behind.1]
    | clause h =>
      simp [conditions, runOn_bind,
        (reads_condition.separated (by simp) trivial).complete h ⟨trivial, behind.2⟩]

/-! ## Types -/

/-- The arguments of a type are the tokens in front of the first closing parenthesis. -/
theorem arguments_ok {ts rest : List Token} {texts : List String}
    (h : arguments ts = (.ok texts, rest)) :
    ∃ body, ts = body ++ .closeParen :: rest ∧ .closeParen ∉ body ∧ .endOfInput ∉ body ∧
      texts = (body.filter (· ≠ .comma)).map Token.text := by
  induction ts generalizing texts with
  | nil => cases h
  | cons t ts ih =>
    simp only [arguments] at h
    split at h
    · next ht =>
      cases h
      exact ⟨[], by simp [ht], by simp, by simp, rfl⟩
    · next hclose =>
      split at h
      · cases h
      · next hend =>
        split at h
        · next texts' rest' htail =>
          cases h
          obtain ⟨body, rfl, closed, ended, rfl⟩ := ih htail
          refine ⟨t :: body, rfl, ?_, ?_, ?_⟩
          · simp [closed, Ne.symm hclose]
          · simp [ended, Ne.symm hend]
          · by_cases hc : t = .comma <;> simp [hc]
        · cases h

theorem arguments_append {body : List Token} (closed : .closeParen ∉ body)
    (ended : .endOfInput ∉ body) (rest : List Token) :
    arguments (body ++ .closeParen :: rest) =
      (.ok ((body.filter (· ≠ .comma)).map Token.text), rest) := by
  induction body with
  | nil => simp [arguments]
  | cons t body ih =>
    simp only [List.mem_cons, not_or] at closed ended
    have tail := ih closed.2 ended.2
    simp only [List.cons_append, arguments, tail, Ne.symm closed.1, Ne.symm ended.1, if_false]
    by_cases hc : t = .comma <;> simp [hc]

/-- What may stand behind a type: neither another word nor arguments of the last one. -/
def EndsType (t : Token) : Prop := t ≠ .openParen ∧ ∀ word, t ≠ .name word

theorem sound_typeWords {n : Nat} {ts rest : List Token} {words : List String}
    (bound : ts.length < n) (h : (typeWords n).runOn ts = (.ok words, rest)) :
    ∃ body, IsSequence IsTypeWord body words ∧ ts = body ++ rest := by
  induction n generalizing ts words with
  | zero => omega
  | succ n ih =>
    rw [typeWords, runOn_current_bind] at h
    split at h
    · next word hword =>
      obtain ⟨tail, rfl⟩ : ∃ tail, ts = .name word :: tail :=
        ⟨_, eq_cons_of_ahead hword (by simp)⟩
      simp only [runOn_advance_bind, List.tail_cons, bind_ok_iff] at h
      obtain ⟨opened, vs, hopen, h⟩ := h
      rw [List.length_cons] at bound
      obtain ⟨rfl, rfl⟩ | ⟨rfl, -, rfl⟩ := (accept_ok_iff (by simp)).1 hopen
      · simp only [if_true, bind_ok_iff, pure_ok_iff] at h
        obtain ⟨texts, ws, hargs, words', xs, hwords, rfl, rfl⟩ := h
        obtain ⟨body, rfl, closed, ended, rfl⟩ := arguments_ok hargs
        have shorter : ws.length < n := by
          simp only [List.length_append, List.length_cons] at bound
          omega
        obtain ⟨body', hbody', rfl⟩ := ih shorter hwords
        exact ⟨_, .cons (.withArguments word closed ended) hbody', by simp⟩
      · simp only [Bool.false_eq_true, if_false, bind_ok_iff, pure_ok_iff] at h
        obtain ⟨words', xs, hwords, rfl, rfl⟩ := h
        obtain ⟨body', hbody', rfl⟩ := ih (by omega) hwords
        exact ⟨_, .cons (.bare word) hbody', by simp⟩
    · obtain ⟨rfl, rfl⟩ := pure_ok_iff.1 h
      exact ⟨[], .nil, rfl⟩

theorem complete_typeWords {n : Nat} {body rest : List Token} {words : List String}
    (h : IsSequence IsTypeWord body words) (bound : (body ++ rest).length < n)
    (behind : EndsType (ahead rest)) :
    (typeWords n).runOn (body ++ rest) = (.ok words, rest) := by
  induction h generalizing n with
  | nil =>
    cases n with
    | zero => omega
    | succ n =>
      rw [typeWords, List.nil_append, runOn_current_bind]
      split
      · next word hword => exact absurd hword (behind.2 word)
      · rfl
  | @cons ts us word words hw tail ih =>
    cases n with
    | zero => omega
    | succ n =>
      have shorter : (us ++ rest).length < n := by
        cases hw <;> simp only [List.length_append, List.length_cons] at bound ⊢ <;> omega
      -- the next word, or the token behind the type, is no parenthesis
      have unopened : ahead (us ++ rest) ≠ .openParen := by
        cases tail with
        | nil => exact behind.1
        | cons hw' _ => cases hw' <;> simp
      cases hw with
      | bare =>
        simp [typeWords, runOn_bind, runOn_accept_of_ne unopened, ih shorter]
      | withArguments word closed ended =>
        have args := arguments_append closed ended (us ++ rest)
        change runOn arguments _ = _ at args
        simp [typeWords, runOn_bind, args, ih shorter]

theorem reads_typeName : Reads typeName (IsTypeName .full) EndsType where
  sound h := by
    rw [typeName, runOn_get_bind, bind_ok_iff] at h
    obtain ⟨words, us, hwords, h⟩ := h
    obtain ⟨body, hbody, rfl⟩ := sound_typeWords (Nat.lt_succ_self _) hwords
    split at h
    · cases h
    · next hne =>
      obtain ⟨rfl, rfl⟩ := pure_ok_iff.1 h
      exact ⟨body, .words hbody (by simpa using hne), rfl⟩
  complete h behind := by
    obtain ⟨h, some⟩ := h
    rw [typeName, runOn_get_bind, runOn_bind,
      complete_typeWords h (Nat.lt_succ_self _) behind]
    simp [some]

/-! ## Constraints and columns -/

/-- What may stand behind the constraints of a column: nothing that starts another one. -/
def EndsColumn (t : Token) : Prop :=
  t ∉ [.keyword .primary, .keyword .unique, .keyword .notWord, .keyword .null, .keyword .default]

theorem sound_constraints {n : Nat} {ts rest : List Token} {d d' : ColumnDef}
    (bound : ts.length < n) (h : (constraints n d).runOn ts = (.ok d', rest)) :
    ∃ body cs, IsSequence (IsConstraint .full) body cs ∧ d' = cs.foldl Constraint.add d ∧
      ts = body ++ rest := by
  induction n generalizing ts d with
  | zero => omega
  | succ n ih =>
    -- a constraint that has been taken stands in front of those that follow it
    have further {c : Constraint} {body ts' : List Token} (hc : IsConstraint .full body c)
        (hts : ts = body ++ ts')
        (h : (constraints n (c.add d)).runOn ts' = (.ok d', rest)) :
        ∃ body cs, IsSequence (IsConstraint .full) body cs ∧ d' = cs.foldl Constraint.add d ∧
          ts = body ++ rest := by
      have shorter : ts'.length < n := by
        rw [hts] at bound
        cases hc <;> simp at bound <;> omega
      obtain ⟨body', cs, hbody', hd, rfl⟩ := ih shorter h
      exact ⟨body ++ body', c :: cs, .cons hc hbody', hd, by simp [hts]⟩
    rw [constraints, runOn_current_bind] at h
    split at h
    · next hk =>
      rw [runOn_advance_bind, bind_ok_iff] at h
      obtain ⟨_, us, hkey, h⟩ := h
      have hts := eq_cons_of_ahead hk (by simp)
      rw [(expect_ok_iff (by simp)).1 hkey] at hts
      exact further .primaryKey hts h
    · next hk =>
      rw [runOn_advance_bind] at h
      exact further .unique (eq_cons_of_ahead hk (by simp)) h
    · next hk =>
      rw [runOn_advance_bind, bind_ok_iff] at h
      obtain ⟨_, us, hnull, h⟩ := h
      have hts := eq_cons_of_ahead hk (by simp)
      rw [(expect_ok_iff (by simp)).1 hnull] at hts
      exact further .notNull hts h
    · next hk =>
      rw [runOn_advance_bind] at h
      exact further .null (eq_cons_of_ahead hk (by simp)) h
    · next hk =>
      rw [runOn_advance_bind, bind_ok_iff] at h
      obtain ⟨v, us, hv, h⟩ := h
      obtain ⟨body, hbody, htail⟩ := reads_value.sound hv
      have hts := eq_cons_of_ahead hk (by simp)
      rw [htail] at hts
      exact further (.default hbody) hts h
    · obtain ⟨rfl, rfl⟩ := pure_ok_iff.1 h
      exact ⟨[], [], .nil, rfl, rfl⟩

theorem complete_constraints {n : Nat} {body rest : List Token} {cs : List Constraint}
    {d : ColumnDef} (h : IsSequence (IsConstraint .full) body cs)
    (bound : (body ++ rest).length < n) (behind : EndsColumn (ahead rest)) :
    (constraints n d).runOn (body ++ rest) = (.ok (cs.foldl Constraint.add d), rest) := by
  induction h generalizing n d with
  | nil =>
    cases n with
    | zero => omega
    | succ n =>
      simp only [EndsColumn, List.mem_cons, not_or] at behind
      rw [constraints, List.nil_append, runOn_current_bind]
      split <;> simp_all
  | @cons ts us c cs hc tail ih =>
    cases n with
    | zero => omega
    | succ n =>
      have shorter : (us ++ rest).length < n := by
        cases hc <;> simp only [List.length_append, List.length_cons] at bound ⊢ <;> omega
      cases hc with
      | default hv =>
        simp [constraints, runOn_bind, reads_value.complete hv, ih shorter, Constraint.add]
      | _ => simp [constraints, runOn_bind, ih shorter, Constraint.add]

theorem reads_columnDef :
    Reads columnDef (IsColumnDef .full) fun t => EndsType t ∧ EndsColumn t where
  sound h := by
    simp only [columnDef, bind_ok_iff, runOn_get_bind] at h
    obtain ⟨column, us, hname, type, vs, htype, h⟩ := h
    obtain ⟨body, hbody, rfl⟩ := reads_name.sound hname
    obtain ⟨body', hbody', rfl⟩ := reads_typeName.sound htype
    obtain ⟨body'', cs, hbody'', rfl, rfl⟩ := sound_constraints (Nat.lt_succ_self _) h
    exact ⟨_, .mk hbody hbody' hbody'', by simp⟩
  complete {_ rest _} h behind := by
    obtain @⟨ns, ts, cs, column, type, constraints, hname, htype, hcs⟩ := h
    have ends : EndsType (ahead (cs ++ rest)) := by
      cases hcs with
      | nil => exact behind.1
      | cons hc _ => cases hc <;> simp [EndsType]
    have typed : typeName.runOn (ts ++ (cs ++ rest)) = (.ok type, cs ++ rest) :=
      reads_typeName.complete htype ends
    simp only [columnDef, List.append_assoc, runOn_bind, reads_name.complete hname, typed]
    rw [← runOn_bind, runOn_get_bind]
    exact complete_constraints hcs (Nat.lt_succ_self _) behind.2

theorem reads_columnDefs :
    Reads (parenthesized columnDef) (IsTuple (IsColumnDef .full)) fun _ => True :=
  reads_columnDef.parenthesized (by simp [EndsType, EndsColumn]) (by simp [EndsType, EndsColumn])

/-! ## Joins -/

theorem reads_joinKind : Reads joinKind IsJoinKind (· = .keyword .join) where
  sound {ts rest kind} h := by
    rw [joinKind, runOn_current_bind] at h
    split at h
    · next hk =>
      rw [runOn_advance_bind] at h
      obtain ⟨rfl, rfl⟩ := pure_ok_iff.1 h
      exact ⟨_, .inner, eq_cons_of_ahead hk (by simp)⟩
    · next hk =>
      simp only [runOn_advance_bind, bind_ok_iff] at h
      obtain ⟨outer, us, ho, h⟩ := h
      obtain ⟨rfl, rfl⟩ := pure_ok_iff.1 h
      have hts := eq_cons_of_ahead hk (by simp)
      obtain ⟨-, hu⟩ | ⟨-, -, hu⟩ := (accept_ok_iff (by simp)).1 ho
      · rw [hu] at hts
        exact ⟨_, .leftOuter, hts⟩
      · rw [hu] at hts
        exact ⟨_, .left, hts⟩
    · obtain ⟨rfl, rfl⟩ := pure_ok_iff.1 h
      exact ⟨[], .bare, rfl⟩
  complete {_ rest _} h behind := by
    have alone : (accept (.keyword .outer)).runOn rest = (.ok false, rest) :=
      runOn_accept_of_ne (by simp [behind])
    cases h with
    | bare => simp [joinKind, runOn_current_bind, behind]
    | inner => simp [joinKind, runOn_current_bind]
    | left => simp [joinKind, runOn_current_bind, runOn_advance_bind, alone]
    | leftOuter => simp [joinKind, runOn_current_bind, runOn_advance_bind]

/-- The order of the two columns decides only after everything has been read. -/
theorem runOn_join (table : String) {ks ns ls rs : List Token} {kind : JoinKind} {joined : String}
    {first second : String × String} (hks : IsJoinKind ks kind) (hns : IsName ns joined)
    (hls : IsQualified .full ls first) (hrs : IsQualified .full rs second) (rest : List Token) :
    (join table).runOn
        (ks ++ .keyword .join :: (ns ++ .keyword .on :: (ls ++ .comparison .eq :: rs)) ++ rest) =
      (if first.1 = table ∧ second.1 = joined then pure ⟨kind, joined, first.2, second.2⟩
        else if first.1 = joined ∧ second.1 = table then pure ⟨kind, joined, second.2, first.2⟩
        else throw (.foreignCondition table joined) : Parser JoinClause).runOn rest := by
  have kindRead (ts : List Token) :
      joinKind.runOn (ks ++ .keyword .join :: ts) = (.ok kind, .keyword .join :: ts) :=
    reads_joinKind.complete hks rfl
  simp [join, runOn_bind, kindRead, reads_name.complete hns, reads_qualifiedColumn.complete hls,
    reads_qualifiedColumn.complete hrs]

theorem reads_join (table : String) : Reads (join table) (IsJoin .full table) fun _ => True where
  sound h := by
    simp only [join, bind_ok_iff] at h
    obtain ⟨kind, us, hkind, _, vs, hjoin, joined, ws, hname, _, xs, hon, ⟨ft, fc⟩, ys, hfirst,
      _, zs, heq, ⟨st, sc⟩, rs, hsecond, h⟩ := h
    obtain ⟨ks, hks, rfl⟩ := reads_joinKind.sound hkind
    obtain ⟨ns, hns, rfl⟩ := reads_name.sound hname
    obtain ⟨ls, hls, rfl⟩ := reads_qualifiedColumn.sound hfirst
    obtain ⟨bs, hbs, rfl⟩ := reads_qualifiedColumn.sound hsecond
    rw [(expect_ok_iff (by simp)).1 hjoin, (expect_ok_iff (by simp)).1 hon,
      (expect_ok_iff (by simp)).1 heq]
    dsimp only at h
    split at h
    · next order =>
      obtain ⟨rfl, rfl⟩ := order
      obtain ⟨rfl, rfl⟩ := pure_ok_iff.1 h
      exact ⟨_, .direct hks hns hls hbs, by simp⟩
    · next notDirect =>
      split at h
      · next order =>
        obtain ⟨rfl, rfl⟩ := order
        obtain ⟨rfl, rfl⟩ := pure_ok_iff.1 h
        have other : ft ≠ st := fun same => notDirect ⟨same, same.symm⟩
        exact ⟨_, .swapped hks hns hls hbs other, by simp⟩
      · cases h
  complete h _ := by
    cases h with
    | direct hks hns hls hrs =>
      rw [runOn_join table hks hns hls hrs]
      simp
    | swapped hks hns hls hrs other =>
      rw [runOn_join table hks hns hls hrs]
      simp [other, Ne.symm other]

/-- What may stand behind a table that is selected from: nothing that starts a join. -/
def EndsTable (t : Token) : Prop := t ∉ [.keyword .join, .keyword .inner, .keyword .left]

theorem atJoin_ok_iff {ts rest : List Token} {b : Bool} :
    atJoin.runOn ts = (.ok b, rest) ↔ (b = false ↔ EndsTable (ahead ts)) ∧ ts = rest := by
  rw [atJoin, runOn_current_bind]
  split <;> simp_all [EndsTable]

theorem reads_joins (table : String) : Reads (joins table) (IsJoins .full table) EndsTable where
  sound h := by
    simp only [joins, bind_ok_iff] at h
    obtain ⟨joined, us, hjoin, h⟩ := h
    obtain ⟨-, rfl⟩ := atJoin_ok_iff.1 hjoin
    cases joined with
    | false =>
      obtain ⟨rfl, rfl⟩ := pure_ok_iff.1 h
      exact ⟨[], .missing, rfl⟩
    | true =>
      simp only [if_true, bind_ok_iff] at h
      obtain ⟨clause, vs, hclause, second, ws, hsecond, h⟩ := h
      obtain ⟨-, rfl⟩ := atJoin_ok_iff.1 hsecond
      obtain ⟨body, hbody, rfl⟩ := (reads_join table).sound hclause
      cases second with
      | false =>
        obtain ⟨rfl, rfl⟩ := pure_ok_iff.1 h
        exact ⟨_, .clause hbody, rfl⟩
      | true => cases h
  complete {body rest _} h behind := by
    have last : atJoin.runOn rest = (.ok false, rest) :=
      atJoin_ok_iff.2 ⟨by simp [behind], rfl⟩
    cases h with
    | missing => simp [joins, runOn_bind, last]
    | clause h =>
      have starts : atJoin.runOn (body ++ rest) = (.ok true, body ++ rest) := by
        refine atJoin_ok_iff.2 ⟨?_, rfl⟩
        cases h with
        | direct kind => cases kind <;> simp [EndsTable]
        | swapped kind => cases kind <;> simp [EndsTable]
      simp [joins, runOn_bind, starts, last, (reads_join table).complete h]

/-! ## Statements -/

theorem reads_selection : Reads selection (IsSelection .full) fun t => t ≠ .dot ∧ t ≠ .comma where
  sound h := by
    simp only [selection, bind_ok_iff] at h
    obtain ⟨all, us, hall, h⟩ := h
    obtain ⟨rfl, rfl⟩ | ⟨rfl, -, rfl⟩ := (accept_ok_iff (by simp)).1 hall
    · obtain ⟨rfl, rfl⟩ := pure_ok_iff.1 h
      exact ⟨_, .all, rfl⟩
    · obtain ⟨body, hbody, rfl⟩ := (reads_columnRef.separated (by simp) (by simp)).sound h
      exact ⟨_, .columns hbody, rfl⟩
  complete {body rest _} h behind := by
    cases h with
    | all => simp [selection, runOn_bind]
    | columns h =>
      have unstarred : ahead (body ++ rest) ≠ .star := by
        intro star
        obtain ⟨s, hs⟩ : ∃ s, (ahead (body ++ rest)).name? = some s := by
          cases h with
          | one hr => exact starts_reference hr rest
          | more hr tail => rw [List.append_assoc]; exact starts_reference hr _
        rw [star] at hs
        cases hs
      simp [selection, runOn_bind, runOn_accept_of_ne unstarred,
        (reads_columnRef.separated (by simp) (by simp)).complete h behind]

theorem reads_target : Reads target (IsTarget .full) (· ≠ .openParen) where
  sound h := by
    simp only [target, runOn_at?_bind, decide_eq_true_eq] at h
    split at h
    · rw [bind_ok_iff] at h
      obtain ⟨columns, us, hc, h⟩ := h
      obtain ⟨rfl, rfl⟩ := pure_ok_iff.1 h
      obtain ⟨body, hbody, rfl⟩ := (reads_name.parenthesized trivial trivial).sound hc
      exact ⟨_, .columns hbody, rfl⟩
    · obtain ⟨rfl, rfl⟩ := pure_ok_iff.1 h
      exact ⟨[], .all, rfl⟩
  complete {body rest _} h behind := by
    cases h with
    | all => simp [target, runOn_at?_bind, behind]
    | columns h =>
      have opens : ahead (body ++ rest) = .openParen := by
        cases h
        rfl
      simp [target, runOn_at?_bind, opens, (reads_name.parenthesized trivial trivial).complete h]

theorem reads_rows :
    Reads (separated .comma (parenthesized value)) (IsList .comma (IsTuple IsValue))
      fun t => True ∧ t ≠ .comma :=
  (reads_value.parenthesized trivial trivial).separated (by simp) trivial

theorem reads_assignment : Reads assignment (IsAssignment .full) fun _ => True where
  sound h := by
    simp only [assignment, bind_ok_iff, pure_ok_iff] at h
    obtain ⟨column, us, hc, _, vs, heq, v, ws, hv, rfl, rfl⟩ := h
    obtain ⟨body, hbody, rfl⟩ := reads_name.sound hc
    obtain ⟨body', hbody', rfl⟩ := reads_value.sound hv
    rw [(expect_ok_iff (by simp)).1 heq]
    exact ⟨_, .mk hbody hbody', by simp⟩
  complete h _ := by
    obtain ⟨hc, hv⟩ := h
    simp [assignment, runOn_bind, reads_name.complete hc, reads_value.complete hv]

theorem reads_assignments :
    Reads (separated .comma assignment) (IsList .comma (IsAssignment .full))
      fun t => True ∧ t ≠ .comma :=
  reads_assignment.separated (by simp) trivial

theorem reads_guardedName {guard : List Token} (more : .endOfInput ∉ guard) :
    Reads (guardedName guard) (IsGuarded .full guard) fun _ => True where
  sound h := by
    simp only [guardedName, bind_ok_iff] at h
    obtain ⟨guarded, us, hif, h⟩ := h
    obtain ⟨rfl, rfl⟩ | ⟨rfl, hne, rfl⟩ := (accept_ok_iff (by simp)).1 hif
    · simp only [if_true, bind_ok_iff, pure_ok_iff] at h
      obtain ⟨_, vs, hguard, table, ws, hname, rfl, rfl⟩ := h
      obtain ⟨body, hbody, rfl⟩ := reads_name.sound hname
      rw [(expect_forM_ok_iff more).1 hguard]
      exact ⟨_, .guarded hbody, by simp⟩
    · simp only [Bool.false_eq_true, if_false, bind_ok_iff, pure_ok_iff] at h
      obtain ⟨table, vs, hname, rfl, rfl⟩ := h
      obtain ⟨body, hbody, rfl⟩ := reads_name.sound hname
      refine ⟨body, .bare hbody ?_, rfl⟩
      intro guarded
      rw [guarded] at hne
      exact hne rfl
  complete {body rest _} h _ := by
    cases h with
    | bare h other =>
      have unguarded : ahead (body ++ rest) ≠ .keyword .ifWord := by
        cases h <;> simp_all
      simp [guardedName, runOn_bind, runOn_accept_of_ne unguarded, reads_name.complete h]
    | @guarded ts table h =>
      have words : (guard.forM expect).runOn (guard ++ (ts ++ rest)) = (.ok (), ts ++ rest) :=
        (expect_forM_ok_iff more).2 rfl
      simp only [guardedName, List.cons_append, List.append_assoc, runOn_bind, runOn_accept_cons,
        if_true, words, reads_name.complete h, runOn_pure]

theorem sound_createTable : Sound createTable (IsStatement .full) := by
  intro ts rest s h
  simp only [createTable, bind_ok_iff, pure_ok_iff] at h
  obtain ⟨_, us, hcreate, _, vs, htable, ⟨table, ifNotExists⟩, ws, hname, columns, xs, hcolumns,
    rfl, rfl⟩ := h
  obtain ⟨ns, hns, rfl⟩ := (reads_guardedName (by simp)).sound hname
  obtain ⟨cs, hcs, rfl⟩ := reads_columnDefs.sound hcolumns
  rw [(expect_ok_iff (by simp)).1 hcreate, expectAfter_ok_iff.1 htable]
  exact ⟨_, .createTable hns hcs, by simp⟩

theorem sound_dropTable : Sound dropTable (IsStatement .full) := by
  intro ts rest s h
  simp only [dropTable, bind_ok_iff, pure_ok_iff] at h
  obtain ⟨_, us, hdrop, _, vs, htable, ⟨table, ifExists⟩, ws, hname, rfl, rfl⟩ := h
  obtain ⟨ns, hns, rfl⟩ := (reads_guardedName (by simp)).sound hname
  rw [(expect_ok_iff (by simp)).1 hdrop, expectAfter_ok_iff.1 htable]
  exact ⟨_, .dropTable hns, by simp⟩

theorem sound_insert : Sound insert (IsStatement .full) := by
  intro ts rest s h
  simp only [insert, bind_ok_iff, pure_ok_iff] at h
  obtain ⟨_, us, hinsert, _, vs, hinto, table, ws, hname, columns, xs, htarget, _, ys, hvalues,
    rows, zs, hrows, rfl, rfl⟩ := h
  obtain ⟨ns, hns, rfl⟩ := reads_name.sound hname
  obtain ⟨cs, hcs, rfl⟩ := reads_target.sound htarget
  obtain ⟨rs, hrs, rfl⟩ := reads_rows.sound hrows
  rw [(expect_ok_iff (by simp)).1 hinsert, expectAfter_ok_iff.1 hinto,
    (expect_ok_iff (by simp)).1 hvalues]
  exact ⟨_, .insert hns hcs hrs, by simp⟩

theorem sound_select : Sound select (IsStatement .full) := by
  intro ts rest s h
  simp only [select, bind_ok_iff, pure_ok_iff] at h
  obtain ⟨_, us, hselect, columns, vs, hcolumns, _, ws, hfrom, table, xs, hname, clause, ys, hjoin,
    conditions, zs, hwhere, rfl, rfl⟩ := h
  obtain ⟨cs, hcs, rfl⟩ := reads_selection.sound hcolumns
  obtain ⟨ns, hns, rfl⟩ := reads_name.sound hname
  obtain ⟨js, hjs, rfl⟩ := (reads_joins table).sound hjoin
  obtain ⟨bs, hbs, rfl⟩ := reads_conditions.sound hwhere
  rw [(expect_ok_iff (by simp)).1 hselect, (expect_ok_iff (by simp)).1 hfrom]
  exact ⟨_, .select hcs hns hjs hbs, by simp⟩

theorem sound_update : Sound update (IsStatement .full) := by
  intro ts rest s h
  simp only [update, bind_ok_iff, pure_ok_iff] at h
  obtain ⟨_, us, hupdate, table, vs, hname, _, ws, hset, assignments, xs, hassigned, conditions,
    ys, hwhere, rfl, rfl⟩ := h
  obtain ⟨ns, hns, rfl⟩ := reads_name.sound hname
  obtain ⟨as, has, rfl⟩ := reads_assignments.sound hassigned
  obtain ⟨bs, hbs, rfl⟩ := reads_conditions.sound hwhere
  rw [(expect_ok_iff (by simp)).1 hupdate, (expect_ok_iff (by simp)).1 hset]
  exact ⟨_, .update hns has hbs, by simp⟩

theorem sound_delete : Sound delete (IsStatement .full) := by
  intro ts rest s h
  simp only [delete, bind_ok_iff, pure_ok_iff] at h
  obtain ⟨_, us, hdelete, _, vs, hfrom, table, ws, hname, conditions, xs, hwhere, rfl, rfl⟩ := h
  obtain ⟨ns, hns, rfl⟩ := reads_name.sound hname
  obtain ⟨bs, hbs, rfl⟩ := reads_conditions.sound hwhere
  rw [(expect_ok_iff (by simp)).1 hdelete, expectAfter_ok_iff.1 hfrom]
  exact ⟨_, .delete hns hbs, by simp⟩

theorem sound_showTables : Sound showTables (IsStatement .full) := by
  intro ts rest s h
  simp only [showTables, bind_ok_iff, pure_ok_iff] at h
  obtain ⟨_, us, hshow, _, vs, htables, rfl, rfl⟩ := h
  rw [(expect_ok_iff (by simp)).1 hshow, expectAfter_ok_iff.1 htables]
  exact ⟨_, .showTables, rfl⟩

theorem describe_ok {ts rest : List Token} {s : Statement} {leading : Keyword}
    (spelled : leading = .describe ∨ leading = .desc) (front : ahead ts = .keyword leading)
    (h : describe.runOn ts = (.ok s, rest)) :
    ∃ body, IsStatement .full body s ∧ ts = body ++ rest := by
  simp only [describe, runOn_advance_bind, bind_ok_iff, pure_ok_iff] at h
  obtain ⟨table, us, hname, rfl, rfl⟩ := h
  obtain ⟨ns, hns, htail⟩ := reads_name.sound hname
  rw [eq_cons_of_ahead front (by simp), htail]
  exact ⟨_, .describe leading spelled hns, rfl⟩

/-- What ends a statement. -/
def EndsStatement (t : Token) : Prop := t = .endOfInput ∨ t = .semicolon

theorem reads_statement : Reads statement (IsStatement .full) EndsStatement where
  sound h := by
    rw [statement, runOn_current_bind] at h
    split at h
    · exact sound_createTable h
    · exact sound_dropTable h
    · exact sound_insert h
    · exact sound_select h
    · exact sound_update h
    · exact sound_delete h
    · exact sound_showTables h
    · next front => exact describe_ok (.inl rfl) front h
    · next front => exact describe_ok (.inr rfl) front h
    · cases h
    · cases h
  complete {_ rest _} h behind := by
    have nomore : ahead rest ≠ .comma := by
      obtain e | e := behind <;> simp [e]
    have unfiltered : ahead rest ≠ .keyword .whereWord ∧ ahead rest ≠ .keyword .andWord := by
      obtain e | e := behind <;> simp [e]
    rw [statement, runOn_current_bind]
    cases h with
    | createTable named declared =>
      simp [createTable, runOn_bind, (reads_guardedName _).complete named,
        reads_columnDefs.complete declared]
    | dropTable named => simp [dropTable, runOn_bind, (reads_guardedName _).complete named]
    | @insert ns cs vs table columns rows named target values =>
      have targetRead : Parser.target.runOn (cs ++ .keyword .values :: (vs ++ rest)) =
          (.ok columns, .keyword .values :: (vs ++ rest)) :=
        reads_target.complete target (by simp)
      simp [insert, runOn_bind, reads_name.complete named, targetRead,
        reads_rows.complete values ⟨trivial, nomore⟩]
    | @select cs ns js ws columns table join conditions selected named joined filtered =>
      have columnsRead (ts : List Token) :
          selection.runOn (cs ++ .keyword .fromWord :: ts) =
            (.ok columns, .keyword .fromWord :: ts) :=
        reads_selection.complete selected (by simp)
      have unjoined : EndsTable (ahead (ws ++ rest)) := by
        cases filtered with
        | missing => obtain e | e := behind <;> simp [e, EndsTable]
        | clause => simp [EndsTable]
      simp [select, runOn_bind, columnsRead, reads_name.complete named,
        (reads_joins table).complete joined unjoined,
        reads_conditions.complete filtered unfiltered]
    | @update ns as ws table assignments conditions named assigned filtered =>
      have last : ahead (ws ++ rest) ≠ .comma := by
        cases filtered with
        | missing => exact nomore
        | clause => simp
      simp [update, runOn_bind, reads_name.complete named,
        reads_assignments.complete assigned ⟨trivial, last⟩,
        reads_conditions.complete filtered unfiltered]
    | delete named filtered =>
      simp [delete, runOn_bind, reads_name.complete named,
        reads_conditions.complete filtered unfiltered]
    | showTables => simp [showTables, runOn_bind]
    | describe leading spelled named =>
      obtain rfl | rfl := spelled <;>
        simp [describe, runOn_advance_bind, reads_name.complete named]

/-! ## Queries -/

/-- Where the end of the input is ahead, nothing else is. -/
theorem eq_end_of_ahead {ts us : List Token} (once : EndsOnce (ts ++ us))
    (before : .endOfInput ∉ ts) (h : ahead us = .endOfInput) : us = [.endOfInput] := by
  obtain ⟨vs, hvs, ended⟩ := once
  cases us with
  | nil =>
    rw [List.append_nil] at hvs
    simp [hvs] at before
  | cons u us =>
    obtain rfl : u = .endOfInput := h
    rcases List.eq_nil_or_concat us with rfl | ⟨ws, w, rfl⟩
    · rfl
    · rw [List.concat_eq_append, ← List.cons_append, ← List.append_assoc] at hvs
      have front : ts ++ .endOfInput :: ws = vs := (List.append_inj' hvs rfl).1
      simp [← front] at ended

theorem runOn_single_of_isQuery {s : Statement} {body ts : List Token} (h : IsQuery s body ts) :
    single.runOn ts = (.ok s, [.endOfInput]) := by
  rw [single, runOn_bind]
  cases h with
  | bare h =>
    have read : statement.runOn (body ++ [.endOfInput]) = (.ok s, [.endOfInput]) :=
      reads_statement.complete h (.inl rfl)
    rw [read]
    rfl
  | ended h =>
    have read : statement.runOn (body ++ [.semicolon, .endOfInput]) =
        (.ok s, [.semicolon, .endOfInput]) :=
      reads_statement.complete h (.inr rfl)
    rw [read]
    rfl

theorem isQuery_of_single_ok {s : Statement} {ts rest : List Token} (once : EndsOnce ts)
    (h : single.runOn ts = (.ok s, rest)) : ∃ body, IsQuery s body ts := by
  simp only [single, bind_ok_iff, runOn_at?_bind] at h
  obtain ⟨s', us, hs, semicolon, vs, hend, h⟩ := h
  obtain ⟨body, hbody, rfl⟩ := reads_statement.sound hs
  split at h
  · next last =>
    obtain ⟨rfl, rfl⟩ := pure_ok_iff.1 h
    rw [decide_eq_true_eq] at last
    obtain ⟨-, rfl⟩ | ⟨-, -, rfl⟩ := (accept_ok_iff (by simp)).1 hend
    · have before : .endOfInput ∉ body ++ [.semicolon] := by simp [hbody.ended]
      rw [List.append_cons] at once
      rw [List.append_cons, eq_end_of_ahead once before last, ← List.append_cons]
      exact ⟨body, .ended hbody⟩
    · rw [eq_end_of_ahead once hbody.ended last]
      exact ⟨body, .bare hbody⟩
  · cases h

/-- The semicolon behind a statement is no part of it. -/
theorem not_isStatement_semicolon {s s' : Statement} {body : List Token}
    (h : IsStatement .full body s) : ¬ IsStatement .full (body ++ [.semicolon]) s' := by
  intro h'
  have stops : statement.runOn (body ++ [.semicolon]) = (.ok s, [.semicolon]) :=
    reads_statement.complete h (.inr rfl)
  have goesOn : statement.runOn (body ++ [.semicolon] ++ []) = (.ok s', []) :=
    reads_statement.complete h' (.inl rfl)
  rw [List.append_nil, stops] at goesOn
  cases goesOn

theorem single_ok_iff {ts : List Token} (once : EndsOnce ts) {s : Statement} :
    (single.runOn ts).1 = .ok s ↔ ∃ body, IsQuery s body ts := by
  constructor
  · intro h
    have run : single.runOn ts = (.ok s, (single.runOn ts).2) := Prod.ext h rfl
    exact isQuery_of_single_ok once run
  · intro ⟨body, h⟩
    rw [runOn_single_of_isQuery h]

/-- Two ways of reading the same tokens as a statement are the same. -/
theorem isQuery_unique {s s' : Statement} {body body' ts : List Token} (h : IsQuery s body ts)
    (h' : IsQuery s' body' ts) : body = body' ∧ s = s' := by
  have same : s = s' := by
    have run := runOn_single_of_isQuery h
    rw [runOn_single_of_isQuery h'] at run
    cases run
    rfl
  have split {us vs : List Token} (hts : us ++ [.endOfInput] = vs ++ [.semicolon, .endOfInput]) :
      us = vs ++ [.semicolon] := by
    rw [List.append_cons vs] at hts
    exact List.append_cancel_right hts
  refine ⟨?_, same⟩
  generalize hts : ts = ts' at h'
  cases h with
  | bare h =>
    cases h' with
    | bare => exact List.append_cancel_right hts
    | ended h' =>
      rw [split hts] at h
      exact absurd h (not_isStatement_semicolon h')
  | ended h =>
    cases h' with
    | bare h' =>
      rw [split hts.symm] at h'
      exact absurd h' (not_isStatement_semicolon h)
    | ended => exact List.append_cancel_right hts

/-- **The parser accepts its grammar.** On tokens that end with the end of the input, and have it
nowhere else, it returns a statement just where the tokens are that statement and what ends it; and
they are so in one way only. -/
theorem accepts_iff_isQuery {ts : List Token} (once : EndsOnce ts) :
    (∀ s, (single.runOn ts).1 = .ok s ↔ ∃ body, IsQuery s body ts) ∧
      ∀ s s' body body', IsQuery s body ts → IsQuery s' body' ts → body = body' ∧ s = s' :=
  ⟨fun _ => single_ok_iff once, fun _ _ _ _ => isQuery_unique⟩

/-- Tables named `left` and `set` that are joined. The condition names the joined one first. -/
def joinedTokens : List Token :=
  [.keyword .select, .keyword .key, .keyword .fromWord, .keyword .left, .keyword .inner,
    .keyword .join, .keyword .set, .keyword .on, .keyword .set, .dot, .name "a", .comparison .eq,
    .keyword .left, .dot, .name "b", .semicolon, .endOfInput]

theorem accepts_joinedTokens :
    EndsOnce joinedTokens ∧
      ∃ body, IsQuery (.select ["key"] "left" (some ⟨.inner, "set", "b", "a"⟩) []) body
        joinedTokens := by
  have once : EndsOnce joinedTokens := ⟨joinedTokens.dropLast, by decide, by decide⟩
  exact ⟨once, ((accepts_iff_isQuery once).1 _).1 rfl⟩

end Parser

/-! ## Texts -/

/-- The lexer ends its tokens with the end of the input. -/
theorem endsOnce_tokens {l : Lexer} {ts : List Token} (h : l.tokens = .ok ts) : EndsOnce ts := by
  induction l using Lexer.tokens.induct generalizing ts with
  | case1 l e l' hnext =>
    rw [Lexer.tokens_error hnext] at h
    cases h
  | case2 l l' hnext =>
    rw [Lexer.tokens_last hnext] at h
    cases h
    exact ⟨[], rfl, by simp⟩
  | case3 l t l' hnext more us htail ih =>
    rw [Lexer.tokens_more hnext more, htail] at h
    cases h
    obtain ⟨vs, rfl, ended⟩ := ih htail
    exact ⟨t :: vs, rfl, by simp [ended, Ne.symm more]⟩
  | case4 l t l' hnext more e htail =>
    rw [Lexer.tokens_more hnext more, htail] at h
    cases h

/-- A text is a statement just where its tokens are. -/
theorem parse_ok_iff {text : String} {ts : List Token} (h : tokenize text = .ok ts)
    {s : Statement} : parse text = .ok s ↔ ∃ body, IsQuery s body ts := by
  rw [parse, Parser.runText, h]
  exact Parser.single_ok_iff (endsOnce_tokens h)

end Sql
end PocketSql
