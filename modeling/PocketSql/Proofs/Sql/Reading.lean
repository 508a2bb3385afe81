import PocketSql.Proofs.Sql.Grammar
import PocketSql.Sql.Statement.Parser

/-!
# Parsers that read phrases

A parser reads the phrases of a kind if what it takes from the front of the tokens is a phrase of
its result, and if it takes a phrase off whenever the token behind it cannot go on the phrase. The
token behind is all that matters, since parsers look one token ahead.

## Main definitions

* `ahead` — the token that a parser looks at.
* `Reads` — a parser reads the phrases of a kind.
-/

namespace PocketSql
namespace Sql

/-- The next token; the end of the input follows the last one. -/
def ahead (ts : List Token) : Token := ts.headD .endOfInput

@[simp] theorem ahead_cons (t : Token) (ts : List Token) : ahead (t :: ts) = t := rfl

/-- A token ahead that is not the end of the input is the first one. -/
theorem eq_cons_of_ahead {ts : List Token} {t : Token} (h : ahead ts = t)
    (more : t ≠ .endOfInput) : ts = t :: ts.tail := by
  cases ts with
  | nil => exact absurd h.symm more
  | cons u us => rw [← h]; rfl

namespace Parser

open Grammar

variable {α β : Type}

/-! ## Runs of parsers -/

theorem runOn_bind (p : Parser α) (f : α → Parser β) (ts : List Token) :
    (p >>= f).runOn ts =
      match p.runOn ts with
      | (.ok a, us) => (f a).runOn us
      | (.error e, us) => (.error e, us) := by
  simp only [runOn, bind, ExceptT.bind, ExceptT.mk, StateT.bind, ExceptT.bindCont]
  cases p ts with
  | mk result us => cases result <;> rfl

@[simp] theorem runOn_map (f : α → β) (p : Parser α) (ts : List Token) :
    (f <$> p).runOn ts =
      match p.runOn ts with
      | (.ok a, us) => (.ok (f a), us)
      | (.error e, us) => (.error e, us) := by
  rw [← bind_pure_comp, runOn_bind]
  rfl

theorem runOn_get_bind (f : List Token → Parser β) (ts : List Token) :
    (get >>= f).runOn ts = (f ts).runOn ts := by
  rw [runOn_bind]
  rfl

theorem runOn_current_bind (f : Token → Parser β) (ts : List Token) :
    (current >>= f).runOn ts = (f (ahead ts)).runOn ts := by
  rw [runOn_bind]
  rfl

theorem runOn_advance_bind (f : Unit → Parser β) (ts : List Token) :
    (advance >>= f).runOn ts = (f ()).runOn ts.tail := by
  rw [runOn_bind]
  rfl

theorem runOn_at?_bind (t : Token) (f : Bool → Parser β) (ts : List Token) :
    (at? t >>= f).runOn ts = (f (ahead ts = t)).runOn ts := by
  rw [runOn_bind]
  rfl

@[simp] theorem runOn_pure (a : α) (ts : List Token) :
    (pure a : Parser α).runOn ts = (.ok a, ts) := rfl

@[simp] theorem runOn_throw (e : Error) (ts : List Token) :
    (throw e : Parser α).runOn ts = (.error e, ts) := rfl

@[simp] theorem runOn_current (ts : List Token) : current.runOn ts = (.ok (ahead ts), ts) := rfl

@[simp] theorem runOn_advance (ts : List Token) : advance.runOn ts = (.ok (), ts.tail) := rfl

@[simp] theorem runOn_unexpected (expected : Expected) (ts : List Token) :
    (unexpected expected : Parser α).runOn ts =
      (.error (.unexpectedToken (ahead ts) expected), ts) :=
  rfl

/-- Two parsers in a row succeed just where the first one does and the second one goes on. -/
theorem bind_ok_iff {p : Parser α} {f : α → Parser β} {ts rest : List Token} {b : β} :
    (p >>= f).runOn ts = (.ok b, rest) ↔
      ∃ a us, p.runOn ts = (.ok a, us) ∧ (f a).runOn us = (.ok b, rest) := by
  rw [runOn_bind]
  cases p.runOn ts with
  | mk result us =>
    cases result with
    | ok a =>
      constructor
      · intro h
        exact ⟨a, us, rfl, h⟩
      · rintro ⟨a, us, h, hf⟩
        cases h
        exact hf
    | error e => simp

theorem pure_ok_iff {a b : α} {ts rest : List Token} :
    (pure a : Parser α).runOn ts = (.ok b, rest) ↔ a = b ∧ ts = rest := by
  simp

/-! ## Single tokens -/

theorem accept_ok_iff {t : Token} (more : t ≠ .endOfInput) {b : Bool} {ts rest : List Token} :
    (accept t).runOn ts = (.ok b, rest) ↔
      b = true ∧ ts = t :: rest ∨ b = false ∧ ahead ts ≠ t ∧ ts = rest := by
  rw [accept, runOn_current_bind]
  by_cases h : ahead ts = t
  · have hts := eq_cons_of_ahead h more
    simp only [h, if_true, runOn_advance_bind, runOn_pure]
    constructor
    · intro hr
      cases hr
      exact .inl ⟨rfl, hts⟩
    · rintro (⟨rfl, rfl⟩ | ⟨_, hne, _⟩)
      · rfl
      · exact absurd rfl hne
  · simp only [h, if_false, runOn_pure]
    constructor
    · intro hr
      cases hr
      exact .inr ⟨rfl, h, rfl⟩
    · rintro (⟨_, rfl⟩ | ⟨rfl, _, rfl⟩)
      · exact absurd rfl h
      · rfl

@[simp] theorem runOn_accept_cons (t : Token) (ts : List Token) :
    (accept t).runOn (t :: ts) = (.ok true, ts) := by
  simp only [accept, runOn_current_bind, ahead_cons, if_true, runOn_advance_bind, runOn_pure,
    List.tail_cons]

theorem runOn_accept_of_ne {t : Token} {ts : List Token} (h : ahead ts ≠ t) :
    (accept t).runOn ts = (.ok false, ts) := by
  simp [accept, runOn_current_bind, h]

/-- A parser that takes a given token, and refuses any other. -/
theorem take_ok_iff {t : Token} (more : t ≠ .endOfInput) {refuse : Token → Parser Unit}
    (refused : ∀ u ts, ∃ e, (refuse u).runOn ts = (.error e, ts)) {a : Unit}
    {ts rest : List Token} :
    (do
      let u ← current
      if u = t then advance else refuse u : Parser Unit).runOn ts = (.ok a, rest) ↔
      ts = t :: rest := by
  rw [runOn_current_bind]
  by_cases h : ahead ts = t
  · have hts := eq_cons_of_ahead h more
    rw [if_pos h, runOn_advance]
    constructor
    · intro hr
      cases hr
      exact hts
    · intro hr
      rw [hr]
      rfl
  · obtain ⟨e, he⟩ := refused (ahead ts) ts
    rw [if_neg h, he]
    constructor
    · intro hr
      cases hr
    · intro hr
      rw [hr] at h
      exact absurd rfl h

theorem expect_ok_iff {t : Token} (more : t ≠ .endOfInput) {a : Unit} {ts rest : List Token} :
    (expect t).runOn ts = (.ok a, rest) ↔ ts = t :: rest :=
  take_ok_iff more fun _ _ => ⟨_, rfl⟩

@[simp] theorem runOn_expect_cons (t : Token) (ts : List Token) :
    (expect t).runOn (t :: ts) = (.ok (), ts) := by
  simp [expect, runOn_current_bind]

theorem expectAfter_ok_iff {leading k : Keyword} {a : Unit} {ts rest : List Token} :
    (expectAfter leading k).runOn ts = (.ok a, rest) ↔ ts = .keyword k :: rest :=
  take_ok_iff (by simp) fun _ _ => ⟨_, rfl⟩

@[simp] theorem runOn_expectAfter_cons (leading k : Keyword) (ts : List Token) :
    (expectAfter leading k).runOn (.keyword k :: ts) = (.ok (), ts) := by
  simp [expectAfter, runOn_current_bind]

theorem expect_forM_ok_iff {ts : List Token} (more : .endOfInput ∉ ts) {a : Unit}
    {us rest : List Token} : (ts.forM expect).runOn us = (.ok a, rest) ↔ us = ts ++ rest := by
  induction ts generalizing us with
  | nil => exact pure_ok_iff.trans (by simp)
  | cons t ts ih =>
    simp only [List.mem_cons, not_or] at more
    rw [List.forM, bind_ok_iff]
    simp only [expect_ok_iff (Ne.symm more.1), ih more.2]
    simp

/-! ## Phrases -/

/-- What a parser takes is a phrase of its result. -/
def Sound (p : Parser α) (phrase : List Token → α → Prop) : Prop :=
  ∀ {ts rest : List Token} {a : α}, p.runOn ts = (.ok a, rest) →
    ∃ body, phrase body a ∧ ts = body ++ rest

/-- A parser reads the phrases of a kind. `follow` tells which tokens may stand behind a phrase. -/
structure Reads (p : Parser α) (phrase : List Token → α → Prop) (follow : Token → Prop) :
    Prop where
  sound : Sound p phrase
  complete : ∀ {body rest : List Token} {a : α}, phrase body a → follow (ahead rest) →
    p.runOn (body ++ rest) = (.ok a, rest)

/-! ## Lists -/

section
variable {item : Parser α} {phrase : List Token → α → Prop} {follow : Token → Prop}
  {separator : Token}

/-- A bound above the number of tokens is no bound, since each separator takes a token. -/
theorem sound_separatedUpTo (H : Reads item phrase follow) (more : separator ≠ .endOfInput)
    {n : Nat} {ts rest : List Token} {as : List α} (bound : ts.length < n)
    (h : (separatedUpTo separator item n).runOn ts = (.ok as, rest)) :
    ∃ body, IsList separator phrase body as ∧ ts = body ++ rest := by
  induction n generalizing ts as with
  | zero => omega
  | succ n ih =>
    simp only [separatedUpTo, bind_ok_iff] at h
    obtain ⟨a, us, ha, another, vs, hs, h⟩ := h
    obtain ⟨body, hbody, rfl⟩ := H.sound ha
    obtain ⟨rfl, rfl⟩ | ⟨rfl, -, rfl⟩ := (accept_ok_iff more).1 hs
    · simp only [if_true, bind_ok_iff, pure_ok_iff] at h
      obtain ⟨tail, ws, htail, rfl, rfl⟩ := h
      have shorter : vs.length < n := by
        simp only [List.length_append, List.length_cons] at bound
        omega
      obtain ⟨body', hbody', rfl⟩ := ih shorter htail
      exact ⟨_, .more hbody hbody', by simp⟩
    · simp only [Bool.false_eq_true, if_false, pure_ok_iff] at h
      obtain ⟨rfl, rfl⟩ := h
      exact ⟨body, .one hbody, rfl⟩

theorem complete_separatedUpTo (H : Reads item phrase follow) (between : follow separator)
    {n : Nat} {body rest : List Token} {as : List α} (h : IsList separator phrase body as)
    (bound : (body ++ rest).length < n) (last : follow (ahead rest))
    (ends : ahead rest ≠ separator) :
    (separatedUpTo separator item n).runOn (body ++ rest) = (.ok as, rest) := by
  induction h generalizing n with
  | one ha =>
    cases n with
    | zero => omega
    | succ n => simp [separatedUpTo, runOn_bind, H.complete ha last, runOn_accept_of_ne ends]
  | @more ts us a as ha tail ih =>
    cases n with
    | zero => omega
    | succ n =>
      have shorter : (us ++ rest).length < n := by
        simp only [List.length_append, List.length_cons] at bound ⊢
        omega
      have first :
          item.runOn (ts ++ separator :: (us ++ rest)) = (.ok a, separator :: (us ++ rest)) :=
        H.complete ha between
      simp [separatedUpTo, runOn_bind, first, ih shorter]

theorem Reads.separated (H : Reads item phrase follow) (more : separator ≠ .endOfInput)
    (between : follow separator) :
    Reads (Parser.separated separator item) (IsList separator phrase)
      fun t => follow t ∧ t ≠ separator where
  sound h := by
    rw [Parser.separated, runOn_get_bind] at h
    exact sound_separatedUpTo H more (Nat.lt_succ_self _) h
  complete h behind := by
    rw [Parser.separated, runOn_get_bind]
    exact complete_separatedUpTo H between h (Nat.lt_succ_self _) behind.1 behind.2

/-- Nothing behind a closing parenthesis goes on a tuple. -/
theorem Reads.parenthesized (H : Reads item phrase follow) (comma : follow .comma)
    (closed : follow .closeParen) :
    Reads (Parser.parenthesized item) (IsTuple phrase) fun _ => True where
  sound h := by
    simp only [Parser.parenthesized, bind_ok_iff, pure_ok_iff] at h
    obtain ⟨_, us, hopen, as, vs, has, _, ws, hclose, rfl, rfl⟩ := h
    obtain ⟨body, hbody, rfl⟩ := (H.separated (by simp) comma).sound has
    rw [(expect_ok_iff (by simp)).1 hopen, (expect_ok_iff (by simp)).1 hclose]
    exact ⟨_, .mk hbody, by simp⟩
  complete {_ rest as} h _ := by
    obtain @⟨ts, _, h⟩ := h
    have inner : (Parser.separated .comma item).runOn (ts ++ .closeParen :: rest) =
        (.ok as, .closeParen :: rest) :=
      (H.separated (by simp) comma).complete h ⟨closed, by simp⟩
    simp [Parser.parenthesized, runOn_bind, inner]

end

end Parser
end Sql
end PocketSql
