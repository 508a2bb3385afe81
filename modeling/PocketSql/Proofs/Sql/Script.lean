import Mathlib.Data.List.Forall2
import PocketSql.Proofs.Sql.Recognition

/-!
# Scripts

The parser of scripts reads statements with semicolons between them, in front of them and behind
them. To cut the tokens at every semicolon gives the same statements, but for one case: the
arguments of a type take every token up to the closing parenthesis, and a semicolon among them does
not end the statement.

## Main definitions

* `IsScript` — tokens are statements with semicolons.
* `pieces` — what tokens are cut into at their semicolons.
* `Encloses` — a semicolon stands among the arguments of a type.

## Main results

* `Parser.script_ok_iff` — the parser of scripts accepts `IsScript`.
* `parseScript_pieces` — where the two ways of reading a script agree.
-/

namespace PocketSql
namespace Sql

open Grammar

namespace Grammar

/-- Statements with at least one semicolon between two of them. -/
inductive IsScript : List Token → List Statement → Prop where
  | empty : IsScript [] []
  | skip {ts : List Token} {ss : List Statement} (h : IsScript ts ss) :
      IsScript (.semicolon :: ts) ss
  | last {ts : List Token} {s : Statement} (h : IsStatement .full ts s) : IsScript ts [s]
  | more {ts us : List Token} {s : Statement} {ss : List Statement} (h : IsStatement .full ts s)
      (tail : IsScript us ss) : IsScript (ts ++ .semicolon :: us) (s :: ss)

/-- Scripts with a semicolon between them are a script. -/
theorem IsScript.append {ts us : List Token} {ss ss' : List Statement} (h : IsScript ts ss)
    (h' : IsScript us ss') : IsScript (ts ++ .semicolon :: us) (ss ++ ss') := by
  induction h with
  | empty => exact .skip h'
  | skip _ ih => exact .skip ih
  | last h => exact .more h h'
  | more h _ ih =>
    rw [List.append_assoc]
    exact .more h ih

theorem IsScript.ended {ts : List Token} {ss : List Statement} (h : IsScript ts ss) :
    .endOfInput ∉ ts := by
  induction h with
  | empty => simp
  | skip _ ih => simpa using ih
  | last h => exact h.ended
  | more h _ ih => simp [h.ended, ih]

theorem IsStatement.starts {ts : List Token} {s : Statement} (h : IsStatement .full ts s) :
    ∃ k us, ts = .keyword k :: us := by
  cases h <;> exact ⟨_, _, rfl⟩

end Grammar

/-! ## The parser of scripts -/

namespace Parser

variable {n : Nat} {ts us rest : List Token} {ss : List Statement}

theorem runOn_statementsUpTo_semicolon (n : Nat) (ts : List Token) :
    (statementsUpTo (n + 1)).runOn (.semicolon :: ts) = (statementsUpTo (n + 1)).runOn ts := rfl

/-- Where no semicolon is ahead, there is none to pass over. -/
theorem runOn_skip_bind {α : Type} (f : Unit → Parser α) (h : ahead ts ≠ .semicolon) :
    (modify (List.dropWhile (· = .semicolon)) >>= f : Parser α).runOn ts = (f ()).runOn ts := by
  have all : ts.dropWhile (· = .semicolon) = ts := by
    cases ts with
    | nil => rfl
    | cons t ts => exact List.dropWhile_cons_of_neg (by simpa using h)
  have skip : (modify (List.dropWhile (· = .semicolon)) : Parser Unit).runOn ts = (.ok (), ts) :=
    congrArg (Prod.mk (Except.ok ())) all
  rw [runOn_bind, skip]

theorem runOn_statementsUpTo_end (n : Nat) (h : ahead ts = .endOfInput) :
    (statementsUpTo n).runOn ts = (.ok [], ts) := by
  cases n with
  | zero => rfl
  | succ n =>
    rw [statementsUpTo, runOn_skip_bind _ (by simp [h]), runOn_at?_bind]
    simp [h]

/-- A script that has been read is one, up to where the input ends. -/
theorem sound_statementsUpTo (bound : ts.length < n)
    (h : (statementsUpTo n).runOn ts = (.ok ss, rest)) :
    ∃ us, IsScript us ss ∧ ts = us ++ rest ∧ ahead rest = .endOfInput := by
  induction hlen : ts.length using Nat.strongRecOn generalizing n ts ss with
  | _ len ih =>
    obtain _ | n := n
    · omega
    by_cases semicolon : ahead ts = .semicolon
    · rw [eq_cons_of_ahead semicolon (by simp), List.length_cons] at hlen bound
      rw [eq_cons_of_ahead semicolon (by simp), runOn_statementsUpTo_semicolon] at h
      obtain ⟨us, script, hts, last⟩ := ih _ (by omega) (by omega) h rfl
      have whole : ts = .semicolon :: us ++ rest := by
        rw [List.cons_append, ← hts, ← eq_cons_of_ahead semicolon (by simp)]
      exact ⟨_, .skip script, whole, last⟩
    rw [statementsUpTo, runOn_skip_bind _ semicolon, runOn_at?_bind] at h
    split at h
    · next last =>
      obtain ⟨rfl, rfl⟩ := pure_ok_iff.1 h
      exact ⟨[], .empty, rfl, by simpa using last⟩
    · simp only [bind_ok_iff, runOn_at?_bind] at h
      obtain ⟨s, vs, hs, h⟩ := h
      obtain ⟨body, hbody, rfl⟩ := reads_statement.sound hs
      split at h
      · next ends =>
        simp only [bind_ok_iff, pure_ok_iff] at h
        obtain ⟨ss', ws, htail, rfl, rfl⟩ := h
        by_cases more : ahead vs = .semicolon
        · have hvs := eq_cons_of_ahead more (by simp)
          rw [hvs] at hlen bound htail ⊢
          simp only [List.length_append, List.length_cons] at hlen bound
          obtain _ | n := n
          · omega
          rw [runOn_statementsUpTo_semicolon] at htail
          obtain ⟨us, script, hts, last⟩ := ih _ (by omega) (by omega) htail rfl
          exact ⟨_, .more hbody script, by simp [← hts], last⟩
        · have last : ahead vs = .endOfInput := by simpa [more] using ends
          rw [runOn_statementsUpTo_end n last] at htail
          cases htail
          exact ⟨body, .last hbody, rfl, last⟩
      · cases h

theorem runOn_statementsUpTo_statement {body : List Token} {s : Statement}
    (h : IsStatement .full body s) (ends : EndsStatement (ahead rest)) (n : Nat) :
    (statementsUpTo (n + 1)).runOn (body ++ rest) =
      ((s :: ·) <$> statementsUpTo n).runOn rest := by
  obtain ⟨k, us, hbody⟩ := h.starts
  have front : ahead (body ++ rest) = .keyword k := by rw [hbody]; rfl
  rw [statementsUpTo, runOn_skip_bind _ (by simp [front]), runOn_at?_bind, if_neg (by simp [front]),
    runOn_bind, reads_statement.complete h ends]
  obtain e | e := ends <;> simp [runOn_at?_bind, e]

theorem complete_statementsUpTo (h : IsScript us ss) (bound : us.length < n) :
    (statementsUpTo n).runOn (us ++ [.endOfInput]) = (.ok ss, [.endOfInput]) := by
  induction h generalizing n with
  | empty => exact runOn_statementsUpTo_end n rfl
  | skip _ ih =>
    obtain _ | n := n
    · omega
    rw [List.cons_append, runOn_statementsUpTo_semicolon]
    exact ih (by simp at bound; omega)
  | last h =>
    obtain _ | n := n
    · omega
    rw [runOn_statementsUpTo_statement h (.inl rfl), runOn_map, runOn_statementsUpTo_end n rfl]
  | @more ts us s ss h _ ih =>
    simp only [List.length_append, List.length_cons] at bound
    obtain _ | _ | n := n
    · omega
    · omega
    rw [List.append_assoc, List.cons_append, runOn_statementsUpTo_statement h (.inr rfl),
      runOn_map, runOn_statementsUpTo_semicolon, ih (by omega)]

/-- The parser of scripts accepts what is a script in front of the end of the input. -/
theorem script_ok_iff (ended : .endOfInput ∉ us) :
    (script.runOn (us ++ [.endOfInput])).1 = .ok ss ↔ IsScript us ss := by
  have bound (ts : List Token) :
      script.runOn ts = (statementsUpTo (ts.length + 1)).runOn ts := runOn_get_bind _ ts
  constructor
  · intro h
    have run : script.runOn (us ++ [.endOfInput]) = (.ok ss, (script.runOn _).2) := Prod.ext h rfl
    rw [bound] at run
    obtain ⟨vs, script, hts, last⟩ := sound_statementsUpTo (Nat.lt_succ_self _) run
    rw [eq_end_of_ahead ⟨us, hts.symm, ended⟩ script.ended last] at hts
    rw [List.append_cancel_right hts]
    exact script
  · intro h
    rw [bound, complete_statementsUpTo h (by rw [List.length_append]; omega)]

end Parser

/-! ## Pieces -/

/-- What tokens are cut into at their semicolons, but for empty pieces. -/
def pieces (ts : List Token) : List (List Token) := (ts.splitOn .semicolon).filter (· ≠ [])

/-- Each piece is one statement by itself. -/
def PieceByPiece (ts : List Token) (ss : List Statement) : Prop :=
  List.Forall₂ (fun piece s => (Parser.single.runOn (piece ++ [.endOfInput])).1 = .ok s)
    (pieces ts) ss

/-- A semicolon stands among the arguments of a type: behind a word and an opening parenthesis, in
front of the next closing one. -/
def Encloses (ts : List Token) : Prop :=
  ∃ front word args back,
    ts = front ++ .name word :: .openParen :: (args ++ .closeParen :: back) ∧
      .semicolon ∈ args ∧ .closeParen ∉ args

variable {ts us : List Token} {s : Statement} {ss : List Statement}

@[simp] theorem pieces_nil : pieces [] = [] := rfl

theorem pieces_append (ts us : List Token) :
    pieces (ts ++ .semicolon :: us) = pieces ts ++ pieces us := by
  rw [pieces, List.splitOn, List.splitOnP_append_cons _ _ (by simp), List.filter_append]
  rfl

theorem pieces_whole (whole : .semicolon ∉ ts) (some : ts ≠ []) : pieces ts = [ts] := by
  rw [pieces, List.splitOn_eq_singleton whole]
  simp [some]

theorem Encloses.mono (h : Encloses ts) (inside : ts <:+: us) : Encloses us := by
  obtain ⟨front, word, args, back, rfl, semicolon, closed⟩ := h
  obtain ⟨before, behind, rfl⟩ := inside
  exact ⟨before ++ front, word, args, back ++ behind, by simp, semicolon, closed⟩

/-- A statement without such a semicolon has none at all. -/
theorem encloses_of_mem (h : IsStatement .full ts s) (semicolon : .semicolon ∈ ts) :
    Encloses ts := by
  have composed := h.composed
  clear h
  induction composed with
  | nil => cases semicolon
  | token t plain => simp_all
  | word h =>
    obtain ⟨_, h⟩ | ⟨_, h⟩ | ⟨_, h⟩ := h
    · cases h <;> simp at semicolon
    · cases h with
      | bare => simp at semicolon
      | withArguments word closed _ =>
        exact ⟨[], word, _, [], rfl, by simpa using semicolon, closed⟩
    · cases h <;> simp at semicolon
  | @parens ts _ ih =>
    exact (ih (by simpa using semicolon)).mono ⟨[.openParen], [.closeParen], rfl⟩
  | @append ts us _ _ ih ih' =>
    obtain h | h := List.mem_append.1 semicolon
    · exact (ih h).mono (List.prefix_append ts us).isInfix
    · exact (ih' h).mono (List.suffix_append ts us).isInfix

/-- A piece is a statement for the parser just where the grammar says so. -/
theorem single_piece_iff (whole : .semicolon ∉ ts) (ended : .endOfInput ∉ ts) :
    (Parser.single.runOn (ts ++ [.endOfInput])).1 = .ok s ↔ IsStatement .full ts s := by
  rw [Parser.single_ok_iff ⟨ts, rfl, ended⟩]
  constructor
  · rintro ⟨body, h⟩
    generalize hus : ts ++ [.endOfInput] = us at h
    cases h with
    | bare h => rwa [List.append_cancel_right hus]
    | ended h =>
      rw [List.append_cons body] at hus
      rw [List.append_cancel_right hus] at whole
      simp at whole
  · intro h
    exact ⟨ts, .bare h⟩

/-- What is read piece by piece is a script. -/
theorem isScript_of_pieces (ended : .endOfInput ∉ ts) (h : PieceByPiece ts ss) :
    IsScript ts ss := by
  induction hn : ts.length using Nat.strongRecOn generalizing ts ss with
  | _ n ih =>
    by_cases whole : .semicolon ∈ ts
    · -- the piece in front of the first semicolon, and the rest
      obtain ⟨front, back, rfl, first⟩ := List.eq_append_cons_of_mem whole
      simp only [List.mem_append, List.mem_cons, not_or] at ended
      simp only [List.length_append, List.length_cons] at hn
      rw [PieceByPiece, pieces_append] at h
      by_cases empty : front = []
      · rw [empty] at h ⊢
        exact .skip (ih _ (by omega) ended.2.2 h rfl)
      · rw [pieces_whole first empty] at h
        cases h with
        | cons h tail =>
          exact .more ((single_piece_iff first ended.1).1 h) (ih _ (by omega) ended.2.2 tail rfl)
    · by_cases empty : ts = []
      · rw [empty] at h ⊢
        cases h
        exact .empty
      · rw [PieceByPiece, pieces_whole whole empty] at h
        cases h with
        | cons h tail =>
          cases tail
          exact .last ((single_piece_iff whole ended).1 h)

/-- A script is read piece by piece if none of its semicolons is enclosed. -/
theorem pieceByPiece_of_isScript (h : IsScript ts ss) (free : ¬ Encloses ts) :
    PieceByPiece ts ss := by
  -- a statement is a piece of its own
  have single {ts : List Token} {s : Statement} (h : IsStatement .full ts s)
      (free : ¬ Encloses ts) : PieceByPiece ts [s] := by
    have whole : .semicolon ∉ ts := mt (encloses_of_mem h) free
    obtain ⟨k, us, hts⟩ := h.starts
    rw [PieceByPiece, pieces_whole whole (by simp [hts])]
    exact .cons ((single_piece_iff whole h.ended).2 h) .nil
  induction h with
  | empty => exact .nil
  | @skip ts ss _ ih =>
    rw [PieceByPiece, ← List.nil_append (.semicolon :: ts), pieces_append]
    exact ih (mt (·.mono (List.suffix_cons _ _).isInfix) free)
  | last h => exact single h free
  | @more ts us s ss h _ ih =>
    rw [PieceByPiece, pieces_append]
    have front := single h (mt (·.mono (List.prefix_append _ _).isInfix) free)
    have behind : us <:+: ts ++ .semicolon :: us :=
      (List.suffix_append_of_suffix (List.suffix_cons _ _)).isInfix
    exact List.rel_append front (ih (mt (·.mono behind) free))

/-! ## Parentheses -/

/-- Whether the last parenthesis is an opening one, behind one more token. -/
def opened (before : Bool) : Token → Bool
  | .openParen => true
  | .closeParen => false
  | _ => before

/-- The last parenthesis of a statement is a closing one. -/
theorem opened_statement (h : IsStatement .full ts s) : ts.foldl opened false = false := by
  have composed := h.composed
  clear h
  induction composed with
  | nil => rfl
  | token t plain =>
    cases t <;> first | rfl | simp at plain
  | word h => obtain ⟨_, h⟩ | ⟨_, h⟩ | ⟨_, h⟩ := h <;> cases h <;> simp [opened]
  | parens _ ih => simp [opened]
  | append _ _ ih ih' => rw [List.foldl_append, ih, ih']

theorem opened_script (h : IsScript ts ss) : ts.foldl opened false = false := by
  induction h with
  | empty => rfl
  | skip _ ih => exact ih
  | last h => exact opened_statement h
  | more h _ ih =>
    rw [List.foldl_append, opened_statement h]
    exact ih

theorem opened_of_not_mem {args : List Token} (unclosed : .closeParen ∉ args) :
    args.foldl opened true = true := by
  induction args with
  | nil => rfl
  | cons t args ih =>
    simp only [List.mem_cons, not_or] at unclosed
    have still : opened true t = true := by
      cases t <;> first | rfl | exact absurd rfl unclosed.1
    rw [List.foldl_cons, still]
    exact ih unclosed.2

/-- What is read piece by piece encloses no semicolon: the piece in front of it would end behind an
opening parenthesis. -/
theorem not_encloses_of_pieces (ended : .endOfInput ∉ ts) (h : PieceByPiece ts ss) :
    ¬ Encloses ts := by
  rintro ⟨front, word, args, back, rfl, semicolon, unclosed⟩
  obtain ⟨args, args', rfl⟩ := List.append_of_mem semicolon
  have before : .closeParen ∉ args := fun h => unclosed (List.mem_append_left _ h)
  have cut :
      front ++ .name word :: .openParen :: (args ++ .semicolon :: args' ++ .closeParen :: back) =
        (front ++ .name word :: .openParen :: args) ++
          .semicolon :: (args' ++ .closeParen :: back) := by
    simp
  rw [cut] at h ended
  rw [PieceByPiece, pieces_append] at h
  -- what stands in front of that semicolon is a script by itself
  have pieces := List.forall₂_take (pieces (front ++ .name word :: .openParen :: args)).length h
  rw [List.take_left] at pieces
  have closed := opened_script (isScript_of_pieces (mt (List.mem_append_left _) ended) pieces)
  simp [opened, opened_of_not_mem before] at closed

theorem pieceByPiece_iff (ended : .endOfInput ∉ ts) :
    PieceByPiece ts ss ↔ IsScript ts ss ∧ ¬ Encloses ts := by
  constructor
  · intro h
    exact ⟨isScript_of_pieces ended h, not_encloses_of_pieces ended h⟩
  · intro ⟨h, free⟩
    exact pieceByPiece_of_isScript h free

/-! ## Texts -/

theorem parseScript_ok_iff {text : String} (h : tokenize text = .ok (ts ++ [.endOfInput])) :
    parseScript text = .ok ss ↔ IsScript ts ss := by
  have ended : .endOfInput ∉ ts := by
    obtain ⟨us, hus, ended⟩ := endsOnce_tokens h
    rwa [List.append_cancel_right hus]
  rw [parseScript, Parser.runText, h]
  exact Parser.script_ok_iff ended

/-- A text that is read as a script has tokens. -/
theorem exists_tokens_of_parseScript {text : String} (h : parseScript text = .ok ss) :
    ∃ ts, tokenize text = .ok (ts ++ [.endOfInput]) := by
  rw [parseScript, Parser.runText] at h
  split at h
  · next us tokens =>
    obtain ⟨ts, rfl, -⟩ := endsOnce_tokens tokens
    exact ⟨ts, tokens⟩
  · cases h

/-- **Where the two ways of reading a script agree.** A text is read as a script, with no semicolon
enclosed, just where each of its pieces is read as a statement by itself. What is one statement by
itself is a script of that statement. -/
theorem parseScript_pieces {text : String} (h : tokenize text = .ok (ts ++ [.endOfInput])) :
    (∀ ss, PieceByPiece ts ss ↔ parseScript text = .ok ss ∧ ¬ Encloses ts) ∧
      ∀ s, parse text = .ok s → parseScript text = .ok [s] := by
  obtain ⟨us, hus, ended⟩ := endsOnce_tokens h
  obtain rfl := List.append_cancel_right hus
  constructor
  · intro ss
    rw [parseScript_ok_iff h, pieceByPiece_iff ended]
  · intro s hs
    rw [parseScript_ok_iff h]
    obtain ⟨body, query⟩ := (parse_ok_iff h).1 hs
    generalize hts : ts ++ [.endOfInput] = us at query
    cases query with
    | bare hbody =>
      rw [List.append_cancel_right hts]
      exact .last hbody
    | ended hbody =>
      rw [List.append_cons body] at hts
      rw [List.append_cancel_right hts]
      exact .more hbody .empty

/-- Two statements, with semicolons in front of them, between and behind them. -/
theorem parseScript_pieces_described :
    tokenize "; desc a;; drop table b;" = .ok ([.semicolon, .keyword .desc, .name "a", .semicolon,
        .semicolon, .keyword .drop, .keyword .table, .name "b", .semicolon] ++ [.endOfInput]) ∧
      parseScript "; desc a;; drop table b;" = .ok [.describe "a", .dropTable "b" false] := by
  have tokens : tokenize "; desc a;; drop table b;" = .ok ([.semicolon, .keyword .desc, .name "a",
      .semicolon, .semicolon, .keyword .drop, .keyword .table, .name "b", .semicolon] ++
        [.endOfInput]) := by
    decide +kernel
  have pieces : PieceByPiece [.semicolon, .keyword .desc, .name "a", .semicolon, .semicolon,
      .keyword .drop, .keyword .table, .name "b", .semicolon]
      [.describe "a", .dropTable "b" false] := .cons rfl (.cons rfl .nil)
  exact ⟨tokens, (((parseScript_pieces tokens).1 _).1 pieces).1⟩

/-- The two ways do not always agree: where the parentheses of a type are not closed, the next
statement becomes a part of the type. -/
theorem parseScript_swallows :
    ¬ ∀ (text : String) (ts : List Token) (ss : List Statement),
      tokenize text = .ok (ts ++ [.endOfInput]) →
        (parseScript text = .ok ss ↔ PieceByPiece ts ss) := by
  intro agree
  have tokens : tokenize "CREATE TABLE a (x char(9; CREATE TABLE b (y int))" =
      .ok ([.keyword .create, .keyword .table, .name "a", .openParen, .name "x", .name "char",
        .openParen, .number ⟨0x4022000000000000⟩, .semicolon, .keyword .create, .keyword .table,
        .name "b", .openParen, .name "y", .name "int", .closeParen, .closeParen] ++
          [.endOfInput]) := by
    decide +kernel
  have script : parseScript "CREATE TABLE a (x char(9; CREATE TABLE b (y int))" =
      .ok [.createTable "a" false
        [⟨"x", "char(9,;,CREATE,TABLE,b,(,y,int)", false, false, false, none⟩]] := by
    rw [parseScript, Parser.runText, tokens]
    decide +kernel
  have pieces := ((agree _ _ _ tokens).1 script).length_eq
  exact absurd pieces (by decide)

end Sql
end PocketSql
