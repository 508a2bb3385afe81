import PocketSql.Sql.Token.Progress

/-!
# The tokens of a text
-/

namespace PocketSql
namespace Sql

/-- The tokens from where the lexer stands, up to and with the end of the input, or the first error
among them. -/
def Lexer.tokens (l : Lexer) : Except Error (List Token) :=
  match _h : l.next with
  | (.error e, _) => .error e
  | (.ok t, l') =>
    if _ht : t = .endOfInput then .ok [t]
    else
      match tokens l' with
      | .ok ts => .ok (t :: ts)
      | .error e => .error e
termination_by l.rest.length
decreasing_by exact Lexer.rest_next_length_lt _h _ht

theorem Lexer.tokens_error {l l' : Lexer} {e : Error} (h : l.next = (.error e, l')) :
    l.tokens = .error e := by
  rw [tokens]
  split <;> simp_all

theorem Lexer.tokens_last {l l' : Lexer} (h : l.next = (.ok .endOfInput, l')) :
    l.tokens = .ok [.endOfInput] := by
  rw [tokens]
  split <;> simp_all

theorem Lexer.tokens_more {l l' : Lexer} {t : Token} (h : l.next = (.ok t, l'))
    (more : t ≠ .endOfInput) : l.tokens = l'.tokens.map (t :: ·) := by
  rw [tokens]
  split
  · simp_all
  · next t' l'' h' =>
    rw [h] at h'
    cases h'
    rw [dif_neg more]
    cases l'.tokens <;> rfl

/-- The tokens of a text. -/
def tokenize (text : String) : Except Error (List Token) := (Lexer.ofText text).tokens

/-- The results of a number of readings in a row, which go on after an error and after the end of
the input. -/
def Lexer.results (l : Lexer) : Nat → List (Except Error Token)
  | 0 => []
  | n + 1 => l.next.1 :: l.next.2.results n

end Sql
end PocketSql
