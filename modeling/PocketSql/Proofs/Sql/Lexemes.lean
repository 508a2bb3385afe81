import PocketSql.Proofs.Sql.Scanning
import PocketSql.Sql.Tokens

/-!
# Lexemes

Where the tokens of a text stand in it. A lexeme is a token with the white space and comments in
front of it, its own characters, the text behind it and the mode in which it was read.

## Main definitions

* `gapEnd?` — how white space and comments end.
* `Lexeme`, `lexemes` — the tokens of a text with their places.
* `readSolid` — reading where a token starts.

## Main results

* `Lexer.Lexes.split` — each lexeme stands where the lexer is after the tokens in front of it.
-/

namespace PocketSql
namespace Sql

/-! ## White space and comments -/

theorem afterGap_blank_cons {c : Char} (h : Text.isBlank c = true) (s : List Char) :
    afterGap .blank (c :: s) = afterGap .blank s := by
  have signs : Text.isBlank '-' = false ∧ Text.isBlank '/' = false := by decide
  rw [afterGap] <;> grind

theorem afterGap_block_cons {c : Char} {s : List Char} (h : c = '*' → s.head? ≠ some '/') :
    afterGap .block (c :: s) = afterGap .block s := by
  rw [afterGap]
  rintro t rfl rfl
  exact h rfl rfl

/-- What a text of white space and comments is read as at its end; `none` if there is anything
else in it. -/
def gapEnd? : Gap → List Char → Option Gap
  | g, [] => some g
  | .blank, '-' :: '-' :: s => gapEnd? .line s
  | .blank, '/' :: '*' :: s => gapEnd? .block s
  | .blank, c :: s => if Text.isBlank c then gapEnd? .blank s else none
  | .line, c :: s => if c = '\n' then gapEnd? .blank s else gapEnd? .line s
  | .block, '*' :: '/' :: s => gapEnd? .blank s
  | .block, _ :: s => gapEnd? .block s

/-- White space and comments are left out in front of any text, but for one that would close a
comment with a star at its end. -/
theorem afterGap_append {g g' : Gap} {gap s : List Char} (h : gapEnd? g gap = some g')
    (unclosed : g' = .block → s.head? ≠ some '/') : afterGap g (gap ++ s) = afterGap g' s := by
  fun_induction gapEnd? g gap with
  | case1 g =>
    cases h
    rfl
  | case2 gap ih => exact ih h
  | case3 gap ih => exact ih h
  | case4 c gap minus slash blank ih =>
    rw [List.cons_append, afterGap_blank_cons blank]
    exact ih h
  | case5 => cases h
  | case6 gap ih => exact ih h
  | case7 c gap newline ih =>
    rw [List.cons_append, afterGap, if_neg newline]
    exact ih h
  | case8 gap ih => exact ih h
  | case9 c gap star ih =>
    rw [List.cons_append, afterGap_block_cons]
    · exact ih h
    · rintro rfl first
      cases gap with
      | nil =>
        cases h
        exact unclosed rfl first
      | cons d gap =>
        cases first
        exact star gap rfl rfl

theorem gapEnd?_blank_cons {c : Char} (h : Text.isBlank c = true) (s : List Char) :
    gapEnd? .blank (c :: s) = gapEnd? .blank s := by
  have signs : Text.isBlank '-' = false ∧ Text.isBlank '/' = false := by decide
  rw [gapEnd?, if_pos h] <;> grind

theorem gapEnd?_block_cons {c : Char} {s : List Char} (h : c = '*' → s.head? ≠ some '/') :
    gapEnd? .block (c :: s) = gapEnd? .block s := by
  rw [gapEnd?]
  rintro t rfl rfl
  exact h rfl rfl

/-- What is left out at the start of a text is white space and comments. Only where they are the
whole text may they end in a comment. -/
theorem exists_gap (g : Gap) (s : List Char) :
    ∃ gap g', s = gap ++ afterGap g s ∧ gapEnd? g gap = some g' ∧
      (afterGap g s ≠ [] → g' = .blank) := by
  fun_induction afterGap g s with
  | case1 g => exact ⟨[], g, rfl, rfl, fun h => absurd rfl h⟩
  | case2 s ih =>
    obtain ⟨gap, g', hs, hgap, hg'⟩ := ih
    exact ⟨'-' :: '-' :: gap, g', by rw [List.cons_append, List.cons_append, ← hs], hgap, hg'⟩
  | case3 s ih =>
    obtain ⟨gap, g', hs, hgap, hg'⟩ := ih
    exact ⟨'/' :: '*' :: gap, g', by rw [List.cons_append, List.cons_append, ← hs], hgap, hg'⟩
  | case4 c s _ _ blank ih =>
    obtain ⟨gap, g', hs, hgap, hg'⟩ := ih
    refine ⟨c :: gap, g', by rw [List.cons_append, ← hs], ?_, hg'⟩
    rwa [gapEnd?_blank_cons blank]
  | case5 c s => exact ⟨[], .blank, rfl, rfl, fun _ => rfl⟩
  | case6 s ih =>
    obtain ⟨gap, g', hs, hgap, hg'⟩ := ih
    exact ⟨'\n' :: gap, g', by rw [List.cons_append, ← hs], hgap, hg'⟩
  | case7 c s newline ih =>
    obtain ⟨gap, g', hs, hgap, hg'⟩ := ih
    exact ⟨c :: gap, g', by rw [List.cons_append, ← hs], by rwa [gapEnd?, if_neg newline], hg'⟩
  | case8 s ih =>
    obtain ⟨gap, g', hs, hgap, hg'⟩ := ih
    exact ⟨'*' :: '/' :: gap, g', by rw [List.cons_append, List.cons_append, ← hs], hgap, hg'⟩
  | case9 c s star ih =>
    obtain ⟨gap, g', hs, hgap, hg'⟩ := ih
    refine ⟨c :: gap, g', by rw [List.cons_append, ← hs], ?_, hg'⟩
    rwa [gapEnd?_block_cons]
    rintro rfl first
    cases gap with
    | nil => cases first
    | cons d gap =>
      cases first
      exact star _ rfl hs

/-- What is left behind white space and comments starts with neither. -/
theorem afterGap_afterGap (s : List Char) :
    afterGap .blank (afterGap .blank s) = afterGap .blank s := by
  obtain ⟨gap, g', hs, hgap, hg'⟩ := exists_gap .blank s
  by_cases empty : afterGap .blank s = []
  · rw [empty]
    rfl
  · obtain rfl := hg' empty
    have left := afterGap_append (s := afterGap .blank s) hgap (by simp)
    rwa [← hs, eq_comm] at left

/-! ## Where a token starts -/

/-- Read a token at its first character. -/
def readSolid (value : Bool) (size : Nat) (s : List Char) : Except Error Token × List Char :=
  match if value then bareValue s else none with
  | some (t, rest) => (.ok t, rest)
  | none => scan size s

theorem Lexer.read_eq (l : Lexer) :
    l.read = readSolid l.mode.value l.size (afterGap .blank l.rest) := rfl

/-- A token is read as a value, or as it is where no value is expected. -/
theorem readSolid_cases {value : Bool} {size : Nat} {s rest : List Char} {t : Token}
    (h : readSolid value size s = (.ok t, rest)) :
    value = true ∧ bareValue s = some (t, rest) ∨ scan size s = (.ok t, rest) := by
  unfold readSolid at h
  split at h
  · next bare =>
    cases h
    cases value with
    | false => cases bare
    | true => exact .inl ⟨rfl, bare⟩
  · exact .inr h

theorem readSolid_suffix (value : Bool) (size : Nat) (s : List Char) :
    (readSolid value size s).2 <:+ s := by
  unfold readSolid
  split
  · next hb =>
    split at hb
    · exact bareValue_suffix hb
    · cases hb
  · exact scan_suffix size s

theorem readSolid_nil (value : Bool) (size : Nat) :
    readSolid value size [] = (.ok .endOfInput, []) := by
  cases value <;> rfl

theorem wordToken_ne_end (word : List Char) : wordToken word ≠ .endOfInput := by
  unfold wordToken
  split <;> simp

theorem runToken_ne_end (run : List Char) : runToken run ≠ .endOfInput := by
  unfold runToken
  split <;> simp

/-- The end of the input is read at the end of the input only. -/
theorem eq_nil_of_scan {size : Nat} {s rest : List Char}
    (h : scan size s = (.ok .endOfInput, rest)) : s = [] := by
  cases scans_of_scan h with
  | last => rfl
  | single sign => cases isSymbol_of_single sign
  | double sign => cases isSymbol_of_double sign
  | word _ _ _ _ token => exact absurd token (wordToken_ne_end _)

theorem eq_nil_of_readSolid {value : Bool} {size : Nat} {s rest : List Char}
    (h : readSolid value size s = (.ok .endOfInput, rest)) : s = [] := by
  obtain ⟨-, bare⟩ | scan := readSolid_cases h
  · exact absurd (bareValue_eq_some_iff.1 bare).2.1 (runToken_ne_end _)
  · exact eq_nil_of_scan scan

/-! ## Lexemes -/

namespace Mode

/-- The mode after tokens in a row. -/
def afterAll (m : Mode) (ts : List Token) : Mode := ts.foldl after m

@[simp] theorem afterAll_nil (m : Mode) : m.afterAll [] = m := rfl

@[simp] theorem afterAll_cons (m : Mode) (t : Token) (ts : List Token) :
    m.afterAll (t :: ts) = (m.after t).afterAll ts := rfl

@[simp] theorem afterAll_append (m : Mode) (ts us : List Token) :
    m.afterAll (ts ++ us) = (m.afterAll ts).afterAll us := List.foldl_append

/-- What each token keeps of a mode is kept by tokens in a row. -/
theorem afterAll_keeps {P : Mode → Prop} {m : Mode} {ts : List Token} (h : P m)
    (step : ∀ m, ∀ t ∈ ts, P m → P (m.after t)) : P (m.afterAll ts) :=
  List.foldlRecOn ts after h fun m hm t ht => step m t ht hm

end Mode

/-- A token where it stands in a text. -/
structure Lexeme where
  /-- The mode in which it is read. -/
  mode : Mode
  /-- The white space and comments in front of it. -/
  gap : List Char
  /-- Its characters. -/
  text : List Char
  /-- The characters of the text that follow it. -/
  behind : List Char
  token : Token
  deriving DecidableEq, Repr

namespace Lexer

/-- The next lexeme, if the next token is `t`. -/
def lexeme (l : Lexer) (t : Token) : Lexeme :=
  let s := afterGap .blank l.rest
  let behind := l.next.2.rest
  ⟨l.mode, l.rest.take (l.rest.length - s.length), s.take (s.length - behind.length), behind, t⟩

/-- The lexemes of the next tokens. -/
def lexemes : Lexer → List Token → List Lexeme
  | _, [] => []
  | l, t :: ts => l.lexeme t :: l.next.2.lexemes ts

@[simp] theorem map_token_lexemes (l : Lexer) (ts : List Token) :
    (l.lexemes ts).map Lexeme.token = ts := by
  induction ts generalizing l with
  | nil => rfl
  | cons t ts ih => exact congrArg (t :: ·) (ih _)

/-- A lexeme is what the lexer reads next. -/
structure Meets (l : Lexer) (e : Lexeme) : Prop where
  mode : e.mode = l.mode
  rest : l.rest = e.gap ++ (e.text ++ e.behind)
  /-- Only behind the last token the text may end in a comment. -/
  gap : ∃ g, gapEnd? .blank e.gap = some g ∧ (e.token ≠ .endOfInput → g = .blank)
  solid : afterGap .blank (e.text ++ e.behind) = e.text ++ e.behind
  read : readSolid e.mode.value l.size (e.text ++ e.behind) = (.ok e.token, e.behind)

theorem meets_lexeme {l l' : Lexer} {t : Token} (h : l.next = (.ok t, l')) :
    l.Meets (l.lexeme t) ∧ l' = ⟨l.size, (l.lexeme t).behind, l.mode.after t⟩ := by
  obtain ⟨read, hl'⟩ :
      l.read = (.ok t, l'.rest) ∧ l' = ⟨l.size, l'.rest, l.mode.after t⟩ := by
    simp only [next] at h
    split at h <;> cases h
    next hr => exact ⟨hr, rfl⟩
  obtain ⟨gap, g, hrest, hgap, hg⟩ := exists_gap .blank l.rest
  rw [read_eq] at read
  have taken := readSolid_suffix l.mode.value l.size (afterGap .blank l.rest)
  have again := afterGap_afterGap l.rest
  rw [read] at taken
  obtain ⟨text, htext⟩ := taken
  have he : l.lexeme t = ⟨l.mode, gap, text, l'.rest, t⟩ := by
    have next : l.next.2.rest = l'.rest := by rw [h]
    simp only [lexeme, next]
    generalize afterGap .blank l.rest = solid at hrest htext
    simp [hrest, ← htext]
  rw [he]
  refine ⟨⟨rfl, ?_, ⟨g, hgap, fun more => ?_⟩, ?_, ?_⟩, hl'⟩
  · simp only [htext, ← hrest]
  · refine hg fun empty => more ?_
    rw [empty, readSolid_nil, Prod.mk.injEq, Except.ok.injEq] at read
    exact read.1.symm
  · simpa only [htext] using again
  · simpa only [htext] using read

/-- A lexeme other than the end of the input has a character. -/
theorem Meets.text_ne_nil {l : Lexer} {e : Lexeme} (h : l.Meets e) (more : e.token ≠ .endOfInput) :
    e.text ≠ [] := by
  have read : (Lexer.mk l.size (e.text ++ e.behind) e.mode).read = (.ok e.token, e.behind) := by
    rw [read_eq, h.solid]
    exact h.read
  intro empty
  have shorter := read_length_lt read more
  simp [empty] at shorter

/-- The last lexeme has none. -/
theorem Meets.nil_of_last {l : Lexer} {e : Lexeme} (h : l.Meets e) (last : e.token = .endOfInput) :
    e.text = [] ∧ e.behind = [] := by
  have read := h.read
  rw [last] at read
  simpa using eq_nil_of_readSolid read

/-- There is nothing but white space and comments in front of a lexeme. -/
theorem Meets.afterGap_gap {l : Lexer} {e : Lexeme} (h : l.Meets e) :
    afterGap .blank e.gap = [] := by
  obtain ⟨g, hg, -⟩ := h.gap
  have left : afterGap .blank (e.gap ++ []) = afterGap g [] := afterGap_append hg (by simp)
  rw [List.append_nil] at left
  rw [left]
  cases g <;> rfl

/-- The lexer reads what stands behind white space and closed comments. -/
theorem next_of_readSolid {size : Nat} {m : Mode} {gap s rest : List Char} {t : Token}
    (closed : gapEnd? .blank gap = some .blank) (solid : afterGap .blank s = s)
    (read : readSolid m.value size s = (.ok t, rest)) :
    (Lexer.mk size (gap ++ s) m).next = (.ok t, ⟨size, rest, m.after t⟩) := by
  have whole : (Lexer.mk size (gap ++ s) m).read = (.ok t, rest) := by
    rw [read_eq, afterGap_append closed (by simp), solid]
    exact read
  simp only [next, whole]

/-- The lexemes that a lexer reads up to the end of the input. -/
inductive Lexes : Lexer → List Lexeme → Prop where
  | last {l : Lexer} {e : Lexeme} (h : l.Meets e) (last : e.token = .endOfInput) : Lexes l [e]
  | more {l : Lexer} {e : Lexeme} {es : List Lexeme} (h : l.Meets e)
      (more : e.token ≠ .endOfInput)
      (tail : Lexes ⟨l.size, e.behind, l.mode.after e.token⟩ es) : Lexes l (e :: es)

theorem lexes_lexemes {l : Lexer} {ts : List Token} (h : l.tokens = .ok ts) :
    l.Lexes (l.lexemes ts) := by
  induction l using tokens.induct generalizing ts with
  | case1 l e l' hnext =>
    rw [tokens_error hnext] at h
    cases h
  | case2 l l' hnext =>
    rw [tokens_last hnext] at h
    cases h
    exact .last (meets_lexeme hnext).1 rfl
  | case3 l t l' hnext more us htail ih =>
    rw [tokens_more hnext more, htail] at h
    cases h
    obtain ⟨meets, hl'⟩ := meets_lexeme hnext
    have tail := ih htail
    rw [hl'] at tail
    rw [lexemes, hnext, hl']
    exact .more meets more tail
  | case4 l t l' hnext more e htail =>
    rw [tokens_more hnext more, htail] at h
    cases h

/-- Each lexeme stands where the lexer is after the tokens in front of it. -/
theorem Lexes.split {l : Lexer} {front back : List Lexeme} {e : Lexeme}
    (h : l.Lexes (front ++ e :: back)) :
    ∃ l' : Lexer, l'.mode = l.mode.afterAll (front.map Lexeme.token) ∧ l'.Meets e := by
  induction front generalizing l with
  | nil =>
    cases h with
    | last h | more h => exact ⟨l, rfl, h⟩
  | cons f front ih =>
    generalize hes : f :: front ++ e :: back = es at h
    cases h with
    | last => simp at hes
    | more h more tail =>
      cases hes
      exact ih tail

theorem Lexes.exists_meets {l : Lexer} {es : List Lexeme} {e : Lexeme} (h : l.Lexes es)
    (mem : e ∈ es) : ∃ l' : Lexer, l'.Meets e := by
  obtain ⟨front, back, rfl⟩ := List.append_of_mem mem
  obtain ⟨l', -, meets⟩ := h.split
  exact ⟨l', meets⟩

end Lexer

/-- The lexemes of a text. -/
def lexemes (text : String) : Except Error (List Lexeme) :=
  (tokenize text).map (Lexer.ofText text).lexemes

theorem lexemes_ok {text : String} {es : List Lexeme} (h : lexemes text = .ok es) :
    tokenize text = .ok (es.map Lexeme.token) ∧ (Lexer.ofText text).Lexes es := by
  unfold lexemes at h
  cases hts : tokenize text with
  | error e =>
    rw [hts] at h
    cases h
  | ok ts =>
    rw [hts] at h
    cases h
    exact ⟨by rw [Lexer.map_token_lexemes], Lexer.lexes_lexemes hts⟩

end Sql
end PocketSql
