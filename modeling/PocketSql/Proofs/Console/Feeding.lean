import PocketSql.Console.Dialogue
import PocketSql.Proofs.Sql.Division

/-!
# Scripts by the line

A dialogue that is given a script line by line executes what it has whenever a line ends with a
semicolon. It does not look at what that semicolon is part of. Where it stands behind a statement,
or in a comment between two of them, the parts do what the whole script does. In a string it cuts
the statement in two.

## Main definitions

* `Text.cut`, `Text.breaks` — the lines of a text, and where one ends with a semicolon.
* `Dialogue.inputs` — the inputs that lines make up.
* `Session.Hears` — the lines of a text do what the text does as a whole.

## Main results

* `Dialogue.divides` — the inputs of a script are scripts, with its statements in order.
* `Session.hears_lines` — the lines do what the text does, if semicolons end lines between
  statements only.
* `Session.not_hears_lines` — otherwise they may not.
-/

namespace PocketSql

/-! ## Lines -/

namespace Text

/-- The lines of a text, cut at every new line. -/
def cut (text : String) : List String := (text.toList.splitOn '\n').map String.ofList

/-- Lines with new lines between them. -/
def joined (lines : List String) : List Char := ['\n'].intercalate (lines.map String.toList)

theorem joined_cut (text : String) : joined (cut text) = text.toList := by
  have same : (cut text).map String.toList = text.toList.splitOn '\n' := by
    simp [cut, Function.comp_def]
  rw [joined, same, List.intercalate_splitOn]

@[simp] theorem joined_nil : joined [] = [] := rfl

@[simp] theorem joined_singleton (line : String) : joined [line] = line.toList := by
  simp [joined, List.intercalate]

theorem joined_cons {lines : List String} (line : String) (some : lines ≠ []) :
    joined (line :: lines) = line.toList ++ '\n' :: joined lines := by
  obtain ⟨next, lines, rfl⟩ := List.exists_cons_of_ne_nil some
  simp [joined, List.intercalate]

/-- The beginnings of a text that end, but for white space, with a semicolon, and that a new line
and more than white space follow. -/
def breaks (s : List Char) : List (List Char) :=
  s.inits.filter fun w => (s.drop w.length).head? = some '\n' &&
    (trimmed w).getLast? = some ';' && !(s.drop w.length).all isBlank

theorem mem_breaks {s w rest : List Char} (whole : s = w ++ '\n' :: rest)
    (ends : (trimmed w).getLast? = some ';') (more : ¬ ∀ c ∈ rest, isBlank c = true) :
    w ∈ breaks s := by
  subst whole
  have blank : isBlank '\n' = true := by decide
  simpa [breaks, ends, blank] using more

end Text

namespace Dialogue

/-- The inputs that lines make up. Blank ones are passed over. -/
def inputs : Dialogue → List String → List String
  | _, [] => []
  | d, line :: rest =>
    match d.take line with
    | (none, d) => d.inputs rest
    | (some input, d) =>
      if (Text.trimmed input.toList).isEmpty then d.inputs rest else input :: d.inputs rest

/-- A dialogue that has taken lines, with no regard to its answers. -/
def afterLines (d : Dialogue) (lines : List String) : Dialogue :=
  lines.foldl (fun d line => (d.take line).2) d

end Dialogue

namespace Session

/-- The results of inputs that are scripts, executed one after the other. -/
def answers (files : String → Except FileError String) :
    Session → List String → List (List QueryResult) × Session
  | s, [] => ([], s)
  | s, input :: rest =>
    let (more, s') := (s.execute files input).2.answers files rest
    ((s.answer (Text.trim input)).1 :: more, s')

/-- The inputs that the lines of a text make up. -/
def inputs (s : Session) (text : String) : List String :=
  (Dialogue.ofSession s).inputs (Text.cut text)

/-- A dialogue that is given the lines of a text does what the text does as a whole. -/
structure Hears (files : String → Except FileError String) (s : Session) (text : String) :
    Prop where
  /-- The results of all inputs are those of the text. -/
  results : (s.answers files (s.inputs text)).1.flatten = (s.engine.runScript text).1
  /-- The inputs leave the engine that the text leaves. -/
  engine : (s.answers files (s.inputs text)).2.engine = (s.engine.runScript text).2
  /-- The dialogue executes just these inputs, and shows their results. -/
  outputs : ((Dialogue.ofSession s).run files (Text.cut text)).1.filter (· ≠ .nothing) =
    ((s.answers files (s.inputs text)).1.filter (· ≠ [])).map s.shown
  /-- No line is left without an answer. -/
  dialogue : ((Dialogue.ofSession s).run files (Text.cut text)).2 =
    .ofSession (s.answers files (s.inputs text)).2
  /-- Each input is a script by itself: it ends in no string and in no statement. The last one may
  still end in a comment that is not closed, as the text may. -/
  scripts : ∃ groups, Sql.parseScript text = .ok groups.flatten ∧
    List.Forall₂ (fun input group => Sql.parseScript input = .ok group) (s.inputs text) groups
  /-- What follows an input is read by itself: each input but the last one ends in no comment. -/
  settles : ∀ input ∈ (s.inputs text).dropLast,
    ∃ ts, Sql.Settles (input.toList ++ ['\n']) ts

end Session

/-! ## What is left of a script -/

open Sql

/-- The rest of a script, from behind a line that ends between statements. -/
structure Remains (s : List Char) (ss : List Statement) : Prop where
  script : parseScript (String.ofList s) = .ok ss
  ended : ∀ c ∈ (Text.trimmed s).getLast?, c = ';'
  settles : ∀ w rest, s = w ++ '\n' :: rest → (Text.trimmed w).getLast? = some ';' →
    (¬ ∀ c ∈ rest, Text.isBlank c = true) → ∃ ts, Settles (w ++ ['\n']) ts

namespace Remains

variable {s w rest : List Char} {ss : List Statement} {ts : List Token}

theorem of_blank (blank : ∀ c ∈ s, Text.isBlank c = true) : Remains s [] := by
  refine ⟨parseScript_of_tokens ((Restarts.of_blank blank).tokens 0) .empty, ?_, ?_⟩
  · simp [Text.trimmed_eq_nil_iff.2 blank]
  · rintro w rest rfl ends
    have empty : Text.trimmed w = [] :=
      Text.trimmed_eq_nil_iff.2 fun c hc => blank c (List.mem_append_left _ hc)
    simp [empty] at ends

theorem eq_nil (h : Remains s ss) (blank : ∀ c ∈ s, Text.isBlank c = true) : ss = [] := by
  have same := h.script.symm.trans (of_blank blank).script
  simpa using same

/-- A script falls apart behind a line that ends between statements. -/
theorem divide (h : Remains (w ++ '\n' :: rest) ss) (front : Settles (w ++ ['\n']) ts) :
    ∃ before behind, ss = before ++ behind ∧ parseScript (String.ofList w) = .ok before ∧
      Remains rest behind := by
  have blank : Text.isBlank '\n' = true := by decide
  obtain ⟨us, tokens, script⟩ := exists_tokens_of_ofList h.script
  have whole := tokens 0
  rw [List.append_cons] at whole
  obtain ⟨vs, rfl, behind⟩ := front.restarts.tokens_behind whole
  obtain ⟨first, second, rfl, hfirst, hsecond⟩ := script.split front.settled
  refine ⟨first, second, rfl, ?_, ⟨parseScript_of_tokens behind hsecond, ?_, ?_⟩⟩
  · have before := Lexer.tokens_front (by simpa using blank) (front.restarts.tokens 0)
    exact parseScript_of_tokens before hfirst
  · intro c hc
    refine h.ended c ?_
    rw [List.append_cons]
    exact Text.mem_getLast?_trimmed_append hc
  · rintro w' rest' rfl ends more
    have ends' : (Text.trimmed (w ++ '\n' :: w')).getLast? = some ';' := by
      rw [List.append_cons]
      exact Text.mem_getLast?_trimmed_append ends
    obtain ⟨us, later⟩ := h.settles (w ++ '\n' :: w') rest' (by simp) ends' more
    have cut : w ++ '\n' :: w' ++ ['\n'] = w ++ ['\n'] ++ (w' ++ ['\n']) := by simp
    rw [cut] at later
    obtain ⟨us', -, settles⟩ := later.cancel front
    exact ⟨us', settles⟩

/-- A blank line is passed over. -/
theorem behind_blank (h : Remains (w ++ '\n' :: rest) ss)
    (blank : ∀ c ∈ w, Text.isBlank c = true) : Remains rest ss := by
  have newline : Text.isBlank '\n' = true := by decide
  have settles : Settles (w ++ ['\n']) [] := .of_blank (by grind)
  obtain ⟨before, behind, rfl, hbefore, hbehind⟩ := h.divide settles
  obtain rfl : before = [] := by
    have same := hbefore.symm.trans (of_blank blank).script
    simpa using same
  exact hbehind

/-- An input is a script by itself, and what follows it is the rest of the script. -/
theorem behind (h : Remains (w ++ '\n' :: rest) ss) (ends : (Text.trimmed w).getLast? = some ';') :
    ∃ before behind, ss = before ++ behind ∧ parseScript (String.ofList w) = .ok before ∧
      Remains rest behind ∧
      ((¬ ∀ c ∈ rest, Text.isBlank c = true) → ∃ ts, Settles (w ++ ['\n']) ts) := by
  by_cases more : ∀ c ∈ rest, Text.isBlank c = true
  · obtain ⟨us, tokens, script⟩ := exists_tokens_of_ofList h.script
    have newline : Text.isBlank '\n' = true := by decide
    have front := Lexer.tokens_front (by grind) (tokens 0)
    exact ⟨ss, [], by simp, parseScript_of_tokens front script, of_blank more,
      fun some => absurd more some⟩
  · obtain ⟨ts, front⟩ := h.settles w rest rfl ends more
    obtain ⟨before, behind, hss, hbefore, hbehind⟩ := h.divide front
    exact ⟨before, behind, hss, hbefore, hbehind, fun _ => ⟨ts, front⟩⟩

end Remains

/-! ## Lines and inputs -/

/-- An incomplete input is not blank, is no command and does not end with a semicolon. -/
theorem isComplete_eq_false_iff {input : String} :
    isComplete input = false ↔ Text.trimmed input.toList ≠ [] ∧
      (Text.trimmed input.toList).head? ≠ some '.' ∧
      (Text.trimmed input.toList).getLast? ≠ some ';' := by
  unfold isComplete
  cases Text.trimmed input.toList with
  | nil => simp
  | cons c text =>
    by_cases dot : c = '.'
    · simp [dot]
    · simp [dot]

/-- An input that is no command is complete if it is blank or ends with a semicolon. -/
theorem ends_of_isComplete {input : String} (h : isComplete input = true)
    (plain : (Text.trimmed input.toList).head? ≠ some '.')
    (some : Text.trimmed input.toList ≠ []) :
    (Text.trimmed input.toList).getLast? = .some ';' := by
  by_contra more
  have := isComplete_eq_false_iff.2 ⟨some, plain, more⟩
  simp [h] at this

/-- An input that is neither blank nor a command is a script. -/
theorem ofInput_of_plain {input : String}
    (plain : (Text.trimmed input.toList).head? ≠ some '.')
    (some : Text.trimmed input.toList ≠ []) :
    Request.ofInput input = .script (Text.trim input) := by
  unfold Request.ofInput Text.trim
  split <;> simp_all

namespace Dialogue

/-- The input that a dialogue has, with one more line. -/
def input (d : Dialogue) (line : String) : String :=
  if d.pending.isEmpty then line else d.pending ++ "\n" ++ line

/-- The lines that a dialogue still has to answer. -/
def unanswered (d : Dialogue) (lines : List String) : List String :=
  if d.pending.isEmpty then lines else d.pending :: lines

/-- What a dialogue has not answered yet is no complete input. -/
def Open (d : Dialogue) : Prop := d.pending.isEmpty = true ∨ isComplete d.pending = false

theorem take_eq (d : Dialogue) (line : String) :
    d.take line = if isComplete (d.input line) then (some (d.input line), { d with pending := "" })
      else (none, { d with pending := d.input line }) := rfl

section
variable {d : Dialogue} {line : String}

theorem take_incomplete (h : isComplete (d.input line) = false) :
    d.take line = (none, { d with pending := d.input line }) := by
  simp [take_eq, h]

theorem take_complete (h : isComplete (d.input line) = true) :
    d.take line = (some (d.input line), { d with pending := "" }) := by
  simp [take_eq, h]

theorem inputs_incomplete (h : isComplete (d.input line) = false) (rest : List String) :
    d.inputs (line :: rest) = { d with pending := d.input line : Dialogue }.inputs rest := by
  rw [inputs, take_incomplete h]

theorem inputs_blank (h : isComplete (d.input line) = true)
    (blank : Text.trimmed (d.input line).toList = []) (rest : List String) :
    d.inputs (line :: rest) = { d with pending := "" : Dialogue }.inputs rest := by
  rw [inputs, take_complete h]
  simp [blank]

theorem inputs_complete (h : isComplete (d.input line) = true)
    (some : Text.trimmed (d.input line).toList ≠ []) (rest : List String) :
    d.inputs (line :: rest) =
      d.input line :: { d with pending := "" : Dialogue }.inputs rest := by
  rw [inputs, take_complete h]
  simp [some]

end

theorem joined_unanswered (d : Dialogue) (line : String) (rest : List String) :
    Text.joined (d.unanswered (line :: rest)) = Text.joined (d.input line :: rest) := by
  unfold unanswered input
  split
  · rfl
  · cases rest with
    | nil => simp [Text.joined_cons]
    | cons next rest => simp [Text.joined_cons]

theorem unanswered_incomplete {d : Dialogue} (h : isComplete d.pending = false)
    (lines : List String) : d.unanswered lines = d.pending :: lines := by
  refine if_neg fun empty => ?_
  rw [String.isEmpty_iff.1 empty] at h
  exact absurd h (by decide)

/-- Where no line starts with a dot, no input does. -/
theorem Open.plain {d : Dialogue} {line : String} (h : d.Open)
    (plain : (Text.trimmed line.toList).head? ≠ some '.') :
    (Text.trimmed (d.input line).toList).head? ≠ some '.' := by
  unfold input
  split
  · exact plain
  · next some =>
    -- the input starts with what the dialogue has already
    obtain ⟨some, first, -⟩ := isComplete_eq_false_iff.1 (h.resolve_left some)
    obtain ⟨c, text, trimmed⟩ := List.exists_cons_of_ne_nil some
    have whole := Text.mem_head?_trimmed_append (t := ("\n" ++ line).toList)
      (show c ∈ (Text.trimmed d.pending.toList).head? by simp [trimmed])
    rw [String.append_assoc, String.toList_append, Option.mem_def.1 whole]
    simpa [trimmed] using first

/-- Blank lines make up no input. -/
theorem inputs_of_blank {d : Dialogue} {lines : List String} (empty : d.pending = "")
    (blank : ∀ c ∈ Text.joined lines, Text.isBlank c = true) : d.inputs lines = [] := by
  induction lines generalizing d with
  | nil => rfl
  | cons line rest ih =>
    have input : d.input line = line := by simp [input, empty]
    have front : Text.trimmed line.toList = [] := by
      refine Text.trimmed_eq_nil_iff.2 fun c hc => blank c ?_
      by_cases more : rest = []
      · simpa [more] using hc
      · simp [Text.joined_cons line more, hc]
    have complete : isComplete (d.input line) = true := by
      simp [isComplete, input, front]
    rw [inputs_blank complete (by rw [input, front])]
    refine ih rfl fun c hc => blank c ?_
    by_cases more : rest = []
    · simp [more] at hc
    · simp [Text.joined_cons line more, hc]

/-- The inputs of lines are scripts, and their statements in order are `ss`. No line is left. -/
structure Divides (d : Dialogue) (lines : List String) (ss : List Statement) : Prop where
  answered : (d.afterLines lines).pending = ""
  scripts : ∃ groups, ss = groups.flatten ∧
    List.Forall₂ (fun input group => parseScript input = .ok group) (d.inputs lines) groups
  requests : ∀ input ∈ d.inputs lines, Request.ofInput input = .script (Text.trim input)
  settles : ∀ input ∈ (d.inputs lines).dropLast, ∃ ts, Settles (input.toList ++ ['\n']) ts

namespace Divides

variable {d : Dialogue} {line : String} {rest : List String} {ss : List Statement}

theorem nil (empty : d.pending = "") : d.Divides [] [] where
  answered := empty
  scripts := ⟨[], rfl, .nil⟩
  requests := by simp [inputs]
  settles := by simp [inputs]

/-- A line that makes up no input. -/
theorem skip {pending : String} (h : { d with pending := pending : Dialogue }.Divides rest ss)
    (state : (d.take line).2 = { d with pending := pending })
    (same : d.inputs (line :: rest) = { d with pending := pending : Dialogue }.inputs rest) :
    d.Divides (line :: rest) ss where
  answered := by
    rw [afterLines, List.foldl_cons, state]
    exact h.answered
  scripts := same ▸ h.scripts
  requests := same ▸ h.requests
  settles := same ▸ h.settles

/-- A line that makes up an input. -/
theorem more {input : String} {group : List Statement}
    (h : { d with pending := "" : Dialogue }.Divides rest ss)
    (state : (d.take line).2 = { d with pending := "" })
    (one : d.inputs (line :: rest) = input :: { d with pending := "" : Dialogue }.inputs rest)
    (script : parseScript input = .ok group)
    (request : Request.ofInput input = .script (Text.trim input))
    (settles : { d with pending := "" : Dialogue }.inputs rest ≠ [] →
      ∃ ts, Settles (input.toList ++ ['\n']) ts) : d.Divides (line :: rest) (group ++ ss) where
  answered := by
    rw [afterLines, List.foldl_cons, state]
    exact h.answered
  scripts := by
    obtain ⟨groups, rfl, scripts⟩ := h.scripts
    exact ⟨group :: groups, rfl, one ▸ .cons script scripts⟩
  requests := by
    rw [one]
    simpa [request] using h.requests
  settles := by
    rw [one]
    by_cases last : { d with pending := "" : Dialogue }.inputs rest = []
    · simp [last]
    · rw [List.dropLast_cons_of_ne_nil last]
      simpa [settles last] using h.settles

end Divides

/-- A line that completes an input, if what is left behind it divides. -/
theorem divides_complete {d : Dialogue} {line : String} {rest : List String} {ss : List Statement}
    (complete : isComplete (d.input line) = true)
    (plain : (Text.trimmed (d.input line).toList).head? ≠ some '.')
    (remains : Remains (Text.joined (d.input line :: rest)) ss)
    (more : ∀ ss, Remains (Text.joined rest) ss →
      { d with pending := "" : Dialogue }.Divides rest ss) : d.Divides (line :: rest) ss := by
  have state : (d.take line).2 = { d with pending := "" } := by
    rw [take_complete complete]
  by_cases blank : Text.trimmed (d.input line).toList = []
  · refine .skip (more ss ?_) state (inputs_blank complete blank rest)
    have blank := Text.trimmed_eq_nil_iff.1 blank
    by_cases last : rest = []
    · subst last
      rw [Text.joined_singleton] at remains
      rw [remains.eq_nil blank]
      exact .of_blank (by simp)
    · rw [Text.joined_cons _ last] at remains
      exact remains.behind_blank blank
  have one := inputs_complete complete blank rest
  have request := ofInput_of_plain plain blank
  by_cases last : rest = []
  · subst last
    rw [Text.joined_singleton] at remains
    have script := remains.script
    rw [String.ofList_toList] at script
    rw [← List.append_nil ss]
    exact .more (.nil rfl) state one script request fun some => absurd rfl some
  · rw [Text.joined_cons _ last] at remains
    obtain ⟨before, behind, rfl, script, remains, settles⟩ :=
      remains.behind (ends_of_isComplete complete plain blank)
    rw [String.ofList_toList] at script
    refine .more (more behind remains) state one script request fun some => ?_
    exact settles (mt (inputs_of_blank rfl) some)

/-- **The inputs of a script are scripts, with its statements in order.** -/
theorem divides {d : Dialogue} {lines : List String} {ss : List Statement} (h : d.Open)
    (plain : ∀ line ∈ lines, (Text.trimmed line.toList).head? ≠ some '.')
    (remains : Remains (Text.joined (d.unanswered lines)) ss) : d.Divides lines ss := by
  induction lines generalizing d ss with
  | nil =>
    rcases h with empty | incomplete
    · simp only [unanswered, empty, if_true, Text.joined_nil] at remains
      rw [remains.eq_nil (by simp)]
      exact .nil (by simpa using empty)
    · -- the script would end with an incomplete input
      obtain ⟨some, -, last⟩ := isComplete_eq_false_iff.1 incomplete
      rw [unanswered_incomplete incomplete, Text.joined_singleton] at remains
      rw [List.getLast?_eq_some_getLast some] at last
      have ended := remains.ended
      rw [List.getLast?_eq_some_getLast some] at ended
      exact absurd (congrArg Option.some (ended _ rfl)) last
  | cons line rest ih =>
    rw [joined_unanswered] at remains
    have first := h.plain (plain line List.mem_cons_self)
    have plain' : ∀ line ∈ rest, (Text.trimmed line.toList).head? ≠ some '.' :=
      fun line mem => plain line (List.mem_cons_of_mem _ mem)
    cases complete : isComplete (d.input line) with
    | false =>
      have incomplete : isComplete { d with pending := d.input line : Dialogue }.pending = false :=
        complete
      refine .skip (ih (.inr incomplete) plain' ?_) (by rw [take_incomplete complete])
        (inputs_incomplete complete rest)
      rwa [unanswered_incomplete incomplete]
    | true =>
      exact divides_complete complete first remains fun _ remains =>
        ih (d := { d with pending := "" }) (.inl rfl) plain' remains

end Dialogue

/-! ## Answers -/

namespace Session

variable (files : String → Except FileError String) (s : Session) {input : String}

theorem execute_blank (blank : Text.trimmed input.toList = []) :
    s.execute files input = (.nothing, s) := by
  have request : Request.ofInput input = .nothing := by
    rw [Request.ofInput, blank]
  rw [execute, request]

section
variable (request : Request.ofInput input = .script (Text.trim input))
include request

theorem execute_fst : (s.execute files input).1 = s.shown (s.answer (Text.trim input)).1 := by
  rw [execute, request]
  rfl

theorem engine_execute :
    (s.execute files input).2.engine = (s.engine.runScript (Text.trim input)).2 := by
  rw [execute, request]
  dsimp only
  split <;> rfl

theorem settings_execute : (s.execute files input).2.settings = s.settings := by
  rw [execute, request]
  dsimp only
  split <;> rfl

end

theorem shown_congr {s s' : Session} (h : s.settings = s'.settings) : s.shown = s'.shown := by
  funext results
  simp only [shown, mode, h]

theorem shown_ne_quit (results : List QueryResult) : s.shown results ≠ .quit := by
  unfold shown
  split <;> simp

theorem shown_eq_nothing_iff (results : List QueryResult) :
    s.shown results = .nothing ↔ results = [] := by
  cases results <;> simp [shown]

/-- Scripts one after the other have the results of their statements in a row. -/
theorem answers_scripts {inputs : List String} {groups : List (List Statement)}
    (requests : ∀ input ∈ inputs, Request.ofInput input = .script (Text.trim input))
    (scripts : List.Forall₂ (fun input group => parseScript input = .ok group) inputs groups) :
    (s.answers files inputs).1.flatten = (s.engine.executeAll groups.flatten).1 ∧
      (s.answers files inputs).2.engine = (s.engine.executeAll groups.flatten).2 := by
  induction scripts generalizing s with
  | nil => exact ⟨rfl, rfl⟩
  | @cons input group inputs groups script _ ih =>
    have request := requests input List.mem_cons_self
    have first := Engine.runScript_ok (parseScript_trim script) s.engine
    have engine := engine_execute files s request
    rw [first] at engine
    obtain ⟨results, final⟩ := ih (s.execute files input).2
      fun input mem => requests input (List.mem_cons_of_mem _ mem)
    rw [engine] at results final
    rw [List.flatten_cons, Engine.executeAll_append]
    refine ⟨?_, final⟩
    rw [answers, List.flatten_cons, results, answer, first]

end Session

namespace Dialogue

variable (files : String → Except FileError String) {d : Dialogue}

/-- What lines make up does not depend on the session. -/
theorem inputs_session (d : Dialogue) (s : Session) (lines : List String) :
    { d with session := s : Dialogue }.inputs lines = d.inputs lines ∧
      ({ d with session := s : Dialogue }.afterLines lines).pending =
        (d.afterLines lines).pending := by
  induction lines generalizing d with
  | nil => exact ⟨rfl, rfl⟩
  | cons line rest ih =>
    have same : { d with session := s : Dialogue }.input line = d.input line := rfl
    simp only [inputs, afterLines, List.foldl_cons, take_eq, same] at ih ⊢
    cases isComplete (d.input line) with
    | false => exact ih { d with pending := d.input line }
    | true =>
      obtain ⟨inputs, pending⟩ := ih { d with pending := "" }
      simp only [if_true, inputs, pending, and_self]

theorem hear_incomplete {line : String} (h : isComplete (d.input line) = false) :
    d.hear files line = (.nothing, { d with pending := d.input line }) := by
  rw [hear, take_incomplete h]

theorem hear_complete {line : String} (h : isComplete (d.input line) = true) :
    d.hear files line = ((d.session.execute files (d.input line)).1,
      ⟨(d.session.execute files (d.input line)).2, ""⟩) := by
  rw [hear, take_complete h]

theorem run_cons {line : String} (rest : List String) (more : (d.hear files line).1 ≠ .quit) :
    d.run files (line :: rest) =
      ((d.hear files line).1 :: ((d.hear files line).2.run files rest).1,
        ((d.hear files line).2.run files rest).2) := by
  rw [run]
  split
  · next h =>
    rw [h] at more
    exact absurd rfl more
  · next h => rw [h]

/-- The answers of a dialogue are those to the inputs that its lines make up. -/
structure Answers (files : String → Except FileError String) (d : Dialogue) (lines : List String) :
    Prop where
  outputs : (d.run files lines).1.filter (· ≠ .nothing) =
    ((d.session.answers files (d.inputs lines)).1.filter (· ≠ [])).map d.session.shown
  final : (d.run files lines).2 =
    ⟨(d.session.answers files (d.inputs lines)).2, (d.afterLines lines).pending⟩

namespace Answers

variable {files} {line : String} {rest : List String}

/-- A line that makes up no input has no answer. -/
theorem skip {pending : String}
    (h : Answers files { d with pending := pending : Dialogue } rest)
    (hear : d.hear files line = (.nothing, { d with pending := pending }))
    (state : (d.take line).2 = { d with pending := pending })
    (same : d.inputs (line :: rest) = { d with pending := pending : Dialogue }.inputs rest) :
    Answers files d (line :: rest) := by
  have run := run_cons files rest (show (d.hear files line).1 ≠ .quit by simp [hear])
  rw [hear] at run
  constructor
  · rw [run, same]
    simpa using h.outputs
  · rw [run, same, afterLines, List.foldl_cons, state]
    exact h.final

/-- A line that makes up a script has its results as answer. -/
theorem more {input : String} (request : Request.ofInput input = .script (Text.trim input))
    (h : Answers files ⟨(d.session.execute files input).2, ""⟩ rest)
    (hear : d.hear files line =
      ((d.session.execute files input).1, ⟨(d.session.execute files input).2, ""⟩))
    (state : (d.take line).2 = { d with pending := "" })
    (one : d.inputs (line :: rest) = input :: { d with pending := "" : Dialogue }.inputs rest) :
    Answers files d (line :: rest) := by
  have shown := Session.execute_fst files d.session request
  have settings := Session.settings_execute files d.session request
  rw [shown] at hear
  have run := run_cons files rest (show (d.hear files line).1 ≠ .quit by
    rw [hear]
    exact Session.shown_ne_quit d.session _)
  rw [hear] at run
  obtain ⟨inputs, pending⟩ :=
    inputs_session { d with pending := "" } (d.session.execute files input).2 rest
  have outputs := h.outputs
  have final := h.final
  rw [inputs] at outputs final
  rw [pending] at final
  constructor
  · rw [run, one, Session.answers]
    rw [Session.shown_congr settings] at outputs
    by_cases empty : (d.session.answer (Text.trim input)).1 = []
    · have nothing := (Session.shown_eq_nothing_iff d.session _).2 empty
      rw [nothing]
      simpa [empty] using outputs
    · have some := mt (Session.shown_eq_nothing_iff d.session _).1 empty
      simpa [empty, some] using outputs
  · rw [run, one, afterLines, List.foldl_cons, state]
    exact final

end Answers

theorem answers_lines {lines : List String}
    (requests : ∀ input ∈ d.inputs lines, Request.ofInput input = .script (Text.trim input)) :
    Answers files d lines := by
  induction lines generalizing d with
  | nil => exact ⟨rfl, rfl⟩
  | cons line rest ih =>
    cases complete : isComplete (d.input line) with
    | false =>
      have same := inputs_incomplete complete rest
      exact .skip (ih (same ▸ requests)) (hear_incomplete files complete)
        (by rw [take_incomplete complete]) same
    | true =>
      have state : (d.take line).2 = { d with pending := "" } := by rw [take_complete complete]
      have hear := hear_complete files complete
      by_cases blank : Text.trimmed (d.input line).toList = []
      · have same := inputs_blank complete blank rest
        rw [Session.execute_blank files d.session blank] at hear
        exact .skip (ih (same ▸ requests)) hear state same
      · have one := inputs_complete complete blank rest
        rw [one] at requests
        refine .more (requests _ List.mem_cons_self) (ih fun input mem => ?_) hear state one
        refine requests input (List.mem_cons_of_mem _ ?_)
        rwa [(inputs_session { d with pending := "" } _ rest).1] at mem

end Dialogue

namespace Session

variable {files : String → Except FileError String}

/-- **A script by the line does what it does as a whole,** if each of its lines that ends with a
semicolon, and that more follows, ends between statements. -/
theorem hears_lines (s : Session) {text : String} {ss : List Statement} {es : List Lexeme}
    (accepted : parseScript text = .ok ss) (lexed : lexemes text = .ok es)
    (ended : ∀ c ∈ (Text.trimmed text.toList).getLast?, c = ';')
    (plain : ∀ line ∈ Text.cut text, (Text.trimmed line.toList).head? ≠ some '.')
    (between : ∀ w ∈ Text.breaks text.toList, Between es w) : s.Hears files text := by
  have whole := Text.joined_cut text
  have remains : Remains (Text.joined ((Dialogue.ofSession s).unanswered (Text.cut text))) ss := by
    have same : (Dialogue.ofSession s).unanswered (Text.cut text) = Text.cut text := rfl
    rw [same, whole]
    refine ⟨by rwa [String.ofList_toList], ended, fun w rest hw ends more => ?_⟩
    exact settles_of_between lexed (between w (Text.mem_breaks hw ends more))
  have divides := Dialogue.divides (.inl rfl) plain remains
  have answers := Dialogue.answers_lines files divides.requests
  obtain ⟨groups, rfl, scripts⟩ := divides.scripts
  obtain ⟨results, engine⟩ := answers_scripts files s divides.requests scripts
  have run := Engine.runScript_ok accepted s.engine
  exact {
    results := by rw [run, ← results, inputs]
    engine := by rw [run, ← engine, inputs]
    outputs := answers.outputs
    dialogue := by
      rw [answers.final, divides.answered]
      rfl
    scripts := ⟨groups, accepted, scripts⟩
    settles := divides.settles }

/-- Statements over several lines and several on a line, with semicolons in a comment and in a
string. -/
def longScript : String :=
  "-- t;\nDROP TABLE t; SELECT *\n  FROM t -- all\n  WHERE x = ';;'; \n\nSHOW TABLES;\n"

/-- The lines of such a script, on a session without tables. -/
theorem hears_lines_long :
    parseScript longScript = .ok [.dropTable "t" false,
        .select ["*"] "t" none [⟨"x", .eq, .string ";;"⟩], .showTables] ∧
      (Text.trimmed longScript.toList).getLast? = some ';' ∧
      (∀ line ∈ Text.cut longScript, (Text.trimmed line.toList).head? ≠ some '.') ∧
      lexemes longScript = .ok ((lexemes longScript).toOption.getD []) ∧
      (∀ w ∈ Text.breaks longScript.toList, Between ((lexemes longScript).toOption.getD []) w) ∧
      (ofSettings .initial).Hears (fun _ => .error .notFound) longScript := by
  have facts : parseScript longScript = .ok [.dropTable "t" false,
        .select ["*"] "t" none [⟨"x", .eq, .string ";;"⟩], .showTables] ∧
      (Text.trimmed longScript.toList).getLast? = some ';' ∧
      (∀ line ∈ Text.cut longScript, (Text.trimmed line.toList).head? ≠ some '.') ∧
      lexemes longScript = .ok ((lexemes longScript).toOption.getD []) ∧
      ∀ w ∈ Text.breaks longScript.toList,
        Between ((lexemes longScript).toOption.getD []) w := by
    decide +kernel
  obtain ⟨accepted, ended, plain, lexed, between⟩ := facts
  exact ⟨accepted, ended, plain, lexed, between,
    hears_lines _ accepted lexed (fun c hc => Option.some.inj (hc.symm.trans ended)) plain between⟩

/-- A line may also end with a semicolon in a string. There the dialogue executes what is in front
of it, and neither part of the string is a statement. -/
theorem not_hears_lines :
    ¬ ∀ (files : String → Except FileError String) (s : Session) (text : String)
      (ss : List Statement), parseScript text = .ok ss →
        (∀ c ∈ (Text.trimmed text.toList).getLast?, c = ';') →
        (∀ line ∈ Text.cut text, (Text.trimmed line.toList).head? ≠ some '.') →
        s.Hears files text := by
  intro hears
  have facts : parseScript "SELECT * FROM t WHERE x = ';\n';" =
        .ok [.select ["*"] "t" none [⟨"x", .eq, .string ";\n"⟩]] ∧
      (Text.trimmed "SELECT * FROM t WHERE x = ';\n';".toList).getLast? = some ';' ∧
      (∀ line ∈ Text.cut "SELECT * FROM t WHERE x = ';\n';",
        (Text.trimmed line.toList).head? ≠ some '.') ∧
      ((ofSettings .initial).engine.runScript "SELECT * FROM t WHERE x = ';\n';").1.length = 1 ∧
      ((ofSettings .initial).answers (fun _ => .error .notFound)
        ((ofSettings .initial).inputs "SELECT * FROM t WHERE x = ';\n';")).1.flatten.length =
          2 := by
    decide +kernel
  obtain ⟨accepted, ended, plain, whole, parts⟩ := facts
  have heard := hears (fun _ => .error .notFound) (ofSettings .initial) _ _ accepted
    (fun c hc => Option.some.inj (hc.symm.trans ended)) plain
  rw [heard.results, whole] at parts
  cases parts

end Session
end PocketSql
