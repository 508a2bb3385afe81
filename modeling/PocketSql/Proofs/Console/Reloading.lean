import PocketSql.Proofs.Console.Window
import PocketSql.Proofs.Sql.Trimming

/-!
# Histories that are stored and loaded

A stored history has a line for each query, and loading it trims the lines and passes over blank
ones. Nothing is lost by that, since no query in the history of a session is blank or has white space
at an end, whatever was entered and whatever files were read.

## Main definitions

* `Text.Solid` — a text without white space at its ends.
* `Session.Event` — what a session is given, and the session after it.

## Main results

* `Session.Reached.exists_ops` — the history of a session records solid queries only.
* `History.storedQueries_stored` — a stored history of solid queries has these queries.
* `Session.reload_stored` — the history of a session is loaded as it was stored.
-/

namespace PocketSql

namespace Text

/-- A text that is not empty and has no white space at its ends. -/
structure Solid (s : List Char) : Prop where
  ne_nil : s ≠ []
  head : ∀ c ∈ s.head?, isBlank c = false
  last : ∀ c ∈ s.getLast?, isBlank c = false

variable {s : List Char}

theorem solid_of_trimmed (h : trimmed s ≠ []) : Solid (trimmed s) :=
  ⟨h, (solid_trimmed s).1, (solid_trimmed s).2⟩

theorem Solid.trimmed_eq (h : Solid s) : trimmed s = s := by
  have front : s.dropWhile isBlank = s := by
    cases s with
    | nil => rfl
    | cons c s => exact List.dropWhile_cons_of_neg (by simp [h.head c rfl])
  have back : s.rdropWhile isBlank = s := by
    rw [List.rdropWhile_eq_self_iff]
    intro some
    simp [h.last _ (List.getLast?_eq_some_getLast some)]
  calc trimmed s = (s.dropWhile isBlank).rdropWhile isBlank := rfl
    _ = s := by rw [front, back]

end Text

namespace History

open Text (Solid)

/-! ## Queries on one line -/

/-- A line break becomes a space. -/
def flat (c : Char) : Char := if c = '\r' || c = '\n' then ' ' else c

theorem toList_oneLine (query : String) : (oneLine query).toList = query.toList.map flat := by
  rw [oneLine, String.toList_ofList]
  rfl

theorem flat_ne (c : Char) : flat c ≠ '\r' ∧ flat c ≠ '\n' := by
  rw [flat]
  split
  · decide
  · next other => simpa using other

theorem flat_of_solid {c : Char} (h : Text.isBlank c = false) : flat c = c := by
  rw [flat, if_neg]
  intro broken
  have : c = '\r' ∨ c = '\n' := by simpa using broken
  obtain rfl | rfl := this <;> exact absurd h (by decide)

theorem flat_flat (c : Char) : flat (flat c) = flat c := by
  conv_lhs => rw [flat]
  simp [flat_ne c]

@[simp] theorem oneLine_oneLine (query : String) : oneLine (oneLine query) = oneLine query := by
  rw [← String.toList_inj, toList_oneLine, toList_oneLine, List.map_map]
  exact List.map_congr_left fun c _ => flat_flat c

theorem isLine_oneLine (query : String) : Text.IsLine (oneLine query).toList := by
  rw [toList_oneLine]
  constructor
  · intro mem
    obtain ⟨c, -, hc⟩ := List.mem_map.1 mem
    exact (flat_ne c).2 hc
  · intro last
    obtain ⟨c, -, hc⟩ := List.mem_map.1 (List.mem_of_getLast? last)
    exact (flat_ne c).1 hc

/-- A solid query stays so on one line: its ends are no line breaks. -/
theorem solid_oneLine {query : String} (h : Solid query.toList) :
    Solid (oneLine query).toList := by
  rw [toList_oneLine]
  refine ⟨by simpa using h.ne_nil, fun c hc => ?_, fun c hc => ?_⟩
  · rw [List.head?_map] at hc
    obtain ⟨d, hd, rfl⟩ := Option.mem_map.1 hc
    rw [flat_of_solid (h.head d hd)]
    exact h.head d hd
  · rw [List.getLast?_map] at hc
    obtain ⟨d, hd, rfl⟩ := Option.mem_map.1 hc
    rw [flat_of_solid (h.last d hd)]
    exact h.last d hd

/-! ## Stored histories -/

/-- The queries of a history, oldest first. -/
def queries (h : History) : List String := h.entries.map (·.query)

theorem stored_eq (h : History) :
    h.stored = String.join ((h.queries.map oneLine).map (· ++ "\n")) := by
  rw [stored, queries, List.map_map, List.map_map]
  rfl

theorem trim_of_solid {query : String} (h : Solid query.toList) : Text.trim query = query := by
  rw [Text.trim, h.trimmed_eq, String.ofList_toList]

/-- A stored history of solid queries has these queries, each on one line. -/
theorem storedQueries_stored {h : History} (solid : ∀ query ∈ h.queries, Solid query.toList) :
    storedQueries h.stored = h.queries.map oneLine := by
  have lines : Text.lines h.stored = h.queries.map oneLine := by
    rw [stored_eq]
    apply Text.lines_join
    rw [List.forall_mem_map]
    exact fun query _ => isLine_oneLine query
  have each : ∀ line ∈ h.queries.map oneLine, Solid line.toList := by
    rw [List.forall_mem_map]
    exact fun query hq => solid_oneLine (solid query hq)
  rw [storedQueries, lines, List.map_congr_left fun line hl => trim_of_solid (each line hl),
    List.map_id', List.filter_eq_self]
  intro line hl
  have text : line ≠ "" := by simpa using (each line hl).ne_nil
  simpa using text

/-- Loaded queries are solid. -/
theorem solid_of_mem_storedQueries {stored query : String} (h : query ∈ storedQueries stored) :
    Solid query.toList := by
  obtain ⟨mem, text⟩ := List.mem_filter.1 h
  obtain ⟨line, -, rfl⟩ := List.mem_map.1 mem
  rw [Text.trim, String.toList_ofList]
  exact Text.solid_of_trimmed (by simpa [Text.trim] using text)

/-- An operation that records solid queries only. A file may hold anything. -/
def Op.IsSolid : Op → Prop
  | .push query _ => Solid query.toList
  | .load _ _ => True
  | .clear => True

theorem solid_of_mem_recordedBy {ops : List Op} (h : ∀ op ∈ ops, op.IsSolid)
    {query : String × Bool} (mem : query ∈ recordedBy ops) : Solid query.1.toList := by
  obtain ⟨op, hop, recorded⟩ := List.mem_flatMap.1 mem
  cases op with
  | push query success =>
    rw [Op.recorded, List.mem_singleton] at recorded
    rw [recorded]
    exact h _ hop
  | clear => cases recorded
  | load files path =>
    simp only [Op.recorded] at recorded
    split at recorded
    · obtain ⟨query, hq, rfl⟩ := List.mem_map.1 recorded
      exact solid_of_mem_storedQueries hq
    · cases recorded

/-- A new history that loads queries, no more than it can hold, has one entry for each. -/
theorem load_ofCapacity {capacity : Nat} {stored : String}
    (fits : (storedQueries stored).length ≤ capacity) :
    ((ofCapacity capacity).load stored).capacity = max capacity 1 ∧
      ((ofCapacity capacity).load stored).entries =
        numbered ((storedQueries stored).map (·, true)) := by
  have capacity_eq := (Continues.pushAll (ofCapacity capacity) (storedQueries stored)).capacity_eq
  have entries := ((shows_ofCapacity capacity).pushAll (storedQueries stored)).entries
  have large : capacity ≤ (ofCapacity capacity).capacity := Nat.le_max_left _ _
  refine ⟨capacity_eq, ?_⟩
  rw [capacity_eq] at entries
  rw [load, entries, List.nil_append, List.rtake, length_numbered, List.length_map,
    Nat.min_eq_right (Nat.le_trans fits large), Nat.sub_self, List.drop_zero]

theorem queries_numbered (queries : List String) :
    (numbered (queries.map (·, true))).map (·.query) = queries := by
  have both := congrArg (List.map Prod.fst) (map_numbered (queries.map (·, true)))
  rw [List.map_map, List.map_map] at both
  exact both.trans (List.map_id queries)

end History

/-! ## Sessions -/

namespace Session

open Text (Solid)
open History (Op)

/-- What a session is given, with the files as they are at that time. -/
inductive Event where
  | input (files : String → Except FileError String) (text : String)
  | loadHistory (files : String → Except FileError String)

/-- The session after it is given something. A history that cannot be loaded is left out. -/
def after (s : Session) : Event → Session
  | .input files text => (s.execute files text).2
  | .loadHistory files =>
    match s.loadHistory files with
    | .ok (_, loaded) => loaded
    | .error _ => s

/-- A session that events lead to from a new one. -/
def Reached (s : Session) : Prop :=
  ∃ settings events, s = List.foldl after (ofSettings settings) events

/-! ### What is entered -/

theorem argument_of_read {argument : Option String} {word path : String}
    (h : Command.ofWord argument word = .read (some path)) : argument = some path := by
  unfold Command.ofWord at h
  split at h <;> cases h
  rfl

/-- A file that is read has a solid name. -/
theorem solid_of_ofLine {line : List Char} {path : String}
    (h : Command.ofLine line = .read (some path)) : Solid path.toList := by
  have argument := argument_of_read h
  split at argument
  · cases argument
  · next text =>
    cases argument
    rw [String.toList_ofList]
    exact Text.solid_of_trimmed (by simpa using text)

theorem solid_of_script {input text : String} (h : Request.ofInput input = .script text) :
    Solid text.toList := by
  unfold Request.ofInput at h
  split at h
  · cases h
  · cases h
  · next some _ =>
    cases h
    rw [String.toList_ofList]
    exact Text.solid_of_trimmed some

theorem solid_of_command {input path : String}
    (h : Request.ofInput input = .command (.read (some path))) : Solid path.toList := by
  unfold Request.ofInput at h
  split at h
  · cases h
  · exact solid_of_ofLine (Request.command.inj h)
  · cases h

/-- What is recorded of a file that is read is solid as its name is. -/
theorem solid_read {path : String} (h : Solid path.toList) : Solid (".read " ++ path).toList := by
  have front : (".read " ++ path).toList = ['.', 'r', 'e', 'a', 'd', ' '] ++ path.toList := by
    rw [String.toList_append]
    rfl
  rw [front]
  refine ⟨by simp, ?_, ?_⟩
  · rintro c ⟨⟩
    decide
  · rw [List.getLast?_append_of_ne_nil _ h.ne_nil]
    exact h.last

/-! ### What is done to the history -/

theorem history_perform (files : String → Except FileError String) (s : Session) {c : Command}
    (solid : ∀ path, c = .read (some path) → Solid path.toList) :
    (s.perform files c).2.history = s.history ∨
      ∃ op : Op, op.IsSolid ∧ (s.perform files c).2.history = s.history.after op := by
  cases c with
  | clearHistory => exact .inr ⟨.clear, trivial, rfl⟩
  | read path =>
    cases path with
    | none => exact .inl rfl
    | some path =>
      rw [perform]
      cases files path with
      | error e => exact .inl rfl
      | ok script =>
        let results := (s.answer script).1
        exact .inr ⟨.push (".read " ++ path) (results.all (·.success)),
          solid_read (solid path rfl), rfl⟩
  | schema table => cases table <;> exact .inl rfl
  | search text => cases text <;> exact .inl rfl
  | history typed =>
    cases typed with
    | none => exact .inl rfl
    | some typed =>
      rw [perform]
      cases count? typed <;> exact .inl rfl
  | mode name =>
    cases name with
    | none => exact .inl rfl
    | some name =>
      rw [perform]
      cases OutputMode.ofName? name <;> exact .inl rfl
  | _ => exact .inl rfl

/-- Whatever is entered, at most one thing is done to the history, and what it records is solid. -/
theorem history_execute (files : String → Except FileError String) (s : Session)
    (input : String) :
    (s.execute files input).2.history = s.history ∨
      ∃ op : Op, op.IsSolid ∧ (s.execute files input).2.history = s.history.after op := by
  fun_cases execute files s input with
  | case1 => exact .inl rfl
  | case2 c request =>
    refine history_perform files s fun path read => ?_
    exact solid_of_command (read ▸ request)
  | case3 text request results s' answered =>
    have same : s'.history = s.history := by
      cases answered
      rfl
    cases empty : results.isEmpty with
    | true => exact .inl (by simpa using same)
    | false =>
      refine .inr ⟨.push text (results.all (·.success)), solid_of_script request, ?_⟩
      simp [record, same, History.after]

/-- Whatever a session is given, at most one thing is done to its history. -/
theorem history_after (s : Session) (event : Event) :
    (s.after event).history = s.history ∨
      ∃ op : Op, op.IsSolid ∧ (s.after event).history = s.history.after op := by
  cases event with
  | input files text => exact history_execute files s text
  | loadHistory files =>
    rw [after, Session.loadHistory]
    cases s.settings.historyFile with
    | none => exact .inl rfl
    | some path =>
      refine .inr ⟨.load files path, trivial, ?_⟩
      simp only [History.after]
      cases s.history.loadFile files path <;> rfl

/-- The history of a session records solid queries only. -/
theorem Reached.exists_ops {s : Session} (h : s.Reached) :
    ∃ capacity ops, s.history = (History.ofCapacity capacity).afterAll ops ∧
      ∀ op ∈ ops, op.IsSolid := by
  obtain ⟨settings, events, rfl⟩ := h
  induction events using List.reverseRecOn with
  | nil => exact ⟨settings.historyCapacity, [], rfl, fun _ hop => nomatch hop⟩
  | append_singleton events event ih =>
    obtain ⟨capacity, ops, history, solid⟩ := ih
    rw [List.foldl_concat]
    obtain same | ⟨op, hop, done⟩ := history_after (List.foldl after (ofSettings settings) events) event
    · exact ⟨capacity, ops, same.trans history, solid⟩
    · refine ⟨capacity, ops ++ [op], ?_, ?_⟩
      · rw [done, history, History.afterAll, History.afterAll, List.foldl_concat]
      · simpa [or_imp, forall_and] using ⟨solid, hop⟩

/-- All queries in the history of a session are solid. -/
theorem Reached.solid {s : Session} (h : s.Reached) :
    ∀ query ∈ s.history.queries, Solid query.toList := by
  obtain ⟨capacity, ops, history, solid⟩ := h.exists_ops
  rw [History.queries, List.forall_mem_map]
  intro e he
  rw [history] at he
  have recorded : (e.query, e.success) ∈ History.recordedBy ops :=
    List.mem_of_getElem? ((History.shows_afterAll capacity ops).getElem?_of_mem he).2
  exact History.solid_of_mem_recordedBy solid recorded

theorem Reached.shows {s : Session} (h : s.Reached) : ∃ all recent, s.history.Shows all recent := by
  obtain ⟨capacity, ops, history, -⟩ := h.exists_ops
  exact ⟨_, _, history ▸ History.shows_afterAll capacity ops⟩

/-- **A stored history is loaded as it was stored.** Whatever a session was given, and whatever files
it read, its history can be saved in a file and loaded into a new history of the same capacity. This
gives an entry for each entry, in the same order and numbered from 1 on, with the query on one line;
and what is stored of it is the same text. -/
theorem reload_stored {s : Session} (reached : s.Reached) {f g : Folder} {path : String}
    (saved : f.write path s.history.stored = .ok g) :
    ∃ h, (History.ofCapacity s.history.capacity).loadFile g.read path =
        .ok (s.history.entries.length, h) ∧
      h.entries = s.history.entries.mapIdx (fun i e => ⟨i + 1, History.oneLine e.query, true⟩) ∧
      h.capacity = s.history.capacity ∧ h.stored = s.history.stored := by
  have queries := History.storedQueries_stored reached.solid
  have length : (History.storedQueries s.history.stored).length = s.history.entries.length := by
    rw [queries, List.length_map, History.queries, List.length_map]
  obtain ⟨all, recent, shows⟩ := reached.shows
  have fits : s.history.entries.length ≤ s.history.capacity :=
    shows.length_entries ▸ Nat.min_le_left _ _
  obtain ⟨capacity_eq, entries⟩ := History.load_ofCapacity (length.trans_le fits)
  refine ⟨(History.ofCapacity s.history.capacity).load s.history.stored, ?_, ?_, ?_, ?_⟩
  · simp only [History.loadFile, Folder.read_write saved, length]
  · rw [entries, queries]
    apply List.ext_getElem
    · simp [History.queries]
    · intro i _ _
      simp [History.numbered, History.queries]
  · rw [capacity_eq, Nat.max_eq_left shows.capacity_pos]
  · -- the reloaded queries are on one line already
    have again : (s.history.queries.map History.oneLine).map History.oneLine =
        s.history.queries.map History.oneLine := by
      rw [List.map_map]
      exact List.map_congr_left fun query _ => History.oneLine_oneLine query
    rw [History.stored_eq, History.queries, entries, History.queries_numbered, queries, again,
      ← History.stored_eq]

/-- A session that can keep two queries, and was given three: the second one spans two lines, and
the last one reads a file. -/
def crowded : Session :=
  List.foldl after (ofSettings (Settings.initial.withCapacity 2))
    [.input (fun _ => .error .notFound) "SHOW TABLES",
      .input (fun _ => .error .notFound) " SELECT *\r\nFROM t;\n",
      .input (fun _ => .ok "") ".read  two words.sql "]

theorem entries_crowded : crowded.history.entries =
    [⟨2, "SELECT *\r\nFROM t;", false⟩, ⟨3, ".read two words.sql", true⟩] := by
  decide +kernel

theorem names_h : Folder.names "h" = .ok ["h"] := by
  have other : (String.Pos.Raw.get "h" 0 == String.Pos.Raw.get "/" 0) = false := by decide
  have split : "h".splitOn "/" = ["h"] := by
    rw [String.splitOn, if_neg (by decide), String.splitOnAux.eq_def, if_neg (by decide), other,
      if_neg (by decide), String.splitOnAux.eq_def, if_pos (by decide)]
    decide
  rw [Folder.names, split]
  rfl

theorem reload_stored_crowded :
    crowded.Reached ∧
      ∃ g, Folder.empty.write "h" crowded.history.stored = .ok g ∧
        ∃ h, (History.ofCapacity crowded.history.capacity).loadFile g.read "h" = .ok (2, h) ∧
          h.entries = [⟨1, "SELECT *  FROM t;", true⟩, ⟨2, ".read two words.sql", true⟩] ∧
          h.stored = crowded.history.stored := by
  have reached : crowded.Reached := ⟨_, _, rfl⟩
  have saved : ∀ text, Folder.empty.write "h" text = .ok ⟨[(["h"], .text text)]⟩ := by
    intro text
    rw [Folder.write, names_h]
    rfl
  obtain ⟨h, loaded, entries, -, same⟩ := reload_stored reached (saved crowded.history.stored)
  rw [entries_crowded] at loaded entries
  exact ⟨reached, _, saved _, h, loaded, entries.trans (by decide +kernel), same⟩

end Session
end PocketSql
