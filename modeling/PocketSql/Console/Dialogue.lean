import PocketSql.Console.Session

/-!
# Dialogues

A dialogue takes lines until they make up a complete input, and answers it.
-/

namespace PocketSql

/-- A session, and the lines of the input that is not complete yet. -/
structure Dialogue where
  session : Session
  pending : String
  deriving DecidableEq, Repr

namespace Dialogue

def ofSession (session : Session) : Dialogue := ⟨session, ""⟩

/-- Take a line, and tell the input that it completes. A blank line that starts an input is one. -/
def take (d : Dialogue) (line : String) : Option String × Dialogue :=
  let input := if d.pending.isEmpty then line else d.pending ++ "\n" ++ line
  if isComplete input then (some input, { d with pending := "" })
  else (none, { d with pending := input })

/-- Take a line, and answer the input that it completes. -/
def hear (files : String → Except FileError String) (d : Dialogue) (line : String) :
    Output × Dialogue :=
  match d.take line with
  | (none, d) => (.nothing, d)
  | (some input, d) =>
    let (out, session) := d.session.execute files input
    (out, { d with session })

/-- The answers to lines, the one that quits being the last. An input that stays incomplete has no
answer. -/
def run (files : String → Except FileError String) :
    Dialogue → List String → List Output × Dialogue
  | d, [] => ([], d)
  | d, line :: rest =>
    match d.hear files line with
    | (.quit, d) => ([.quit], d)
    | (out, d) =>
      let (outs, d) := run files d rest
      (out :: outs, d)

end Dialogue
end PocketSql
