import PocketSql.CommandLine

/-!
# The program

The command line on the files, the input and the output of the process.
-/

namespace PocketSql.CommandLine

/-- Why the system does not give a file. -/
def fileError : IO.Error → FileError
  | .noFileOrDirectory .. => .notFound
  | .inappropriateType _ 21 _ => .isDirectory
  | .inappropriateType _ 20 _ => .notDirectory
  | e => .other (toString e)

/-- The text of a file. -/
def readText (path : String) : IO (Except FileError String) := do
  try
    match String.fromUTF8? (← IO.FS.readBinFile path) with
    | some s => return .ok s
    | none => return .error .notText
  catch e => return .error (fileError e)

/-- Answer one input, after the file that it asks for has been read. -/
def answer (s : Session) (input : String) : IO (Output × Session) := do
  match (Request.ofInput input).file? with
  | none => return s.execute (fun _ => .error .notFound) input
  | some path =>
    let file ← readText path
    return s.execute (fun _ => file) input

/-- Answer one input, and tell the exit status. -/
def answerOnce (s : Session) (input : String) : IO UInt32 := do
  let (out, _) ← answer s input
  IO.print (printed out)
  return if out.success then 0 else 1

/-- Answer typed lines up to the end of the input, to one that quits or to a spoiled one. -/
partial def answerLines (d : Dialogue) : IO (Option Dialogue) := do
  let stdin ← IO.getStdin
  if ← stdin.isTty then
    IO.print (d.session.prompt (!d.pending.isEmpty))
    (← IO.getStdout).flush
  let typed ← stdin.getLine
  if typed.isEmpty then return some d
  let some line := Typing.line? ((Text.lines typed).headD "") | return none
  match d.take line with
  | (none, d) => answerLines d
  | (some input, d) =>
    let (out, session) ← answer d.session input
    IO.print (printed out)
    if out = .quit then return some { d with session } else answerLines { d with session }

/-- Hold a dialogue, with the history that is kept in a file if there is one, and tell the exit
status. -/
def answerDialogue (s : Session) : IO UInt32 := do
  let stored ← match s.settings.historyFile with
    | some path => readText path
    | none => pure (.error .notFound)
  let s := match s.loadHistory fun _ => stored with
    | .ok (_, s) => s
    | .error _ => s
  IO.print greeting
  let some d ← answerLines (.ofSession s) | return UInt32.ofNat brokenStatus
  match d.session.settings.historyFile with
  | some path =>
    try IO.FS.writeFile path d.session.history.stored
    catch e => IO.eprintln s!"could not save history: {e}"
  | none => pure ()
  IO.print farewell
  return 0

/-- Do what the arguments ask for, and tell the exit status. -/
def perform (arguments : List String) : IO UInt32 := do
  match Invocation.ofArguments arguments with
  | .usageError =>
    IO.eprint helpText
    return 2
  | .help =>
    IO.print helpText
    return 0
  | .version =>
    IO.print versionText
    return 0
  | .run o =>
    match o.command, o.script with
    | some query, _ => answerOnce o.session query
    | none, some path =>
      match ← readText path with
      | .ok script => answerOnce o.session script
      | .error e =>
        IO.eprintln s!"cannot read script '{path}': {e.message}"
        return 1
    | none, none => answerDialogue o.session

end PocketSql.CommandLine

def main (arguments : List String) : IO UInt32 := PocketSql.CommandLine.perform arguments
