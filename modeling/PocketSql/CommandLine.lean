import PocketSql.Console.Dialogue
import PocketSql.Console.Typing
import PocketSql.Text.Lines

/-!
# The command line

Arguments are read from left to right, and the first that asks for help, asks for the version or is
wrong decides. What is left asks for a query, for a script, or for a dialogue on the standard input.
-/

namespace PocketSql
namespace CommandLine

/-- What the arguments have asked for so far. -/
structure Options where
  script : Option String
  command : Option String
  json : Bool
  historyFile : Option String
  historySize : Option Nat
  strict : Bool
  lenient : Bool
  deriving DecidableEq, Repr

/-- What a run of the program is to do. -/
inductive Invocation where
  | help
  | version
  | usageError
  | run (options : Options)
  deriving DecidableEq, Repr

/-- An option that stands for itself. -/
inductive Switch where
  | json
  | strictUpdates
  | lenientUpdates
  deriving DecidableEq, Repr

/-- An option that has a value. -/
inductive Setting where
  | command
  | historyFile
  | historySize
  deriving DecidableEq, Repr

/-- One argument. The value of a setting can be part of it. -/
inductive Argument where
  | help
  | version
  | switch (s : Switch)
  | setting (s : Setting) (value : Option String)
  | plain (text : String)
  /-- Everything behind it is plain. -/
  | endOfOptions
  | malformed
  deriving DecidableEq, Repr

namespace Argument

/-- An argument of a name behind two dashes, and what follows an equals sign. -/
def ofLong (value : Option String) : String → Argument
  | "command" => setting .command value
  | "history-file" => setting .historyFile value
  | "history-size" => setting .historySize value
  | name =>
    if value.isSome then malformed
    else match name with
      | "help" => help
      | "version" => version
      | "json" => switch .json
      | "strict-updates" => switch .strictUpdates
      | "lenient-updates" => switch .lenientUpdates
      | _ => malformed

/-- The value that is attached to a letter; an equals sign may stand between the two. -/
def attached : List Char → Option String
  | [] => none
  | '=' :: s => some (String.ofList s)
  | s => some (String.ofList s)

/-- What an argument is. -/
def ofText (text : String) : Argument :=
  match text.toList with
  | ['-'] => plain text
  | ['-', '-'] => endOfOptions
  | '-' :: '-' :: s =>
    let value := (s.dropWhile (· ≠ '=')).tail?
    ofLong (value.map String.ofList) (String.ofList (s.takeWhile (· ≠ '=')))
  | '-' :: 'h' :: _ => help
  | '-' :: 'V' :: _ => version
  | '-' :: 'c' :: s => setting .command (attached s)
  | '-' :: _ => malformed
  | _ => plain text

end Argument

namespace Options

def initial : Options := ⟨none, none, false, none, none, false, false⟩

/-- Add a switch; it may be there once. -/
def addSwitch (o : Options) : Switch → Option Options
  | .json => if o.json then none else some { o with json := true }
  | .strictUpdates => if o.strict then none else some { o with strict := true }
  | .lenientUpdates => if o.lenient then none else some { o with lenient := true }

/-- Add the value of a setting; each may have one. The name of a file is not empty. -/
def addSetting (o : Options) (value : String) : Setting → Option Options
  | .command => if o.command.isSome then none else some { o with command := some value }
  | .historyFile =>
    if o.historyFile.isSome || value.isEmpty then none
    else some { o with historyFile := some value }
  | .historySize =>
    match o.historySize, count? value with
    | none, some n => some { o with historySize := some n }
    | _, _ => none

/-- Add a plain argument: the script, of which there is one at most. -/
def addPlain (o : Options) (text : String) : Option Options :=
  if o.script.isSome || text.isEmpty then none else some { o with script := some text }

/-- Options that exclude each other do not come together. -/
def checked (o : Options) : Invocation :=
  if (o.command.isSome && o.script.isSome) || (o.strict && o.lenient) then .usageError else .run o

/-- The settings that options ask for. -/
def settings (o : Options) : Settings :=
  { Settings.initial.withCapacity (o.historySize.getD History.defaultCapacity) with
    historyFile := o.historyFile
    mode := if o.json then .json else .table
    policy := if o.strict then .reject else if o.lenient then .skip else .warn }

/-- The session that options ask for. -/
def session (o : Options) : Session := .ofSettings o.settings

end Options

namespace Invocation

/-- Read plain arguments. -/
def ofPlain : Options → List String → Invocation
  | o, [] => o.checked
  | o, text :: rest =>
    match o.addPlain text with
    | some o => ofPlain o rest
    | none => usageError

/-- Read arguments. A setting without attached value takes the next argument, if that is plain. -/
def ofArgumentsFrom : Options → List String → Invocation
  | o, [] => o.checked
  | o, text :: rest =>
    match Argument.ofText text with
    | .help => help
    | .version => version
    | .malformed => usageError
    | .endOfOptions => ofPlain o rest
    | .switch s =>
      match o.addSwitch s with
      | some o => ofArgumentsFrom o rest
      | none => usageError
    | .plain text =>
      match o.addPlain text with
      | some o => ofArgumentsFrom o rest
      | none => usageError
    | .setting s (some value) =>
      match o.addSetting value s with
      | some o => ofArgumentsFrom o rest
      | none => usageError
    | .setting s none =>
      match rest with
      | [] => usageError
      | value :: rest =>
        match Argument.ofText value, o.addSetting value s with
        | .plain _, some o => ofArgumentsFrom o rest
        | _, _ => usageError

/-- What arguments ask for. -/
def ofArguments (arguments : List String) : Invocation := ofArgumentsFrom .initial arguments

end Invocation

/-- The answer to `--version`. -/
def versionText : String := "minidb-cli 0.1.0\n"

/-- The answer to `--help`. -/
def helpText : String := "\n".intercalate
  ["A minimal in-memory relational data store with a small SQL dialect",
   "",
   "Usage: minidb-cli [OPTIONS] [SCRIPT]",
   "",
   "Arguments:",
   "  [SCRIPT]  Script of `;`-separated statements to run instead of the console",
   "",
   "Options:",
   "  -c, --command <QUERY>      Run a single query and exit",
   "      --json                 Print results as JSON",
   "      --history-file <FILE>  File the query history is loaded from and saved to",
   "      --history-size <N>     Number of queries kept in the history [default: 500]",
   "      --strict-updates       Fail an UPDATE that assigns a value its column rejects",
   "      --lenient-updates      Skip rejected UPDATE values without a warning",
   "  -h, --help                 Print help",
   "  -V, --version              Print version",
   ""]

/-- What a dialogue starts with. -/
def greeting : String := "\n".intercalate
  ["",
   " minidb 0.1.0",
   " An in-memory relational store with a small SQL dialect",
   " Type '.help' for help, '.quit' to exit",
   "",
   ""]

/-- What a dialogue ends with. -/
def farewell : String := "Goodbye!\n"

/-- An output as it is printed. -/
def printed : Output → String
  | .text text _ => text ++ "\n"
  | _ => ""

/-- What a run of the program leaves: its exit status, what it printed, and the files. -/
structure Outcome where
  status : Nat
  printed : String
  folder : Folder
  deriving DecidableEq, Repr

/-- Answer one input. -/
def batch (f : Folder) (s : Session) (input : String) : Outcome :=
  let (out, _) := s.execute f.read input
  ⟨if out.success then 0 else 1, printed out, f⟩

/-- The exit status of a dialogue that a spoiled line breaks off. -/
def brokenStatus : Nat := 101

/-- Answer typed lines. A history that cannot be read is left out; one that cannot be stored is
lost. A spoiled line breaks the dialogue off, unless a line before it quits. -/
def converse (f : Folder) (s : Session) (typed : List String) : Outcome :=
  let s := match s.loadHistory f.read with
    | .ok (_, s) => s
    | .error _ => s
  let lines := typed.map Typing.line?
  let (outs, d) := (Dialogue.ofSession s).run f.read ((lines.takeWhile Option.isSome).filterMap id)
  let shown := greeting ++ String.join (outs.map printed)
  if none ∈ lines ∧ outs.getLast? ≠ some .quit then ⟨brokenStatus, shown, f⟩
  else
    let f := match d.session.saveHistory f with
      | .ok f => f
      | .error _ => f
    ⟨0, shown ++ farewell, f⟩

/-- Run the program with arguments and a standard input. -/
def run (f : Folder) (arguments : List String) (input : String) : Outcome :=
  match Invocation.ofArguments arguments with
  | .usageError => ⟨2, "", f⟩
  | .help => ⟨0, helpText, f⟩
  | .version => ⟨0, versionText, f⟩
  | .run o =>
    match o.command, o.script with
    | some query, _ => batch f o.session query
    | none, some path =>
      match f.read path with
      | .ok script => batch f o.session script
      | .error _ => ⟨1, "", f⟩
    | none, none => converse f o.session (Text.lines input)

end CommandLine
end PocketSql
