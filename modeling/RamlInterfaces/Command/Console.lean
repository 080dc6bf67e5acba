/-
**What a command prints.**

Data goes to the standard output and everything else to the standard error.  What a terminal shows
of a message with marks of style, of a table or of code is up to the surroundings.

* `Format`: the formats of data;
* `Transcript`: what was printed;
* `Renderer`: what a terminal shows; `Renderer.plain`, one without styles;
* `Console`: the choices that decide what is printed;
* `Console.info`, `Console.success`, `Console.warning`, `Console.error`, `Console.suggest`,
  `Console.debug`: messages;
* `Console.data`, `Console.response`, `Console.table`: data.
-/

import RamlInterfaces.Failure
import RamlInterfaces.Generation.Session
import RamlInterfaces.Json.Writer
import RamlInterfaces.Settings.Variables

namespace RamlInterfaces.Command

/-- The formats of data; `auto` leaves the choice to the surroundings. -/
inductive Format where
  | auto
  | json
  | plain
  | rich
deriving DecidableEq, Repr

/-- The word of a format. -/
def Format.word : Format → String
  | .auto => "auto"
  | .json => "json"
  | .plain => "plain"
  | .rich => "rich"

/-- The format of a word. -/
def Format.ofWord? (word : String) : Option Format :=
  [Format.auto, .json, .plain, .rich].find? (·.word == word)

/-- The environment asks for no colours. -/
def asksForNoColor (environment : Settings.Variables) : Bool :=
  (environment.value? "NO_COLOR").isSome || environment.value? "TERM" == some "dumb"

/-- The format in use: a choice that was left open falls on the rich format on a terminal with
colours, and else on the plain one. -/
def Format.resolve (format : Format) (terminal colorful : Bool) : Format :=
  match format with
  | .auto => if terminal && colorful then .rich else .plain
  | chosen => chosen

/-- What was printed to the standard output and to the standard error. -/
structure Transcript where
  output : String := ""
  errors : String := ""
deriving DecidableEq, Repr

instance : Append Transcript where
  append first second := ⟨first.output ++ second.output, first.errors ++ second.errors⟩

/-- Everything that was printed, one part after the other. -/
def Transcript.concat (parts : List Transcript) : Transcript :=
  parts.foldl (· ++ ·) {}

/-- A table with its title. -/
structure Table where
  title : String := ""
  headers : List String
  rows : List (List String)

/-- The rows of a table with tabs between the cells, its headers first. -/
def Table.lines (table : Table) : List String := (table.headers :: table.rows).map "\t".intercalate

/-- What a terminal shows of a message, in which marks of style stand in square brackets, of JSON
and of a table, line ends included. -/
structure Renderer where
  message : String → String
  json : String → Except Failure String
  table : Table → Except Failure String

/-- The marks of style of messages. -/
def styleMarks : List (List Char) :=
  ["[green]", "[/green]", "[yellow]", "[/yellow]", "[bold red]", "[/bold red]", "[dim]",
    "[/dim]"].map String.toList

/-- A message without marks of style; a bracket after a backslash opens none. -/
def withoutMarks : Nat → List Char → List Char
  | 0, cs => cs
  | _, [] => []
  | rounds + 1, c :: cs =>
    match styleMarks.find? (·.isPrefixOf (c :: cs)) with
    | some mark => withoutMarks rounds (cs.drop (mark.length - 1))
    | none =>
      match c, cs with
      | '\\', '[' :: rest => '[' :: withoutMarks rounds rest
      | c, cs => c :: withoutMarks rounds cs

/-- The renderer that shows no styles, and tables as lines. -/
def Renderer.plain : Renderer where
  message text := String.ofList (withoutMarks text.length text.toList) ++ "\n"
  json text := .ok (text ++ "\n")
  table table := .ok (String.join (table.lines.map (· ++ "\n")))

/-- The choices that decide what is printed; the format is a resolved one. -/
structure Console where
  format : Format
  colorful : Bool := false
  quiet : Bool := false
  verbose : Bool := false
  renderer : Renderer := .plain

namespace Console

/-- A message on the standard error; only a console with colours has one with marks of style
rendered. -/
def note (console : Console) (text styled : String) : Transcript :=
  { errors := if console.colorful then console.renderer.message styled else text ++ "\n" }

/-- A line on the standard output. -/
def data (text : String) : Transcript := { output := text ++ "\n" }

/-- A message that a quiet console leaves out. -/
def unlessQuiet (console : Console) (text styled : String) : Transcript :=
  if console.quiet then {} else console.note text styled

/-- A message. -/
def info (console : Console) (message : String) : Transcript := console.unlessQuiet message message

/-- A message about what succeeded. -/
def success (console : Console) (message : String) : Transcript :=
  console.unlessQuiet message ("[green]" ++ message ++ "[/green]")

/-- A next step. -/
def suggest (console : Console) (message : String) : Transcript :=
  console.unlessQuiet ("→ " ++ message) ("[dim]→ " ++ message ++ "[/dim]")

/-- A warning. -/
def warning (console : Console) (message : String) : Transcript :=
  console.note ("Warning: " ++ message) ("[yellow]Warning:[/yellow] " ++ message)

/-- An error. -/
def error (console : Console) (message : String) : Transcript :=
  console.note ("Error: " ++ message) ("[bold red]Error:[/bold red] " ++ message)

/-- A message about the course of a run. -/
def debug (console : Console) (message : String) : Transcript :=
  if console.verbose then
    console.note ("[debug] " ++ message) ("[dim]\\[debug] " ++ message ++ "[/dim]")
  else {}

/-- A report of a run. -/
def report (console : Console) (record : Generation.Record) : Transcript :=
  match record.level with
  | .debug => console.debug record.message
  | .warning => console.warning record.message

/-- The plain text of a value in an entry: the items of a list with commas between them. -/
def plainEntry : Value → Except Failure String
  | .list items => do
    let texts ← items.mapM fun item => written item.toText?
    return ", ".intercalate texts
  | other => written other.toText?

/-- A value in plain text: a line for every entry or item. -/
def plainLines : Value → Except Failure (List String)
  | .map entries => entries.mapM fun (key, value) => do
    let text ← plainEntry value
    let name ← written key.toText?
    return name ++ "\t" ++ text
  | .list items => items.mapM fun item => written item.toText?
  | other => do
    let text ← written other.toText?
    return [text]

/-- A value as JSON, which has no form for some keys and integers. -/
def json (value : Value) : Except Failure String :=
  match Json.write .unicode value with
  | some text => .ok text
  | none => .error (.defect .unwritableValue)

/-- A value as data. -/
def response (console : Console) (value : Value) : Except Failure Transcript := do
  if console.format = .plain then
    let lines ← plainLines value
    return .concat (lines.map data)
  let text ← json value
  if console.format = .json then return data text
  let shown ← console.renderer.json text
  return { output := shown }

/-- A row of a table as an object: of two headers of one name the value of the last counts. -/
def rowObject (headers row : List String) : Value :=
  .map (Entries.ofList ((headers.zip row).map fun (header, cell) =>
    (Scalar.text header, Value.scalar (.text cell))))

/-- A table as data. -/
def table (console : Console) (table : Table) : Except Failure Transcript := do
  if console.format = .json then
    let text ← json (.list (table.rows.map (rowObject table.headers)))
    return data text
  if console.format = .plain then return .concat (table.lines.map data)
  let shown ← console.renderer.table table
  return { output := shown }

end Console

end RamlInterfaces.Command
