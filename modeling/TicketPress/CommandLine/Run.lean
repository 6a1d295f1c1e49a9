import TicketPress.CommandLine.Arguments
import TicketPress.CommandLine.Files
import TicketPress.CommandLine.Preview
import TicketPress.CommandLine.Report
import TicketPress.Project.Document
import TicketPress.Project.Range
import TicketPress.Script.Recovery

/-!
# What the tasks do

A task reads files and answers with an outcome: a status, texts for the two
outputs, and at most one file to be written. Only an import writes. It is the
last thing an import decides on, so whenever something is wrong before, all
files stay as they are.
-/

namespace TicketPress.CommandLine

open Json (Value)

/-! ## Outcomes -/

/-- What a run of the command line ends with. -/
structure Outcome where
  /-- The status: zero for success, one for failure, two for a wrong command
  line. -/
  code : Nat := 0
  output : String := ""
  /-- The lines for the second output. -/
  errors : List String := []
  /-- The path and the text of the file that is written. -/
  written : Option (String × String) := none
  deriving Repr, DecidableEq

/-- The files after a run. -/
def Outcome.applyTo (outcome : Outcome) (files : Files) : Files :=
  match outcome.written with
  | some (path, text) => files.write path text
  | none => files

/-- What stands in the way of a task. -/
inductive Failure where
  | read (path : String)
  | load (path : String)
  | elements (path : String)
  | write (path : String)
  | nothingRecognised (path : String)
  deriving Repr, DecidableEq

/-- The message about what stands in the way. -/
def Failure.message : Failure → String
  | .read path => "failed to read " ++ path
  | .load path => "failed to load project " ++ path
  | .elements path => path ++ " is not a valid element list"
  | .write path => "failed to write " ++ path
  | .nothingRecognised path => "no ticket elements recognised in " ++ path

/-- The outcome when something stands in the way. -/
def Failure.outcome (failure : Failure) : Outcome :=
  { code := 1, errors := ["Error: " ++ failure.message] }

/-- The outcome of a task that may fail. -/
def settle : Except Failure Outcome → Outcome
  | .ok outcome => outcome
  | .error failure => failure.outcome

/-- A text that ends its line. -/
def asLine (text : String) : String := text ++ "\n"

/-- A document on the first output. -/
def documentOutput (value : Value) : String := asLine value.writePretty

/-- Lines on the first output. -/
def linesOutput (lines : List String) : String := String.join (lines.map asLine)

/-! ## Reading files -/

/-- The text of a file. -/
def readText (files : Files) (path : String) : Except Failure String :=
  match files.entry path with
  | .file text => .ok text
  | _ => .error (.read path)

/-- The project of a text that came from a path. -/
def loadProject (fresh : Nat → String) (path text : String) : Except Failure Project :=
  match Project.read fresh text with
  | .ok project => .ok project
  | .error _ => .error (.load path)

/-- Whether a text is a layout rather than a project: it is an array. -/
def isLayoutText (text : String) : Bool := (Text.trimStart text.toList).head? == some '['

/-- The layout of a file, which holds a layout or a project. -/
def readLayoutFile (fresh : Nat → String) (files : Files) (path : String) :
    Except Failure (List Element) := do
  let text ← readText files path
  if isLayoutText text then
    match readLayout fresh text with
    | .ok layout => return layout
    | .error _ => throw (.elements path)
  else
    return (← loadProject fresh path text).layout

/-! ## Writing a script -/

/-- A line of a script as a document. -/
def encodeLine (line : ScriptLine) : Value :=
  .sorted (("text", .text (String.ofList line.text)) ::
    Json.optionalMember "elementId" (line.owner.map .text))

/-- A text filled up with blanks to a width. -/
def padded (width : Nat) (text : String) : String :=
  text ++ String.ofList (List.replicate (width - text.length) ' ')

/-- A line of a script after the identity of its element. -/
def annotatedLine (line : ScriptLine) : String :=
  padded 12 (line.owner.getD "") ++ " | " ++ String.ofList line.text

/-- Writes the script of a file. -/
def generate (fresh : Nat → String) (files : Files) (mode : OutputMode) (path : String)
    (annotate : Bool) : Except Failure Outcome := do
  let lines := script (← readLayoutFile fresh files path)
  let text := String.ofList (scriptText lines)
  match mode with
  | .json =>
    let document := Value.sorted (("script", .text text) ::
      if annotate then [("lines", .array (lines.map encodeLine))] else [])
    return { output := documentOutput document }
  | .pretty =>
    return { output := if annotate then linesOutput (lines.map annotatedLine) else asLine text }

/-! ## Reading a script -/

/-- The diagnostics on the output that is theirs in the mode. -/
def diagnosticsOutcome (mode : OutputMode) (text : String) (diagnostics : List Diagnostic) :
    Outcome :=
  match mode with
  | .json => { output := documentOutput (encodeDiagnostics diagnostics) }
  | .pretty => { errors := allReportLines text.toList diagnostics }

/-- Shows what is recovered from a file; it is a failure if that is nothing. -/
def parse (fresh : Nat → String) (files : Files) (mode : OutputMode) (path : String) :
    Except Failure Outcome := do
  let text ← readText files path
  let found := recover text.toList
  let code := if found.items = [] then 1 else 0
  match mode with
  | .json => return { code, output := documentOutput (found.encode fresh) }
  | .pretty =>
    return {
      code
      output := asLine (writeLayout (found.layout fresh))
      errors := allReportLines text.toList found.diagnostics ++ summaryLines found.diagnostics }

/-! ## Importing -/

/-- The project an import starts from: the one in the file, or a new one if
there is no file. -/
def importTarget (fresh : Nat → String) (files : Files) (path : String) :
    Except Failure Project :=
  match files.entry path with
  | .missing => .ok .initial
  | _ => do loadProject fresh path (← readText files path)

/-- The outcome of an import from a script without elements. -/
def emptyImport (mode : OutputMode) (path target text : String)
    (diagnostics : List Diagnostic) : Outcome :=
  let shown := diagnosticsOutcome mode text diagnostics
  let summary :=
    match mode with
    | .json => []
    | .pretty => summaryLines diagnostics
  { shown with
    code := 1
    errors := shown.errors ++ summary ++
      ["error: no ticket elements recognised in " ++ path ++ "; " ++ target ++
        " left unchanged"] }

/-- The outcome of an import that wrote a number of elements. -/
def importedOutcome (mode : OutputMode) (target : String) (count : Nat) : Outcome :=
  match mode with
  | .json =>
    { output := documentOutput (.sorted
        [("status", .text "imported"), ("file", .text target), ("elements", .ofNat count)]) }
  | .pretty =>
    { errors := ["imported " ++ String.ofList (Decimal.write count) ++ " elements into " ++
        target] }

/-- Puts what is recovered from a file into a project. A script without
elements is refused before the project is looked at. -/
def importInto (fresh : Nat → String) (files : Files) (mode : OutputMode)
    (path target : String) : Except Failure Outcome := do
  let text ← readText files path
  let found := recover text.toList
  if found.items = [] then return emptyImport mode path target text found.diagnostics
  let project ← importTarget fresh files target
  let updated := project.withLayout (found.layout fresh)
  if files.writable target then
    return { importedOutcome mode target found.items.length with
      written := some (target, updated.write) }
  else throw (.write target)

/-! ## Checking -/

/-- A text with the line ends of one system. -/
def plainLineEnds (text : List Char) : List Char := Text.replaceAll ['\r', '\n'] ['\n'] text

/-- The script that would be written for the layout of a script. -/
def canonicalText (items : List Item) : List Char :=
  scriptText (script (Item.nameAll (fun _ => "") items))

/-- What stands for a line that is missing. -/
def missingLine : List Char := "<end>".toList

/-- The first line in which two texts differ: its number, and what stands
there in each. The first lines have the number `n`. -/
def firstDifferenceFrom (n : Nat) :
    (want got : List (List Char)) → Option (Nat × List Char × List Char)
  | [], [] => none
  | want :: _, [] => some (n, want, missingLine)
  | [], got :: _ => some (n, missingLine, got)
  | want :: wants, got :: gots =>
    if want = got then firstDifferenceFrom (n + 1) wants gots else some (n, want, got)

/-- The first line in which a script differs from the one that would be
written. -/
def firstDifference (canonical actual : List Char) : Option (Nat × List Char × List Char) :=
  firstDifferenceFrom 1 (Text.lines canonical) (Text.lines (Text.trimEnd actual))

/-- The lines about a difference. -/
def differenceLines : Nat × List Char × List Char → List String
  | (n, want, got) =>
    ["  line " ++ String.ofList (Decimal.write n) ++ ":",
     "    expected: " ++ String.ofList want,
     "    found:    " ++ String.ofList got]

/-- Whether a script is just what would be written for its layout; line ends
and blanks at the end do not count. -/
def isCanonical (script : List Char) : Bool :=
  Text.trimEnd (plainLineEnds script) == canonicalText (recoverItems script)

/-- Tells whether the script in a file is the canonical one. -/
def check (files : Files) (mode : OutputMode) (path : String) : Except Failure Outcome := do
  let text ← readText files path
  let found := recover text.toList
  if found.items = [] then
    let shown := diagnosticsOutcome mode text found.diagnostics
    let failed := (Failure.nothingRecognised path).outcome
    return { shown with code := failed.code, errors := shown.errors ++ failed.errors }
  else
    let canonical := isCanonical text.toList
    let code := if canonical then 0 else 1
    match mode with
    | .json =>
      let document := Value.sorted
        [("status", .text (if canonical then "canonical" else "not canonical")),
         ("file", .text path), ("elements", .ofNat found.items.length)]
      return { code, output := documentOutput document }
    | .pretty =>
      if canonical then return { errors := ["canonical: " ++ path] }
      else
        let difference :=
          firstDifference (canonicalText found.items) (plainLineEnds text.toList)
        return {
          code
          errors := ("not canonical: " ++ path) ::
            (difference.toList.flatMap differenceLines) }

/-! ## Describing and explaining -/

/-- Describes the project in a file. -/
def preview (fresh : Nat → String) (files : Files) (mode : OutputMode) (path : String) :
    Except Failure Outcome := do
  let project ← loadProject fresh path (← readText files path)
  let errors := project.violation?.toList.map fun violation => "warning: " ++ violation.message
  match mode with
  | .json => return { output := documentOutput (encodePreview project), errors }
  | .pretty => return { output := linesOutput (previewLines project), errors }

/-- Explains the code of a diagnostic. -/
def explain (mode : OutputMode) (id : String) : Outcome :=
  match mode with
  | .json =>
    let explanation := (explain? id).elim Value.null .text
    { output := documentOutput (.sorted [("id", .text id), ("explanation", explanation)]) }
  | .pretty =>
    { output := asLine (id ++ ": " ++ (explain? id).getD "(no explanation available)") }

/-! ## Running -/

/-- Carries out a task. -/
def Task.run (fresh : Nat → String) (files : Files) (mode : OutputMode) : Task → Outcome
  | .generate file annotate =>
    settle (CommandLine.generate fresh files mode file annotate)
  | .parse file => settle (CommandLine.parse fresh files mode file)
  | .importInto file target => settle (CommandLine.importInto fresh files mode file target)
  | .check file => settle (CommandLine.check files mode file)
  | .preview file => settle (CommandLine.preview fresh files mode file)
  | .explain id => CommandLine.explain mode id

/-- The files a task looks at. -/
def Task.paths : Task → List String
  | .generate file _ | .parse file | .check file | .preview file => [file]
  | .importInto file target => [file, target]
  | .explain _ => []

/-- The name and the version of the program. -/
def versionLine : String := "ticket-script 0.1.0"

/-- How the program is called. -/
def usageLines : List String :=
  ["Writes, reads and checks scripts for ticket printers.", "",
   "Usage: ticket-script [OPTIONS] <TASK>", "",
   "Tasks:",
   "  generate FILE [--annotate]     write the script of a layout or a project",
   "  parse FILE                     show what is recovered from a script",
   "  import FILE --into PROJECT     put what is recovered into a project",
   "  check FILE                     tell whether a script is canonical",
   "  preview FILE                   describe the layout of a project",
   "  explain ID                     explain the code of a diagnostic", "",
   "Options:",
   "      --output MODE              pretty or json",
   "  -v, --verbose                  say more",
   "  -h, --help                     show this help"]

/-- The outcome of a command line that asks for no task. -/
def Aside.outcome : Aside → Outcome
  | .help => { output := linesOutput usageLines }
  | .version => { output := asLine versionLine }
  | .misuse wrong => { code := 2, errors := ["error: " ++ wrong.message] }

/-- Runs a command line; `default` is the output mode if it asks for none. -/
def run (fresh : Nat → String) (files : Files) (default : OutputMode) (words : List String) :
    Outcome :=
  match Invocation.read words with
  | .ok invocation => invocation.task.run fresh files (invocation.output.getD default)
  | .error aside => aside.outcome

end TicketPress.CommandLine
