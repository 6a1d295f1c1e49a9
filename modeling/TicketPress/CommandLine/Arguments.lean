import TicketPress.Text.Search

/-!
# Arguments of the command line

A command line names a task and what the task needs. Options may stand before
and after the task and around its argument; two dashes end them. The words are
read from left to right and the first one that has no place ends the reading,
so a request for help counts only if nothing before it is wrong.
-/

namespace TicketPress.CommandLine

/-! ## Requests -/

/-- How results are written. -/
inductive OutputMode where
  /-- For people, with diagnostics apart from results. -/
  | pretty
  /-- As one JSON document. -/
  | json
  deriving Repr, DecidableEq

/-- The words for the output modes. -/
def OutputMode.words : List (String × OutputMode) := [("pretty", .pretty), ("json", .json)]

/-- The tasks of the command line, by name. -/
inductive TaskName where
  | generate
  | parse
  | importInto
  | check
  | preview
  | explain
  deriving Repr, DecidableEq

/-- The words for the tasks. -/
def TaskName.words : List (String × TaskName) :=
  [("generate", .generate), ("parse", .parse), ("import", .importInto), ("check", .check),
   ("preview", .preview), ("explain", .explain)]

/-- A task with what it needs. -/
inductive Task where
  /-- Write the script of a layout or a project. -/
  | generate (file : String) (annotate : Bool)
  /-- Show what is recovered from a script. -/
  | parse (file : String)
  /-- Put what is recovered from a script into a project. -/
  | importInto (file project : String)
  /-- Tell whether a script is just what would be written for its layout. -/
  | check (file : String)
  /-- Describe the layout of a project. -/
  | preview (file : String)
  /-- Explain the code of a diagnostic. -/
  | explain (id : String)
  deriving Repr, DecidableEq

/-- A command line that asks for a task. -/
structure Invocation where
  task : Task
  /-- The output mode, if one is asked for. -/
  output : Option OutputMode
  verbosity : Nat
  deriving Repr, DecidableEq

/-- What is wrong with a command line. -/
inductive Misuse where
  | missingTask
  | unknownTask (word : String)
  | unknownOption (word : String)
  | missingValue (option : String)
  | needlessValue (option : String)
  | unknownValue (option value : String)
  | repeatedOption (option : String)
  | extraWord (word : String)
  | missingArgument (name : String)
  deriving Repr, DecidableEq

/-- The message about a wrong command line. -/
def Misuse.message : Misuse → String
  | .missingTask => "no task given"
  | .unknownTask word => "unknown task '" ++ word ++ "'"
  | .unknownOption word => "unknown option '" ++ word ++ "'"
  | .missingValue option => "'" ++ option ++ "' needs a value"
  | .needlessValue option => "'" ++ option ++ "' takes no value"
  | .unknownValue option value => "'" ++ value ++ "' is no value for '" ++ option ++ "'"
  | .repeatedOption option => "'" ++ option ++ "' is given twice"
  | .extraWord word => "unexpected argument '" ++ word ++ "'"
  | .missingArgument name => "missing argument '" ++ name ++ "'"

/-- Why a command line asks for no task. -/
inductive Aside where
  | help
  | version
  | misuse (misuse : Misuse)
  deriving Repr, DecidableEq

/-! ## Words -/

/-- A word of a command line, before options are looked up. -/
inductive Word where
  | plain (text : String)
  /-- Two dashes: no option follows. -/
  | endOfOptions
  /-- Two dashes and a name, with a value if an equals sign follows. -/
  | long (name : List Char) (value : Option String)
  /-- One dash and letters, each an option of its own. -/
  | letters (letters : List Char)
  deriving Repr, DecidableEq

/-- The kind of word a text is. A single dash is a plain word. -/
def Word.ofString (text : String) : Word :=
  match text.toList with
  | ['-', '-'] => .endOfOptions
  | '-' :: '-' :: name =>
    match Text.breakOn ['='] name with
    | some (name, value) => .long name (some (String.ofList value))
    | none => .long name none
  | '-' :: c :: rest => .letters (c :: rest)
  | _ => .plain text

/-- The options, by name. -/
inductive OptionName where
  | output
  | into
  | annotate
  | verbose
  | help
  | version
  deriving Repr, DecidableEq

/-- The option with a long name that is known before a task or for it. -/
def OptionName.ofLong? (task : Option TaskName) (name : List Char) : Option OptionName :=
  match String.ofList name, task with
  | "output", _ => some .output
  | "verbose", _ => some .verbose
  | "help", _ => some .help
  | "version", none => some .version
  | "annotate", some .generate => some .annotate
  | "into", some .importInto => some .into
  | _, _ => none

/-- The option with a letter that is known before a task or for it. -/
def OptionName.ofLetter? (task : Option TaskName) (letter : Char) : Option OptionName :=
  match letter, task with
  | 'v', _ => some .verbose
  | 'h', _ => some .help
  | 'V', none => some .version
  | _, _ => none

/-- Whether the option takes a value. -/
def OptionName.takesValue : OptionName → Bool
  | .output | .into => true
  | _ => false

/-! ## Reading -/

/-- What has been read of a command line. -/
structure Given where
  task : Option TaskName := none
  /-- The output mode asked for before the task. -/
  outerOutput : Option OutputMode := none
  /-- The output mode asked for where the reading stands. -/
  output : Option OutputMode := none
  verbosity : Nat := 0
  annotate : Bool := false
  into : Option String := none
  argument : Option String := none

namespace Given

/-- A plain word: the task, or the argument of the task. -/
def takeWord (given : Given) (word : String) : Except Aside Given :=
  match given.task with
  | none =>
    match TaskName.words.lookup word with
    | some task => .ok { given with task := some task, outerOutput := given.output, output := none }
    | none => .error (.misuse (.unknownTask word))
  | some _ =>
    match given.argument with
    | none => .ok { given with argument := some word }
    | some _ => .error (.misuse (.extraWord word))

/-- A word after the end of the options; it cannot name a task. -/
def takeArgument (given : Given) (word : String) : Except Aside Given :=
  match given.task with
  | none => .error (.misuse (.extraWord word))
  | some _ => given.takeWord word

/-- An option with its value. -/
def setValue (given : Given) (name : String) (value : String) :
    OptionName → Except Aside Given
  | .output =>
    match OutputMode.words.lookup value, given.output with
    | _, some _ => .error (.misuse (.repeatedOption name))
    | none, _ => .error (.misuse (.unknownValue name value))
    | some mode, none => .ok { given with output := some mode }
  | .into =>
    match given.into with
    | some _ => .error (.misuse (.repeatedOption name))
    | none => .ok { given with into := some value }
  | _ => .error (.misuse (.needlessValue name))

/-- An option without a value. -/
def setFlag (given : Given) (name : String) : OptionName → Except Aside Given
  | .verbose => .ok { given with verbosity := given.verbosity + 1 }
  | .annotate =>
    if given.annotate then .error (.misuse (.repeatedOption name))
    else .ok { given with annotate := true }
  | .help => .error .help
  | .version => .error .version
  | _ => .error (.misuse (.missingValue name))

/-- An option given by its letter. -/
def takeLetter (given : Given) (letter : Char) : Except Aside Given :=
  let name := String.ofList ['-', letter]
  match OptionName.ofLetter? given.task letter with
  | some option => given.setFlag name option
  | none => .error (.misuse (.unknownOption name))

/-- What follows from the word `help` in the place of a task: it may be
followed by one thing there is help for. -/
def helpOn : (topics : List String) → Aside
  | [] => .help
  | [topic] =>
    if topic = "help" ∨ (TaskName.words.lookup topic).isSome then .help
    else .misuse (.unknownTask topic)
  | _ :: word :: _ => .misuse (.extraWord word)

/-- Whether a word can be the value of the option before it. -/
def isValue (word : String) : Bool :=
  match Word.ofString word with
  | .plain _ => true
  | _ => false

/-- Reads the words that are left. -/
def readWords (given : Given) : List String → Except Aside Given
  | [] => .ok given
  | word :: rest =>
    match Word.ofString word with
    | .plain text =>
      if given.task = none ∧ text = "help" then .error (helpOn rest)
      else do readWords (← given.takeWord text) rest
    | .endOfOptions => rest.foldlM takeArgument given
    | .letters letters => do readWords (← letters.foldlM takeLetter given) rest
    | .long name value =>
      match OptionName.ofLong? given.task name, value, rest with
      | none, _, _ => .error (.misuse (.unknownOption word))
      | some option, some value, rest => do readWords (← given.setValue word value option) rest
      | some option, none, value :: rest =>
        if option.takesValue then
          if isValue value then do readWords (← given.setValue word value option) rest
          else .error (.misuse (.missingValue word))
        else do readWords (← given.setFlag word option) (value :: rest)
      | some option, none, [] => given.setFlag word option

/-- Something a task cannot do without. -/
def need (name : String) : Option String → Except Aside String
  | some word => .ok word
  | none => .error (.misuse (.missingArgument name))

/-- The task that was named, with what it needs. -/
def toTask (given : Given) : Except Aside Task := do
  match given.task with
  | none => .error (.misuse .missingTask)
  | some .generate => return .generate (← need "file" given.argument) given.annotate
  | some .parse => return .parse (← need "file" given.argument)
  | some .importInto =>
    return .importInto (← need "file" given.argument) (← need "into" given.into)
  | some .check => return .check (← need "file" given.argument)
  | some .preview => return .preview (← need "file" given.argument)
  | some .explain => return .explain (← need "id" given.argument)

end Given

/-- Reads a command line. An output mode that is asked for after the task
counts before one that is asked for in front of it. -/
def Invocation.read (words : List String) : Except Aside Invocation := do
  let given ← Given.readWords {} words
  return {
    task := ← given.toTask
    output := given.output.or given.outerOutput
    verbosity := given.verbosity }

end TicketPress.CommandLine
