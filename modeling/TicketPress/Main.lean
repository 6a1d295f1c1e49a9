import TicketPress.CommandLine.Run

/-!
# The program

The outer layer: it looks up the files a task names, asks for the outcome and
carries it out. If the file cannot be written after all, the outcome is asked
for again with the path marked as not writable.
-/

namespace TicketPress.CommandLine

/-- What stands under a path of the file system. -/
def entryAt (path : String) : IO Entry := do
  try
    return .file (← IO.FS.readFile path)
  catch
    | .noFileOrDirectory .. => return .missing
    | _ => return .unreadable

/-- The entries under some paths. -/
def entriesAt (paths : List String) : IO (List (String × Entry)) :=
  paths.mapM fun path => return (path, ← entryAt path)

/-- The files that were looked up. -/
def filesOf (entries : List (String × Entry)) (writable : Bool) : Files where
  entry path := (entries.lookup path).getD .missing
  writable _ := writable

/-- The paths a command line makes the program look at. -/
def pathsOf (words : List String) : List String :=
  match Invocation.read words with
  | .ok invocation => invocation.task.paths
  | .error _ => []

/-- Writes the file of an outcome, and tells whether that went well. -/
def carryOut (outcome : Outcome) : IO Bool := do
  match outcome.written with
  | none => return true
  | some (path, text) =>
    try
      IO.FS.writeFile path text
      return true
    catch _ =>
      return false

/-- Prints the texts of an outcome and gives its status. -/
def finish (outcome : Outcome) : IO UInt32 := do
  IO.print outcome.output
  for line in outcome.errors do
    IO.eprintln line
  return UInt32.ofNat outcome.code

end TicketPress.CommandLine

open TicketPress TicketPress.CommandLine in
/-- Runs the program. -/
def main (words : List String) : IO UInt32 := do
  let series ← IO.rand 0 (freshIdCount - 1)
  let default := if ← (← IO.getStdout).isTty then OutputMode.pretty else .json
  let entries ← entriesAt (pathsOf words)
  let outcome := run (freshId series) (filesOf entries true) default words
  if ← carryOut outcome then finish outcome
  else finish (run (freshId series) (filesOf entries false) default words)
