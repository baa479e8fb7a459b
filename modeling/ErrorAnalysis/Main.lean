import ErrorAnalysis.CommandLine.Basic

/-!
# The program

Reads the files that a request names, and prints the answer.
-/

open ErrorAnalysis

/-- The text of a file, if it can be read. -/
def readFile? (path : String) : IO (Option String) := do
  try
    return some (← IO.FS.readFile path)
  catch _ =>
    return none

/-- Answers a request. -/
def main (arguments : List String) : IO UInt32 := do
  let report ←
    match Invocation.read? arguments with
    | none => pure Report.misuse
    | some i => do
      let texts ← i.paths.mapM fun path => return (path, ← readFile? path)
      let files (path : String) := (texts.find? fun t => t.1 == path).bind (·.2)
      pure (Report.ofAnswer (i.run files))
  IO.print report.output
  return report.exitCode.toUInt32
