import GeoLint.CommandLine.Run

/-!
# The program

Reads the files that the command line names, answers it, and prints the outcome.
-/

namespace GeoLint

namespace CommandLine

/-- What there is at a path of the file system; a directory counts as nothing. -/
def readEntry (path : String) : IO Entry := do
  try return .file (← IO.FS.readBinFile ⟨path⟩)
  catch _ => return .missing

/-- The entries at all paths that a request looks at. -/
def readEntries (paths : List String) : IO (List (String × Entry)) :=
  paths.mapM fun path => do return (path, ← readEntry path)

/-- Print the outcome of a run, and give its exit code. -/
def conclude : Except Crash Outcome → IO UInt32
  | .ok outcome => do
    IO.print outcome.output
    IO.eprint outcome.errors
    return outcome.exitCode.toUInt32
  | .error crash => do
    IO.eprintln s!"ggb-lint: {crash.message}"
    return 1

end CommandLine

end GeoLint

open GeoLint CommandLine in
/-- Answer the command line. -/
def main (args : List String) : IO UInt32 := do
  let paths := match parse args with
    | .ok request => request.paths
    | .error _ => []
  let entries ← readEntries paths
  conclude (run (fun path => (entries.lookup path).getD .missing) args)
