import LinkedDocs.CommandLine.Run

namespace LinkedDocs

/-- Reads files from the disk; a path that cannot be read as a file has no content. -/
def diskAccess : FileAccess IO where
  entries? _ := return none
  content? path := do
    try
      return some (← IO.FS.readFile path)
    catch _ =>
      return none

end LinkedDocs

def main (arguments : List String) : IO UInt32 := do
  let outcome ← LinkedDocs.CommandLine.run LinkedDocs.diskAccess arguments
  IO.print outcome.standardOutput
  IO.eprint outcome.standardError
  return outcome.exitCode.toUInt32
