import XmlRecords.Command

/-! # The program -/

namespace XmlRecords

/-- The text of a file, if it can be read. -/
def readText (path : String) : IO (Option String) := do
  try
    return some (← IO.FS.readFile path)
  catch _ =>
    return none

end XmlRecords

open XmlRecords

/-- Binds the document of the second file by the mapping of the first, and prints the record. -/
def main (arguments : List String) : IO UInt32 := do
  let outcome := Outcome.ofFiles (← arguments.mapM readText)
  if !outcome.complaint.isEmpty then
    (← IO.getStderr).putStrLn outcome.complaint
  (← IO.getStdout).putStr outcome.output
  return UInt32.ofNat outcome.status
