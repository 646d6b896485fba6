/-
  Almanac.Main

  The program `calendar`. It reads the environment and one file, and leaves the rest to
  `Almanac.Command.execute`. There are no sockets here: the service runs as a rehearsal,
  which is told to end as soon as everything in it waits.
-/
import Almanac.Command.Run
import Almanac.Rehearsal.Service

namespace Almanac

def readFile? (path : String) : IO (Option Bytes) := do
  try
    return some (← IO.FS.readBinFile path).data.toList
  catch _ =>
    return none

/-- Runs a command line in the environment of the process. -/
def runProgram (args : List String) : IO UInt32 := do
  let fallback ← IO.getEnv "CALENDAR_CONFIG"
  let defaultFile := Command.defaultPlace (← IO.getEnv "XDG_CONFIG_HOME") (← IO.getEnv "HOME")
  let path := Command.fileOf fallback defaultFile args
  let content ← readFile? path
  let outcome := Command.execute
    { fallback, defaultFile
      file := fun p => if p == path then content else none
      service := Rehearsal.runService [] } args
  (← IO.getStdout).putStr outcome.output
  (← IO.getStderr).putStr outcome.complaint
  return UInt32.ofNat outcome.exitCode

end Almanac

/-- Runs the command line of the process. -/
def main (args : List String) : IO UInt32 := Almanac.runProgram args
