/-
  Almanac.Rehearsal.Service

  A whole run of the service: it starts, goes on until everything waits, is told to end,
  and ends.
-/
import Almanac.Rehearsal.Clock

namespace Almanac.Rehearsal

/-- Runs the service next to listeners that are there already. A run that has not ended has nothing
    to report. -/
def runService (listeners : List Net.Address) (settings : Supervisor.Settings) :
    Except Service.Error Supervisor.Report :=
  let w : World := { wall := Instant.first, listeners }
  let w := (w.runSupervisor settings).settle.shutDown.settle
  match (w.run? 0).map Run.phase with
  | some (.ended outcome) => outcome
  | _ => .ok {}

end Almanac.Rehearsal
