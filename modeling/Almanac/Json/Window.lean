/-
  Almanac.Json.Window

  Windows of time in JSON. Reading does not check that the window is the right way round.
-/
import Almanac.Json.Record
import Almanac.Time.Window

namespace Almanac

open Json in
def Window.layout : Layout Window where
  fields := [("start", .instant), ("end", .instant)]
  parts w := [.instant w.start, .instant w.finish]
  build
    | [some (.instant start), some (.instant finish)] => some ⟨start, finish⟩
    | _ => none

end Almanac
