/-
  Almanac.Command.Load

  Configurations in files. A file that was named has to be there; without one, the file
  in the default place counts if it is there, and all defaults if it is not.
-/
import Almanac.Command.Error
import Almanac.Config.Check
import Almanac.Toml.Document

namespace Almanac.Command

def Error.ofFault : Config.Fault → Error
  | .unknownName name => .logging (.unknownName name)
  | fault => .config fault.text

/-- The configuration in a file with some content, if it is there. -/
def load (path : String) (content : Option Bytes) : Except Error Config :=
  match content with
  | none => .error (.readConfig path "No such file or directory (os error 2)")
  | some bytes =>
    match ofUtf8? bytes with
    | none => .error (.readConfig path "stream did not contain valid UTF-8")
    | some text =>
      match (Toml.parse? text).bind (Config.ofTree? .loose) with
      | none => .error (.parseConfig path "the file does not hold a configuration")
      | some config => .ok config

/-- The configuration in the default place, or the defaults. -/
def loadDefault (path : String) (content : Option Bytes) : Except Error Config :=
  match content with
  | none => .ok {}
  | some bytes => load path (some bytes)

def dump (config : Config) : Except Error String :=
  match Toml.print? config.sections with
  | some text => .ok text
  | none => .error (.writeConfig "out-of-range value for a 64-bit signed integer")

end Almanac.Command
