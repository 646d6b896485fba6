/-
  Almanac.Command.Error

  Why a command fails.
-/
import Almanac.Logging.Settings
import Almanac.Service.Error

namespace Almanac.Command

/-- An error of a command. -/
inductive Error
  /-- The configuration file cannot be read. -/
  | readConfig (path message : String)
  /-- The configuration file does not hold a configuration. -/
  | parseConfig (path message : String)
  /-- The configuration cannot be written as a file. -/
  | writeConfig (message : String)
  /-- A setting is out of range, or two settings contradict each other. -/
  | config (message : String)
  | logging (cause : Logging.Error)
  | storage (cause : StorageError)
  | service (cause : Service.Error)
  /-- The service has stopped, but not everything went well. -/
  | unclean (failures : Nat)

namespace Error

def text : Error → String
  | readConfig path message => "failed to read config " ++ path ++ ": " ++ message
  | parseConfig path message => "failed to parse config " ++ path ++ ": " ++ message
  | writeConfig message => "failed to serialize config: " ++ message
  | config message => "invalid configuration: " ++ message
  | logging cause => "logging setup failed: " ++ cause.text
  | storage cause => cause.text
  | service cause => cause.text
  | unclean failures => "service stopped with " ++ natText failures ++ " failure(s)"

end Error

end Almanac.Command
