import PeerLink.Config.Document
import PeerLink.Config.Schema
import PeerLink.Config.Validation

/-!
# Configuration and log files

Loading and saving a configuration, and the conditions under which logging starts.
-/

set_option autoImplicit false

namespace PeerLink

namespace Configuration

/-- Reads the configuration in a file. -/
def load (files : FileSystem) (path : String) (libs : Config.Libraries := .standard) :
    Except Fault Configuration :=
  match files.read? path with
  | none => .error (.config .openFailed)
  | some none => .error (.config .readFailed)
  | some (some data) =>
      match Utf8.decode? data with
      | none => .error (.config .readFailed)
      | some text => ofToml text libs

/-- Writes a configuration to a file. -/
def save (files : FileSystem) (path : String) (c : Configuration)
    (libs : Config.Libraries := .standard) : Except Fault FileSystem :=
  match c.toToml libs with
  | none => .error (.config .serializeFailed)
  | some text =>
      match files.write? path (Utf8.encode text) with
      | some after => .ok after
      | none => .error (.config .writeFailed)

end Configuration

namespace LoggingOptions

/-- Refuses a log file that does not open. -/
def openFile (files : FileSystem) (l : LoggingOptions) : Except Fault Unit :=
  if l.logToFile then
    match l.logFilePath with
    | none => .error (.config .logPathUnset)
    | some path =>
        if files.canWrite path then .ok () else .error (.config (.logFileUnopened path))
  else .ok ()

/-- Starts logging, unless the options are wrong, the file does not open or logging is on. -/
def start (files : FileSystem) (active : Bool) (l : LoggingOptions) : Except Fault Unit :=
  match l.problems files with
  | [] =>
      match l.openFile files with
      | .ok () => if active then .error (.config .loggingActive) else .ok ()
      | .error fault => .error fault
  | problems => .error (.config (.refused problems))

end LoggingOptions

end PeerLink
