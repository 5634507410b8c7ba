import PeerLink.Config.Options
import PeerLink.FileSystem
import PeerLink.Mechanism.Plain
import PeerLink.Text.Path

/-!
# Validation

What is wrong with a configuration, record by record and in the order of the fields.
-/

set_option autoImplicit false

namespace PeerLink

/-- The problem, if a condition holds. -/
def problemIf (condition : Bool) (problem : Problem) : List Problem :=
  if condition then [problem] else []

/-- What is wrong with a resolution policy. -/
def TransportPolicy.problems (t : TransportPolicy) : List Problem :=
  problemIf (t.vmciLocalCid = some 0xFFFFFFFF) .wildcardContextId

/-- Whether a text begins with `X-`, as the names of application metadata do. -/
def hasApplicationMark (name : String) : Bool := ['X', '-'].isPrefixOf name.toList

/-- What is wrong with a name of application metadata. -/
def metadataProblems (name : String) : List Problem :=
  if !hasApplicationMark name then [.metadataName name]
  else problemIf (255 < name.utf8ByteSize) (.longMetadataName name.utf8ByteSize)

/-- What is wrong with a routing id. -/
def routingIdProblems : Option String → List Problem
  | some id => problemIf (id.utf8ByteSize = 0 || 255 < id.utf8ByteSize) .routingIdLength
  | none => []

/-- What is wrong with the options of GSSAPI. -/
def GssapiOptions.problems (g : GssapiOptions) : List Problem :=
  problemIf (g.servicePrincipal = "") .emptyServicePrincipal ++
    problemIf (g.principal = some "") .emptyPrincipal ++
    problemIf g.mechanisms.isEmpty .noMechanisms ++
    g.mechanisms.flatMap (fun text => problemIf (!Gssapi.isDotted text) (.invalidOid text)) ++
    problemIf g.plaintext .plaintextWarning

/-- What is wrong with the options of the selected mechanism. -/
def SecurityOptions.mechanismProblems (s : SecurityOptions) : List Problem :=
  match s.mechanism with
  | .null => []
  | .plain => s.plain.problems
  | .gssapi => s.gssapi.problems

/-- What is wrong with security options. -/
def SecurityOptions.problems (s : SecurityOptions) : List Problem :=
  s.metadata.entries.flatMap (fun entry => metadataProblems entry.1) ++
    routingIdProblems s.routingId ++ s.mechanismProblems

/-- What is wrong with the file that is logged to. -/
def LoggingOptions.fileProblems (files : FileSystem) (l : LoggingOptions) : List Problem :=
  if l.logToFile then
    match l.logFilePath with
    | none => [.missingLogPath]
    | some path =>
        match (Path.directory? path.toList).map String.ofList with
        | some directory =>
            problemIf (directory ≠ "" && !files.has directory)
              (.missingLogDirectory directory)
        | none => []
  else []

/-- What is wrong with logging options. -/
def LoggingOptions.problems (files : FileSystem) (l : LoggingOptions) : List Problem :=
  problemIf (l.appName = "") .emptyAppName ++
    problemIf (64 < l.appName.utf8ByteSize) (.longAppName l.appName.utf8ByteSize) ++
    l.fileProblems files ++
    problemIf (!l.logToConsole && !l.logToFile) .noLogOutput

namespace Configuration

/-- What is wrong with a configuration. -/
def problems (files : FileSystem) (c : Configuration) : List Problem :=
  c.transport.problems ++ c.security.problems ++ c.logging.problems files

/-- Refuses a configuration with problems. -/
def check (files : FileSystem) (c : Configuration) : Except Fault Unit :=
  match c.problems files with
  | [] => .ok ()
  | problems => .error (.config (.invalid problems))

end Configuration

end PeerLink
