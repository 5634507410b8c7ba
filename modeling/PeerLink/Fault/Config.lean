import PeerLink.Text.Blank
import PeerLink.Text.Numeral

/-!
# Causes of a refused configuration

What validation finds in a configuration, and why a configuration cannot be read, written or used.
-/

set_option autoImplicit false

namespace PeerLink

/-- Something that validation finds in a configuration. -/
inductive Problem where
  | wildcardContextId
  | metadataName (name : String)
  | longMetadataName (size : Nat)
  | routingIdLength
  | longUsername (size : Nat)
  | longPassword (size : Nat)
  | emptyServicePrincipal
  | emptyPrincipal
  | noMechanisms
  | invalidOid (text : String)
  | plaintextWarning
  | emptyAppName
  | longAppName (size : Nat)
  | missingLogDirectory (directory : String)
  | missingLogPath
  | noLogOutput
  deriving DecidableEq, Repr

/-- The problem in words. -/
def Problem.message : Problem → String
  | wildcardContextId => "VMCI local CID cannot be the wildcard CID (4294967295)"
  | metadataName name => "Metadata property '" ++ name ++ "' must start with 'X-'"
  | longMetadataName size => "Metadata property name too long: " ++ Numeral.decimal size
  | routingIdLength => "Routing id must be 1-255 bytes"
  | longUsername size =>
      "PLAIN username too long: " ++ Numeral.decimal size ++ " bytes (maximum: 255)"
  | longPassword size =>
      "PLAIN password too long: " ++ Numeral.decimal size ++ " bytes (maximum: 255)"
  | emptyServicePrincipal => "GSSAPI service principal cannot be empty"
  | emptyPrincipal => "GSSAPI principal cannot be empty when set"
  | noMechanisms => "At least one GSSAPI mechanism OID must be configured"
  | invalidOid text => "Invalid mechanism OID: '" ++ text ++ "'"
  | plaintextWarning => "WARNING: GSSAPI plaintext mode is enabled - messages are not encrypted"
  | emptyAppName => "Application name cannot be empty"
  | longAppName size =>
      "Application name too long: " ++ Numeral.decimal size ++ " characters (maximum: 64)"
  | missingLogDirectory directory => "Log file directory does not exist: " ++ directory
  | missingLogPath => "log_file_path must be specified when log_to_file is true"
  | noLogOutput => "At least one logging output (console or file) must be enabled"

/-- Why a configuration cannot be read, written or used. -/
inductive ConfigFault where
  | unknownMechanism (text : String)
  | underivedPrincipal (protocol address : String)
  | emptyServiceName
  | invalidOid (text : String)
  | missingContext
  | refused (problems : List Problem)
  | invalid (problems : List Problem)
  | unreadableToml
  | unknownLogLevel (text : String)
  | openFailed
  | readFailed
  | serializeFailed
  | writeFailed
  | contextIdVariable (text : String)
  | booleanVariable (variableName text : String)
  | logPathUnset
  | logFileUnopened (path : String)
  | loggingActive
  deriving DecidableEq, Repr

/-- A line of a message: a text without the blanks at its end. -/
def messageLine (text : String) : String := String.ofList (Blank.trimEnd text.toList)

/-- The fault in words. Texts that the operating system or another library would add are left
out. -/
def ConfigFault.message : ConfigFault → String
  | unknownMechanism text => "Unsupported security mechanism: " ++ text
  | underivedPrincipal protocol address =>
      "cannot derive service principal from unresolved address " ++ protocol ++ "://" ++ address
  | emptyServiceName => "GSSAPI service principal must not be empty"
  | invalidOid text => "Invalid mechanism OID: '" ++ text ++ "'"
  | missingContext => "GSSAPI requires a security context"
  | refused problems => String.intercalate "; " (problems.map Problem.message)
  | invalid problems =>
      "Configuration validation failed:\n  - " ++
        String.intercalate "\n  - " (problems.map Problem.message)
  | unreadableToml => "Failed to parse TOML"
  | unknownLogLevel text => messageLine ("Failed to parse TOML: Invalid log level: " ++ text)
  | openFailed => "Failed to open config file"
  | readFailed => "Failed to read config file"
  | serializeFailed => "Failed to serialize config"
  | writeFailed => "Failed to write config file"
  | contextIdVariable text => "Invalid ZMTP_CONNECT_VMCI_LOCAL_CID: " ++ text
  | booleanVariable variableName text => "Invalid boolean for " ++ variableName ++ ": " ++ text
  | logPathUnset => "log_file_path must be specified"
  | logFileUnopened path => "Cannot open log file " ++ path
  | loggingActive => "Logging already initialized"

end PeerLink
