import PeerLink.Config.Standard

/-!
# The document of a configuration

Every record of a configuration is a table, and every field an entry of it. A field without a value
is an entry that is absent.
-/

set_option autoImplicit false

namespace PeerLink.Configuration

open Config (Entries Libraries Value)

/-- The entries of a resolution policy. -/
def transportEntries (t : TransportPolicy) : Entries :=
  [("ipv6", .boolean t.ipv6),
    ("vmci_local_cid", .ofOption (fun cid => .integer cid.toNat) t.vmciLocalCid)]

/-- The entries of metadata. -/
def metadataEntries (as : Attributes) : Entries :=
  as.entries.map fun (name, text) => (name, .text text)

/-- The entries of credentials. -/
def plainEntries (c : Credentials) : Entries :=
  [("username", .text c.username), ("password", .text c.password)]

/-- The entries of GSSAPI options. -/
def gssapiEntries (g : GssapiOptions) : Entries :=
  [("principal", .ofOption .text g.principal),
    ("principal_name_type", .text g.principalNameType.word),
    ("service_principal", .text g.servicePrincipal),
    ("service_principal_name_type", .text g.servicePrincipalNameType.word),
    ("plaintext", .boolean g.plaintext), ("mechanisms", .array (g.mechanisms.map .text))]

/-- The entries of security options. -/
def securityEntries (s : SecurityOptions) : Entries :=
  [("mechanism", .text s.mechanism.word), ("socket_type", .text s.socketType.name),
    ("routing_id", .ofOption .text s.routingId),
    ("metadata", .table (metadataEntries s.metadata)),
    ("plain", .table (plainEntries s.plain)), ("gssapi", .table (gssapiEntries s.gssapi))]

/-- The entries of logging options. -/
def loggingEntries (l : LoggingOptions) : Entries :=
  [("app_name", .text l.appName), ("log_level", .text l.logLevel.word),
    ("log_to_console", .boolean l.logToConsole), ("log_to_file", .boolean l.logToFile),
    ("log_file_path", .ofOption .text l.logFilePath), ("json_format", .boolean l.jsonFormat)]

/-- The document of a configuration. -/
def document (c : Configuration) : Entries :=
  [("transport", .table (transportEntries c.transport)),
    ("security", .table (securityEntries c.security)),
    ("logging", .table (loggingEntries c.logging))]

/-- The text of the document of a configuration. -/
def toToml (c : Configuration) (libs : Libraries := .standard) : Option String :=
  libs.print? c.document

/-- A document to start from: the configuration that holds where nothing is said. -/
def sample (libs : Libraries := .standard) : String :=
  (toToml {} libs).getD "# Failed to generate example config"

end PeerLink.Configuration
