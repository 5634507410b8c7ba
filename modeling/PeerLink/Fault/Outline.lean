import PeerLink.Fault.Config
import PeerLink.Fault.Report
import PeerLink.Text.Split

/-!
# Outlines

A stored report may go on, after a colon, in the words of the machine that it was made on. The
outline of a report is its message without them. Only reports on configurations have such words.
-/

set_option autoImplicit false

namespace PeerLink.Report

/-- The faults after whose words those of the machine follow. -/
def machineWorded : List ConfigFault :=
  [.unreadableToml, .openFailed, .readFailed, .writeFailed, .loggingActive]

/-- How a line about a log level begins. -/
def levelLead : List Char := "Invalid log level: ".toList

/-- The line about a log level in the words on a document, which stands on a line of its own. -/
def levelLine (words : List Char) : List Char :=
  match Split.fromFirst? ('\n' :: levelLead) words with
  | some line => ':' :: ' ' :: Blank.trimEnd (line.drop 1)
  | none => []

/-- The outline of a detail that begins with the words of a fault. -/
def outlineAfter (detail : List Char) (fault : ConfigFault) : Option (List Char) :=
  let lead := fault.message.toList
  match Split.after? (lead ++ [':', ' ']) detail with
  | some words => some (lead ++ if fault = .unreadableToml then levelLine words else [])
  | none => none

/-- The outline of a detail on a log file: the path may hold colons, the machine's words do not. -/
def outlineOfLogFile (detail : List Char) : Option (List Char) :=
  let lead := (ConfigFault.logFileUnopened "").message.toList
  match Split.after? lead detail with
  | some rest => (Split.beforeLast? [':', ' '] rest).map (lead ++ ·)
  | none => none

/-- The detail of a report on a configuration, without the words of the machine. -/
def outlineOfDetail (detail : List Char) : List Char :=
  match machineWorded.findSome? (outlineAfter detail) with
  | some outline => outline
  | none => (outlineOfLogFile detail).getD detail

/-- The message without the words of the machine. -/
def outline (r : Report) : String :=
  match r.kind, r.detail with
  | .configError, some detail => r.kind.lead ++ String.ofList (outlineOfDetail detail.toList)
  | _, _ => r.message

end PeerLink.Report
