/-!
# Diagnostic records

Records are a side channel: every failure is returned as well. A logger has a
verbosity and a destination, and lets a record pass if its severity is within
the verbosity.
-/

namespace PowerZones

/-- How grave a record is, gravest first. -/
inductive Severity where
  | error
  | warn
  | info
  | debug
  | trace
  deriving DecidableEq, Repr

/-- The place of a severity in the order, gravest first. -/
def Severity.rank : Severity → Nat
  | .error => 1
  | .warn => 2
  | .info => 3
  | .debug => 4
  | .trace => 5

/-- The name of a severity in a record. -/
def Severity.label : Severity → String
  | .error => "ERROR"
  | .warn => "WARN"
  | .info => "INFO"
  | .debug => "DEBUG"
  | .trace => "TRACE"

/-- How much a logger lets pass: nothing, or all down to a severity. -/
inductive Verbosity where
  | off
  | downTo (s : Severity)
  deriving DecidableEq, Repr

namespace Verbosity

/-- Whether a record of the given severity passes. -/
def passes : Verbosity → Severity → Bool
  | .off, _ => false
  | .downTo least, s => s.rank ≤ least.rank

/-- The name of a verbosity. -/
def label : Verbosity → String
  | .off => "OFF"
  | .downTo s => s.label

/-- The name of a verbosity in the description of a logger. -/
def shortLabel : Verbosity → String
  | .off => "Off"
  | .downTo .error => "Error"
  | .downTo .warn => "Warn"
  | .downTo .info => "Info"
  | .downTo .debug => "Debug"
  | .downTo .trace => "Trace"

end Verbosity

/-- Where records go. -/
inductive Destination where
  /-- To whatever logger the process has installed. -/
  | installed
  /-- To a sink of its own. -/
  | sink
  deriving DecidableEq, Repr

/-- A logger; by default warnings and errors go to the logger that the process has
installed. -/
structure Logger where
  verbosity : Verbosity := .downTo .warn
  destination : Destination := .installed
  deriving DecidableEq, Repr

/-- The description of a logger. -/
def Logger.describe (logger : Logger) : String :=
  let sink := match logger.destination with
    | .installed => "None"
    | .sink => "Some(\"dyn Log\")"
  "Logger \x7b level: " ++ logger.verbosity.shortLabel ++ ", sink: " ++ sink ++ " \x7d"

/-- A diagnostic record. -/
structure Record where
  severity : Severity
  text : String
  deriving DecidableEq, Repr

/-- A record as a line, with the target that every record names. -/
def Record.line (record : Record) : String :=
  record.severity.label ++ " powercap " ++ record.text

/-- What a logger makes of a record: the record, or nothing. -/
def Logger.filter (logger : Logger) (record : Record) : List Record :=
  if logger.verbosity.passes record.severity then [record] else []

end PowerZones
