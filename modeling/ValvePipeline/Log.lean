import ValvePipeline.Json.Basic

/-!
Log lines: a severity, a message and named fields.
-/

set_option autoImplicit false
set_option relaxedAutoImplicit false

namespace ValvePipeline

/-- Severities, from the gravest down. -/
inductive Severity where
  | error | warn | info | debug | trace
  deriving DecidableEq, Repr

namespace Severity

def rank : Severity → Nat
  | .error => 0
  | .warn => 1
  | .info => 2
  | .debug => 3
  | .trace => 4

def name : Severity → String
  | .error => "ERROR"
  | .warn => "WARN"
  | .info => "INFO"
  | .debug => "DEBUG"
  | .trace => "TRACE"

def read? : String → Option Severity
  | "error" => some .error
  | "warn" => some .warn
  | "info" => some .info
  | "debug" => some .debug
  | "trace" => some .trace
  | _ => none

end Severity

structure LogLine where
  severity : Severity
  message : String
  fields : Table Json

namespace LogLine

def of (severity : Severity) (message : String) (fields : List (String × Json)) : LogLine :=
  { severity, message, fields := Table.ofPairs fields }

def reaches (line : LogLine) (threshold : Severity) : Bool :=
  line.severity.rank ≤ threshold.rank

def toJson (line : LogLine) : Json :=
  .array [.string line.severity.name, .string line.message, .object line.fields]

end LogLine

inductive LogFormat where
  | compact
  | json
  deriving DecidableEq, Repr

namespace LogFormat

def name : LogFormat → String
  | .compact => "compact"
  | .json => "json"

def read? : String → Option LogFormat
  | "compact" => some .compact
  | "json" => some .json
  | _ => none

end LogFormat

end ValvePipeline
