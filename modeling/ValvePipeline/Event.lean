import ValvePipeline.Log

/-!
Events that a run reports, and what a sink makes of them: it drops them, keeps them, or writes each
one to the log.
-/

set_option autoImplicit false
set_option relaxedAutoImplicit false

namespace ValvePipeline

structure Event where
  type : String
  data : Option Json

namespace Event

def toJson (e : Event) : Json :=
  .array [.string e.type, .option e.data]

def types (events : List Event) : List String :=
  events.map (·.type)

/-- The events whose type starts so. -/
def ofType (start : String) (events : List Event) : List Event :=
  events.filter fun e => start.toList.isPrefixOf e.type.toList

def counts (events : List Event) : Table Nat :=
  events.foldl (fun t e => t.set e.type ((t.get? e.type).getD 0 + 1)) []

end Event

inductive Sink where
  | discard
  | collect
  /-- Into the log; a sink for debugging writes debug lines, any other writes information. -/
  | log (severity : Severity)
  deriving DecidableEq, Repr

namespace Sink

def lineSeverity : Severity → Severity
  | .debug => .debug
  | _ => .info

def line (severity : Severity) (type : String) : LogLine :=
  .of (lineSeverity severity) ("Event: " ++ type) [("event_type", .string type)]

end Sink

end ValvePipeline
