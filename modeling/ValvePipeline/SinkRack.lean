import ValvePipeline.Engine

/-!
Several sinks, one of which may be the common one that new sessions are attached to. Each collecting
sink keeps the events that were handed to it; logging sinks share one log.
-/

set_option autoImplicit false
set_option relaxedAutoImplicit false

namespace ValvePipeline

structure SinkRack where
  sinks : Array Sink
  kept : Array (Array Event)
  common : Option Nat := none
  log : Array LogLine := #[]

namespace SinkRack

def ofSinks (sinks : List Sink) : SinkRack :=
  { sinks := sinks.toArray, kept := sinks.toArray.map fun _ => #[] }

def events (rack : SinkRack) (i : Nat) : List Event :=
  ((rack.kept[i]?).getD #[]).toList

def emit (rack : SinkRack) (i : Nat) (event : Event) : SinkRack :=
  match rack.sinks[i]? with
  | some .collect => { rack with kept := rack.kept.modify i (·.push event) }
  | some (.log severity) => { rack with log := rack.log.push (Sink.line severity event.type) }
  | _ => rack

def emitCommon (rack : SinkRack) (event : Event) : SinkRack :=
  match rack.common with
  | some i => rack.emit i event
  | none => rack

def clear (rack : SinkRack) (i : Nat) : SinkRack :=
  { rack with kept := rack.kept.modify i fun _ => #[] }

def commonSink (rack : SinkRack) : Sink :=
  (rack.common.bind (rack.sinks[·]?)).getD .discard

def logAll (rack : SinkRack) (lines : Array LogLine) : SinkRack :=
  { rack with log := rack.log ++ lines }

/-- The rack after a session that was attached to the common sink, when another sink has become
common in the meantime. -/
def absorb (rack : SinkRack) (later : Option Nat) (transcript : Transcript) : SinkRack :=
  let kept :=
    match rack.common with
    | some i => rack.kept.modify i (· ++ transcript.events)
    | none => rack.kept
  { rack with kept, common := later.or rack.common }.logAll transcript.log

/-- Runs a pipeline attached to the sink that is common at this time. A sink that becomes common
later does not hear of it. There is no result if the allowance of steps runs out. -/
def run (rack : SinkRack) (steps : Nat) (p : Pipeline) (later : Option Nat) :
    Option (Except RunFailure Outcome × SinkRack) :=
  match (Session.start p rack.commonSink {}).invoke steps with
  | .answered result s => some (result, rack.absorb later s.transcript)
  | .exhausted _ => none

end SinkRack

end ValvePipeline
