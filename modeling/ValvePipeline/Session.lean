import ValvePipeline.Event
import ValvePipeline.Identity
import ValvePipeline.Pipeline.Basic

/-!
The state of one run. A session holds the attributes, the pending signal and the walks that are
under way; what it reports is gathered in its transcript.
-/

set_option autoImplicit false
set_option relaxedAutoImplicit false

namespace ValvePipeline

/-- One walk that is under way. -/
structure Frame where
  pipeline : Pipeline
  /-- The place of the valve that is executing. -/
  cursor : Option Nat := none
  /-- The furthest place that was started. -/
  reached : Option Nat := none

namespace Frame

def next (f : Frame) : Nat :=
  match f.cursor with
  | none => 0
  | some i => i + 1

def hasStarted (f : Frame) (i : Nat) : Bool :=
  f.reached.any (i ≤ ·)

end Frame

/-- What happens in a run, one thing after the other. The laws about walks speak of these marks. -/
inductive Mark where
  | enterPipeline (label : Option String)
  /-- The innermost walk ended, perhaps with a failure. -/
  | leavePipeline (failure : Option ValveFailure)
  | enterValve (index : Nat)
  /-- The valve at a place of the innermost walk ended, perhaps with a failure. -/
  | leaveValve (index : Nat) (failure : Option ValveFailure)
  | ask (condition : Condition) (attributes : Attributes) (answer : Bool)
  /-- A signal became the pending one on request. -/
  | request (signal : Signal)
  | iterate (count : Nat)
  /-- A script is about to make a call. -/
  | call

/-- A mark, with the walks that are under way and the signal that is pending just after it. -/
structure Moment where
  mark : Mark
  frames : List Frame
  pending : Option Signal

namespace Moment

def depth (m : Moment) : Nat :=
  m.frames.length

def index (m : Moment) : Option Nat :=
  m.frames.head?.bind (·.cursor)

end Moment

structure Transcript where
  /-- The entries of recording valves, scripts and named conditions. -/
  journal : Array String := #[]
  /-- The events that the sink has kept. -/
  events : Array Event := #[]
  log : Array LogLine := #[]
  /-- What happened, in order. -/
  trail : Array Moment := #[]

structure Session where
  identity : Identity := {}
  pipeline : Pipeline
  attributes : Attributes := {}
  pending : Option Signal := none
  /-- The walks under way, innermost first. -/
  frames : List Frame := []
  invoked : Bool := false
  sink : Sink := .discard
  transcript : Transcript := {}

namespace Session

def depth (s : Session) : Nat :=
  s.frames.length

def index (s : Session) : Option Nat :=
  s.frames.head?.bind (·.cursor)

/-- How many scopes lie inside the nearest one with this label. -/
def findLabel (s : Session) (label : String) : Option Nat :=
  s.frames.findIdx? fun f => f.pipeline.label == some label

def log (s : Session) (severity : Severity) (message : String) (fields : List (String × Json)) :
    Session :=
  { s with transcript := { s.transcript with
      log := s.transcript.log.push (.of severity message fields) } }

def note (s : Session) (entry : String) : Session :=
  { s with transcript := { s.transcript with journal := s.transcript.journal.push entry } }

def noteAll (s : Session) (entries : List String) : Session :=
  entries.foldl note s

def mark (s : Session) (m : Mark) : Session :=
  { s with transcript := { s.transcript with
      trail := s.transcript.trail.push ⟨m, s.frames, s.pending⟩ } }

def position (s : Session) : List (String × Json) :=
  s.identity.fields ++
    [("pipeline", .string s.pipeline.displayName), ("depth", .nat s.depth)]

/-- The data of an event: an object is given the position, which overrides its own fields of these
names; other data stay as they are. -/
def locate (s : Session) : Json → Json
  | .object fields =>
    .object (s.position.foldl (fun t (key, value) => Table.set t key value) fields)
  | data => data

def emit (s : Session) (type : String) (data : Json) : Session :=
  match s.sink with
  | .discard => s
  | .collect =>
    { s with transcript := { s.transcript with
        events := s.transcript.events.push { type, data := some (s.locate data) } } }
  | .log severity =>
    { s with transcript := { s.transcript with
        log := s.transcript.log.push (Sink.line severity type) } }

def setAttribute (s : Session) (key : String) (value : Json) : Session :=
  { s with attributes := s.attributes.set key value }

def removeAttribute (s : Session) (key : String) : Session :=
  { s with attributes := s.attributes.erase key }

def showIndex : Option Nat → String
  | none => "None"
  | some i => "Some(" ++ toString i ++ ")"

/-- Makes a signal the pending one. A label that no walk carries is warned of. -/
def requestBreak (s : Session) (signal : Signal) : Session :=
  let s :=
    match signal with
    | .label name =>
      if (s.findLabel name).isNone then
        s.log .warn "No enclosing pipeline carries this label; the break will unwind to the top"
          [("label", .string name)]
      else s
    | _ => s
  let s := s.log .debug "Break requested"
    [("signal", .string signal.display), ("depth", .nat s.depth),
      ("index", .string (showIndex s.index))]
  { s with pending := some signal }.mark (.request signal)

def dropBreak (s : Session) : Session :=
  { s with pending := none }

def labelField (label : Option String) : List (String × Json) :=
  match label with
  | none => []
  | some label => [("label", .string label)]

def labelJson (label : Option String) : Json :=
  (label.map .string).getD .null

def absorbBreak (s : Session) (signal : Signal) (label : Option String) : Session :=
  let s := s.dropBreak
  let s := s.log .debug "Break absorbed at boundary" <|
    [("signal", .string signal.display), ("depth", .nat s.depth)] ++ labelField label
  s.emit "boundary.absorbed"
    (.ofFields [("signal", signal.toJson), ("label", labelJson label)])

/-- Passes a signal on at a boundary around a scope with the given label, in the form in which it
goes on. -/
def passBreak (s : Session) (signal next : Signal) (label : Option String) : Session :=
  let s := s.dropBreak
  let s := s.log .debug "Break propagated past boundary" <|
    [("signal", .string signal.display), ("next", .string next.display),
      ("depth", .nat s.depth)] ++ labelField label
  let s := s.emit "boundary.propagated"
    (.ofFields
      [("signal", signal.toJson), ("next", next.toJson), ("label", labelJson label)])
  { s with pending := some next }

def settle (s : Session) (label : Option String) : Settlement × Session :=
  match s.pending with
  | none => (.completed, s)
  | some signal =>
    match signal.atBoundary label with
    | .absorb => (.absorbed, s.absorbBreak signal label)
    | .propagate next => (.propagated, s.passBreak signal next label)

theorem settle_of_none {s : Session} (h : s.pending = none) (label : Option String) :
    s.settle label = (.completed, s) := by
  simp [settle, h]

theorem settle_of_absorb {s : Session} {signal : Signal} {label : Option String}
    (h : s.pending = some signal) (hsignal : signal.atBoundary label = .absorb) :
    s.settle label = (.absorbed, s.absorbBreak signal label) := by
  simp [settle, h, hsignal]

theorem settle_of_propagate {s : Session} {signal next : Signal} {label : Option String}
    (h : s.pending = some signal) (hsignal : signal.atBoundary label = .propagate next) :
    s.settle label = (.propagated, s.passBreak signal next label) := by
  simp [settle, h, hsignal]

def ask (s : Session) (condition : Condition) : Bool × Session :=
  let (answer, notes) := condition.eval s.attributes
  (answer, (s.noteAll notes).mark (.ask condition s.attributes answer))

def enterPipeline (s : Session) (p : Pipeline) : Session :=
  { s with frames := { pipeline := p } :: s.frames }.mark (.enterPipeline p.label)

def leavePipeline (failure : Option ValveFailure) (s : Session) : Session :=
  { s with frames := s.frames.tail }.mark (.leavePipeline failure)

def enterValve (s : Session) (frame : Frame) (outer : List Frame) (i : Nat) : Session :=
  { s with frames := { frame with cursor := some i, reached := some i } :: outer }.mark
    (.enterValve i)

/-- Ends the valve at a place, perhaps with a failure; the cursor of the innermost walk goes back to
where it was. -/
def leaveValve (i : Nat) (cursor : Option Nat) (failure : Option ValveFailure) (s : Session) :
    Session :=
  { s with frames := match s.frames with
      | [] => []
      | frame :: outer => { frame with cursor } :: outer }.mark (.leaveValve i failure)

end Session

end ValvePipeline
