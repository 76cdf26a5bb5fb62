import ValvePipeline.Run

/-!
Walks and boundaries. A valve does not return to its pipeline for the next valve to start: it
proceeds, and the rest of the pipeline runs inside that call. While a signal is pending nothing new
starts, so every walk under way comes to its end, and each boundary settles the signal in turn.

What starting a valve means is a parameter here, and for a boundary or a whole run it is what walking
a pipeline means.
-/

set_option autoImplicit false
set_option relaxedAutoImplicit false

namespace ValvePipeline

/-- What it means to start a valve. -/
abbrev Starter := Valve → Run ValveFailure Unit

abbrev Walker := Pipeline → Run ValveFailure WalkEnd

namespace Walk

/-- Starts the next valve of the innermost walk. Nothing starts while a signal is pending, after the
last valve, or when the calling valve has proceeded before. -/
def proceed (start : Starter) : Run ValveFailure Unit := do
  let s ← Run.read id
  if s.pending.isSome then
    return ()
  match s.frames with
  | [] => Run.update (·.log .warn "proceed() called outside of a pipeline walk" [])
  | frame :: outer =>
    let i := frame.next
    if frame.hasStarted i then
      Run.update (·.log .warn "Valve called proceed() more than once; ignoring"
        [("pipeline", .string frame.pipeline.displayName), ("index", .nat (i - 1))])
    else
      match frame.pipeline.valves[i]? with
      | none => return ()
      | some valve =>
        Run.update (·.enterValve frame outer i)
        Run.afterwards (start valve) (Session.leaveValve i frame.cursor)

theorem run_proceed_of_pending (start : Starter) {s : Session} (h : s.pending.isSome = true) :
    (proceed start).run s = .answered () s := by
  simp [proceed, h]

theorem run_proceed_of_nil (start : Starter) {s : Session} (hpending : s.pending = none)
    (hframes : s.frames = []) :
    (proceed start).run s =
      .answered () (s.log .warn "proceed() called outside of a pipeline walk" []) := by
  simp [proceed, hpending, hframes]

theorem run_proceed_of_started (start : Starter) {s : Session} {frame : Frame}
    {outer : List Frame} (hpending : s.pending = none) (hframes : s.frames = frame :: outer)
    (hstarted : frame.hasStarted frame.next = true) :
    (proceed start).run s =
      .answered () (s.log .warn "Valve called proceed() more than once; ignoring"
        [("pipeline", .string frame.pipeline.displayName),
          ("index", .nat (frame.next - 1))]) := by
  simp [proceed, hpending, hframes, hstarted]

theorem run_proceed_of_end (start : Starter) {s : Session} {frame : Frame} {outer : List Frame}
    (hpending : s.pending = none) (hframes : s.frames = frame :: outer)
    (hnew : frame.hasStarted frame.next = false)
    (hend : frame.pipeline.valves[frame.next]? = none) :
    (proceed start).run s = .answered () s := by
  simp [proceed, hpending, hframes, hnew, hend]

theorem run_proceed_of_valve (start : Starter) {s : Session} {frame : Frame}
    {outer : List Frame} {valve : Valve} (hpending : s.pending = none)
    (hframes : s.frames = frame :: outer) (hnew : frame.hasStarted frame.next = false)
    (hvalve : frame.pipeline.valves[frame.next]? = some valve) :
    (proceed start).run s =
      ((start valve).afterwards (Session.leaveValve frame.next frame.cursor)).run
        (s.enterValve frame outer frame.next) := by
  simp [proceed, hpending, hframes, hnew, hvalve]

/-- Walks a pipeline as a scope inside the present one. A signal that it leaves stays pending. -/
def runPipeline (start : Starter) (p : Pipeline) : Run ValveFailure WalkEnd := do
  Run.update (·.enterPipeline p)
  Run.afterwards (proceed start) Session.leavePipeline
  Run.read fun s => if s.pending.isSome then .unwound else .completed

def settle {ε : Type} (label : Option String) : Run ε Settlement :=
  Run.act (·.settle label)

def runBoundary (walk : Walker) (p : Pipeline) : Run ValveFailure Settlement := do
  let _ ← walk p
  settle p.label

/-- Goes on after a boundary, unless the signal was passed on. -/
def resumeAfter (start : Starter) (settlement : Settlement) : Run ValveFailure Unit :=
  if settlement.goesOn then proceed start else return ()

def runBlock (start : Starter) (p : Pipeline) : Run ValveFailure Unit := do
  resumeAfter start (← runBoundary (runPipeline start) p)

def invoke {ε : Type} (walk : Walker) : Run ε (Except RunFailure Outcome) := do
  let s ← Run.read id
  if s.invoked then
    return .error (.alreadyInvoked s.identity.invocation.display)
  Run.update fun s => { s with invoked := true }.emit "invocation.started" (.ofFields [])
  match ← Run.attempt (walk s.pipeline) with
  | .ok .completed =>
    Run.update (·.emit "invocation.completed" (.ofFields []))
    return .ok .completed
  | .ok .unwound =>
    let outcome : Outcome :=
      match ← Run.read (·.pending) with
      | some signal => .unwound signal
      | none => .completed
    Run.update fun s =>
      (s.log .debug "Invocation unwound" [("outcome", .string outcome.display)]).emit
        "invocation.unwound"
        (.ofFields [("signal", (outcome.signal?.map Signal.toJson).getD .null)])
    return .ok outcome
  | .error failure =>
    Run.update fun s =>
      (s.log .error "Invocation failed" [("error", .string failure.message)]).emit
        "invocation.failed" (.ofFields [("error", failure.toJson)])
    return .error (.uncaught s.pipeline.displayName failure)

end Walk

end ValvePipeline
