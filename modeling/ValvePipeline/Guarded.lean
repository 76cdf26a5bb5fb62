import ValvePipeline.Walk

/-!
Guarded blocks. A failure of the first block goes to the second one, if there is one; the last block
runs in any case. A signal is no failure: it waits until the last block is done, and is settled
then. What the last block leaves itself, a signal or a failure, takes the place of what waited.
-/

set_option autoImplicit false
set_option relaxedAutoImplicit false

namespace ValvePipeline.Guarded

/-- Walks a block. Answers with the failure, or with the block itself if a signal is left. -/
def runBlock {ε : Type} (walk : Walker) (block : Pipeline) :
    Run ε (Except ValveFailure (Option Pipeline)) := do
  match ← Run.attempt (walk block) with
  | .ok .completed => return .ok none
  | .ok .unwound => return .ok (some block)
  | .error failure => return .error failure

def catching (config : CatchConfig) (failure : ValveFailure) (s : Session) : Session :=
  let s := s.dropBreak.log .debug "Caught valve error"
    [("error", .string failure.message), ("exception_name", .string config.exceptionName)]
  let s := s.emit "exception.caught"
    (.ofFields
      [("exception_name", .string config.exceptionName), ("error", failure.toJson)])
  s.setAttribute config.exceptionName failure.toJson

/-- Runs the first block, and the second one on a failure. Answers with the failure that is left, or
with the block that left a signal. -/
def runProtected {ε : Type} (walk : Walker) (tryBlock catchBlock : Option Pipeline)
    (config : CatchConfig) : Run ε (Except ValveFailure (Option Pipeline)) :=
  match tryBlock with
  | none => return .ok none
  | some block => do
    match ← runBlock walk block, catchBlock with
    | .error failure, some handler =>
      Run.update (catching config failure)
      runBlock walk handler
    | ending, _ => return ending

/-- Brings back what waited for the last block: the failure, or the signal, which is settled with
the label of the block that left it. -/
def conclude (start : Starter) (ending : Except ValveFailure (Option Pipeline))
    (waiting : Option Signal) : Run ValveFailure Unit := do
  match ending, waiting with
  | .error failure, _ => Run.raise failure
  | .ok origin, some signal =>
    Run.update fun s => { s with pending := some signal }
    Walk.resumeAfter start (← Walk.settle (origin.bind (·.label)))
  | .ok _, none => Walk.proceed start

def run (start : Starter) (tryBlock catchBlock finallyBlock : Option Pipeline)
    (config : CatchConfig) : Run ValveFailure Unit := do
  let ending ← runProtected (Walk.runPipeline start) tryBlock catchBlock config
  let waiting ← Run.act fun s => (s.pending, s.dropBreak)
  match finallyBlock with
  | none => conclude start ending waiting
  | some block =>
    match ← Walk.runPipeline start block with
    | .unwound => Walk.resumeAfter start (← Walk.settle block.label)
    | .completed => conclude start ending waiting

end ValvePipeline.Guarded
