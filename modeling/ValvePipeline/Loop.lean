import ValvePipeline.Walk

/-!
Loops. Each iteration asks the condition, if there is one, before it looks at the bound, and sets
the counter before the body runs. The body is a boundary: a signal absorbed there ends the loop.
-/

set_option autoImplicit false
set_option relaxedAutoImplicit false

namespace ValvePipeline.Loop

/-- A loop without a condition always goes on. -/
def asksForMore {ε : Type} (condition : Option Condition) : Run ε Bool :=
  match condition with
  | none => return true
  | some c => Run.act (·.ask c)

def isSpent (config : LoopConfig) (count : Nat) : Bool :=
  config.isBounded && config.bound ≤ count

def begin (config : LoopConfig) (count : Nat) (s : Session) : Session :=
  let s := s.setAttribute config.counter (.nat count)
  let s := s.log .debug "Loop iteration"
    [("iteration", .nat count), ("counter", .string config.counter)]
  let s := s.emit "loop.iteration"
    (.ofFields
      [("iteration", .nat count), ("counter", .string config.counter),
        ("max_loop_count", .int config.bound)])
  s.mark (.iterate count)

/-- Iterates from a given count on. The first argument is the allowance of steps. -/
def iterate (start : Starter) (condition : Option Condition) (body : Pipeline)
    (config : LoopConfig) : Nat → Nat → Run ValveFailure Unit
  | 0, _ => Run.outOfSteps
  | steps + 1, count => do
    if ← asksForMore condition then
      if isSpent config count then
        Run.update (·.log .warn "Loop exceeded its iteration bound"
          [("max_loop_count", .int config.bound), ("counter", .string config.counter)])
        Run.raise (.tooManyLoops config.bound)
      else
        Run.update (begin config count)
        match ← Walk.runBoundary (Walk.runPipeline start) body with
        | .completed => iterate start condition body config steps (count + 1)
        | .absorbed => Walk.proceed start
        | .propagated => return ()
    else
      Run.update (·.log .debug "Loop condition false; stopping" [("iterations", .nat count)])
      Walk.proceed start

end ValvePipeline.Loop
