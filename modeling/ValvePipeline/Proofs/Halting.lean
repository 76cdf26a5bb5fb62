import ValvePipeline.Proofs.ExchangedRuns

/-!
A halt is an absorbed break. A script that halts leaves the rest of its block out, and so does one that
requests a break through no scope instead. The valves that run the block once go on in the same way after
both, unless the break takes the place of a signal that was pending, or of what waits for the last block in
which it is requested. A loop does not: a body that was halted is complete, so that the loop goes on, and an
absorbed break ends it.
-/

set_option autoImplicit false
set_option relaxedAutoImplicit false

namespace ValvePipeline

open Conduct (nested_covers)

namespace Script

/-- The script neither calls for the rest of its pipeline nor requests a break, whatever its calls give
back. -/
inductive Reserved : Script → Prop
  | finish {flow : Flow} : Reserved (.finish flow)
  | raise {raised : Raised} : Reserved (.raise raised)
  | note {entry : String} {rest : Script} : Reserved rest → Reserved (.note entry rest)
  | call {made : Call} {next : Except Raised Reply → Script} : made.proceeds = false →
    made.requested? = none → (∀ reply, Reserved (next reply)) → Reserved (.call made next)

/-- The same script, but that it requests a break through no scope where it would halt. What it returns
after that is the first argument. -/
def breaking (flow : Flow) : Script → Script
  | .finish .halt => .call (.breakLevels 0) fun _ => .finish flow
  | .finish .goOn => .finish .goOn
  | .raise raised => .raise raised
  | .note entry rest => .note entry (rest.breaking flow)
  | .call made next => .call made fun reply => (next reply).breaking flow

end Script

/-- The first valve halts where the second one requests a break. -/
inductive Valve.Halts : Valve → Valve → Prop
  | scripted {name : String} {script : Script} {flow : Flow} : script.Reserved →
    Valve.Halts (.scripted name script) (.scripted name (script.breaking flow))

def LogLine.TellsOfBreak (line : LogLine) : Prop :=
  line.message ∈ ["Break requested", "Break absorbed at boundary", "Event: boundary.absorbed"]

/-- In blocks that run once valves that halt are exchanged for valves that break. -/
def Exchange.halting : Exchange where
  swaps _ _ := False
  halts := Valve.Halts
  entries _ := False
  events event := event.type = "boundary.absorbed"
  lines := LogLine.TellsOfBreak
  strayed := Trail.Supersedes Valve.Halts
  lasting := Trail.Supersedes.mono

section Halted

variable {scopes : List Bool} {start : Starter} {v w : Valve} {s₀ t₀ : Session}

def Session.Since (s₀ t₀ s t : Session) : Prop :=
  Conduct.nested.done s₀ s ∧ Conduct.nested.done t₀ t

theorem Session.Since.next {s t u v : Session} (h : s₀.Since t₀ s t)
    (hs : Conduct.nested.done s u) (ht : Conduct.nested.done t v) : s₀.Since t₀ u v :=
  ⟨nested_covers.trans h.1 hs, nested_covers.trans h.2 ht⟩

/-- How a script and the one that breaks where it halts end. -/
inductive Script.EndAlike (scopes : List Bool) (flow : Flow) : Flow → Flow → Session → Session → Prop
  | goOn {s t : Session} : s.Agrees .halting scopes t → EndAlike scopes flow .goOn .goOn s t
  | halt {s t : Session} {f : Frame} {outer : List Frame} : s.Corresponds .halting scopes t →
    s.pending = none → t.pending = some (.level 0) → s.frames = f :: outer →
    Trail.HaltedAt Valve.Halts s.trail t.trail f.pipeline outer → EndAlike scopes flow .halt flow s t

def Script.atEnd (start : Starter) : Flow → Run ValveFailure Unit
  | .goOn => Walk.proceed start
  | .halt => return ()

theorem Script.work_eq (start : Starter) (steps : Nat) (name : String) (script : Script) :
    (Valve.scripted name script).work start steps =
      Run.raising (script.follow start) (Raised.underName name) >>= atEnd start :=
  rfl

end Halted

namespace Walk

private def isPlain (moments : Moment × Moment) : Bool :=
  match moments.2.mark with
  | .request _ => moments.1.pending.isNone
  | _ => true

end Walk

end ValvePipeline
