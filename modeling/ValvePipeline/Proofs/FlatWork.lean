import ValvePipeline.Proofs.Flat

/-!
The work of a valve, taken apart. Every valve that runs the rest of its pipeline does so as the last
thing, after all of its own work and outside of its loop, its protected blocks and its boundary. So the
work of a valve is its own work followed by the rest.
-/

set_option autoImplicit false
set_option relaxedAutoImplicit false

namespace ValvePipeline

mutual

/-- No valve of the pipeline, however deep, is a scripted one. -/
inductive Pipeline.BuiltIn : Pipeline → Prop
  | intro {p : Pipeline} : (∀ v ∈ p.valves, Valve.BuiltIn v) → Pipeline.BuiltIn p

inductive Valve.BuiltIn : Valve → Prop
  | intro {v : Valve} : (∀ name script, v ≠ .scripted name script) →
    (∀ p ∈ v.children, Pipeline.BuiltIn p) → Valve.BuiltIn v

end

mutual

/-- No scripted valve is in the pipeline, however deep, and every valve is of this kind. -/
inductive Pipeline.BuiltOf (kind : Valve → Prop) : Pipeline → Prop
  | intro {p : Pipeline} : (∀ v ∈ p.valves, Valve.BuiltOf kind v) → Pipeline.BuiltOf kind p

inductive Valve.BuiltOf (kind : Valve → Prop) : Valve → Prop
  | intro {v : Valve} : (∀ name script, v ≠ .scripted name script) → kind v →
    (∀ p ∈ v.children, Pipeline.BuiltOf kind p) → Valve.BuiltOf kind v

end

theorem Pipeline.BuiltOf.valve {kind : Valve → Prop} {p : Pipeline} (h : p.BuiltOf kind) {v : Valve}
    (hv : v ∈ p.valves) : v.BuiltOf kind := by
  cases h with
  | intro hvalves => exact hvalves v hv

namespace Valve.BuiltIn

theorem of_leaf {v : Valve} (hscript : ∀ name script, v ≠ .scripted name script)
    (hleaf : v.children = []) : v.BuiltIn := by
  refine .intro hscript fun p hp => ?_
  rw [hleaf] at hp
  cases hp

theorem child {v : Valve} (h : v.BuiltIn) {p : Pipeline} (hp : p ∈ v.children) : p.BuiltIn := by
  cases h with
  | intro _ hchildren => exact hchildren p hp

end Valve.BuiltIn

namespace Walk

variable {ε β : Type} {start : Starter}

/-- What follows a boundary may go on after a signal that was passed on, where it starts nothing
then. -/
theorem settle_bind_congr {f g : Settlement → Run ε β}
    (hgo : ∀ settlement, settlement ≠ .propagated → f settlement = g settlement)
    (hstop : ∀ s : Session, s.pending.isSome = true →
      (f .propagated).run s = (g .propagated).run s) (label : Option String) :
    (settle label >>= f) = settle label >>= g := by
  ext s
  show (f (s.settle label).1).run (s.settle label).2 = (g (s.settle label).1).run (s.settle label).2
  cases hpending : s.pending with
  | none =>
    rw [Session.settle_of_none hpending]
    exact congrArg (·.run s) (hgo .completed nofun)
  | some signal =>
    cases hsignal : signal.atBoundary label with
    | absorb =>
      rw [Session.settle_of_absorb hpending hsignal]
      exact congrArg (·.run (s.absorbBreak signal label)) (hgo .absorbed nofun)
    | propagate next =>
      rw [Session.settle_of_propagate hpending hsignal]
      exact hstop _ rfl

theorem settle_resumeAfter (start : Starter) (label : Option String) :
    (settle label >>= resumeAfter start) = settle label >>= fun _ => proceed start := by
  refine settle_bind_congr (fun settlement h => ?_) (fun s hs => ?_) label
  · cases settlement with
    | propagated => exact absurd rfl h
    | _ => rfl
  · rw [run_proceed_of_pending start hs]
    rfl

theorem runBlock_eq (start : Starter) (p : Pipeline) :
    runBlock start p = Flat.block (runPipeline start) p >>= fun _ => proceed start := by
  simp only [runBlock, Flat.block, runBoundary, bind_assoc, pure_bind, settle_resumeAfter]

theorem request_proceed (start : Starter) (signal : Signal) :
    (Run.update (·.requestBreak signal) >>= fun _ => proceed start) =
      Run.update (·.requestBreak signal) := by
  ext s
  exact run_proceed_of_pending start (s := s.requestBreak signal) rfl

end Walk

theorem Loop.iterate_eq (start : Starter) (condition : Option Condition) (body : Pipeline)
    (config : LoopConfig) (steps count : Nat) :
    Loop.iterate start condition body config steps count =
      Flat.iterate (Walk.runPipeline start) condition body config steps count >>= fun _ =>
        Walk.proceed start := by
  induction steps generalizing count with
  | zero => rfl
  | succ steps ih =>
    simp only [Loop.iterate, Flat.iterate, bind_assoc]
    refine bind_congr fun more => ?_
    cases more with
    | false => rfl
    | true =>
      simp only [if_pos]
      split
      · rfl
      · simp only [Walk.runBoundary, bind_assoc]
        refine bind_congr fun _ => bind_congr fun _ =>
          Walk.settle_bind_congr (fun settlement h => ?_) (fun s hs => ?_) _
        · cases settlement with
          | completed => exact ih (count + 1)
          | absorbed => rfl
          | propagated => exact absurd rfl h
        · exact (Walk.run_proceed_of_pending start hs).symm

theorem Guarded.conclude_eq (start : Starter) (ending : Except ValveFailure (Option Pipeline))
    (waiting : Option Signal) :
    Guarded.conclude start ending waiting =
      Flat.conclude ending waiting >>= fun _ => Walk.proceed start := by
  cases ending with
  | error failure => rfl
  | ok origin =>
    cases waiting with
    | none => rfl
    | some signal =>
      simp only [Guarded.conclude, Flat.conclude, Flat.settle, bind_assoc, pure_bind,
        Walk.settle_resumeAfter]

theorem Guarded.run_eq (start : Starter) (tryBlock catchBlock finallyBlock : Option Pipeline)
    (config : CatchConfig) :
    Guarded.run start tryBlock catchBlock finallyBlock config =
      Flat.guarded (Walk.runPipeline start) tryBlock catchBlock finallyBlock config >>= fun _ =>
        Walk.proceed start := by
  simp only [Guarded.run, Flat.guarded, bind_assoc]
  refine bind_congr fun ending => bind_congr fun waiting => ?_
  cases finallyBlock with
  | none => exact conclude_eq start ending waiting
  | some block =>
    simp only [Flat.runLast, bind_assoc]
    refine bind_congr fun ended => ?_
    cases ended with
    | completed => exact conclude_eq start ending waiting
    | unwound =>
      simp only [Flat.settle, Option.bind_some, bind_assoc, pure_bind, Walk.settle_resumeAfter]

theorem Call.perform_eq (start : Starter) {made : Call} (h : made.goesOn = false) :
    made.perform start = Flat.perform (Walk.runPipeline start) made := by
  cases made with
  | proceed => cases h
  | tryProceed => cases h
  | resume settlement => cases h
  | _ => rfl

theorem Script.follow_eq (start : Starter) : ∀ {script : Script}, script.Sequential →
    script.follow start = Flat.follow (Walk.runPipeline start) script
  | .finish _, _ => rfl
  | .raise _, _ => rfl
  | .note _ _, h => by
    cases h with
    | note h => exact bind_congr fun _ => Script.follow_eq start h
  | .call _ _, h => by
    cases h with
    | call hgoesOn _ hnext =>
      simp only [Script.follow, Flat.follow, Call.perform_eq start hgoesOn]
      exact bind_congr fun _ => bind_congr fun reply => Script.follow_eq start (hnext reply)

namespace Valve

variable (start : Starter)

theorem breakWhen_eq (wanted : Bool) (signal : Signal) :
    breakWhen start wanted signal =
      Flat.breakWhen wanted signal >>= fun _ => Walk.proceed start := by
  cases wanted with
  | true => exact (Walk.request_proceed start signal).symm
  | false => rfl

theorem work_eq_own (steps : Nat) {v : Valve} (hv : ∀ name script, v ≠ .scripted name script) :
    v.work start steps = Flat.work.own (Walk.runPipeline start) steps v >>= fun _ =>
      Walk.proceed start := by
  cases v with
  | passThrough => rfl
  | setAttribute key value => rfl
  | log severity message => rfl
  | record name counter => rfl
  | failing name message => rfl
  | scripted name script => exact absurd rfl (hv name script)
  | breakWith signal => exact (Walk.request_proceed start signal).symm
  | exit => exact (Walk.request_proceed start .exit).symm
  | breakIf condition signal =>
    simp only [work, Flat.work.own, bind_assoc, breakWhen_eq]
  | breakUnless condition signal =>
    simp only [work, Flat.work.own, bind_assoc, breakWhen_eq]
  | loop body config => exact Loop.iterate_eq start none body config steps 0
  | whileLoop condition body config =>
    exact Loop.iterate_eq start (some condition) body config steps 0
  | ifThen condition p =>
    simp only [work, Flat.work.own, bind_assoc]
    refine bind_congr fun answer => ?_
    cases answer with
    | true => exact Walk.runBlock_eq start p
    | false => rfl
  | choose branches otherwise =>
    simp only [work, Flat.work.own, bind_assoc]
    refine bind_congr fun chosen => ?_
    cases chosen with
    | some p => exact Walk.runBlock_eq start p
    | none => rfl
  | sub p => exact Walk.runBlock_eq start p
  | guarded tryBlock catchBlock finallyBlock config =>
    exact Guarded.run_eq start tryBlock catchBlock finallyBlock config

def follows : Flow → Run ValveFailure Unit
  | .goOn => Walk.proceed start
  | .halt => return ()

/-- The work of a valve is its own work and then, unless it halts, the rest of the pipeline. -/
theorem work_eq (steps : Nat) {v : Valve} (hv : v.Sequential) :
    v.work start steps = Flat.work (Walk.runPipeline start) steps v >>= follows start := by
  cases hv with
  | builtIn hv _ =>
    rw [work_eq_own start steps hv, Flat.work_eq_own _ steps hv, bind_assoc]
    rfl
  | scripted hscript =>
    simp only [work, Script.run, Flat.work, Script.follow_eq start hscript]
    refine bind_congr fun flow => ?_
    cases flow <;> rfl

end Valve

end ValvePipeline
