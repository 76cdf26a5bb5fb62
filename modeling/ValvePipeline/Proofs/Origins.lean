import ValvePipeline.Proofs.Channels
import ValvePipeline.Proofs.OwnWork
import ValvePipeline.Proofs.Reports
import ValvePipeline.Proofs.WalkDiscipline

/-!
The origins of failures. A valve makes a failure itself if it is a failing one, if it is a loop that
comes to its bound, or if its script raises what no call has handed to it. Whatever else a failure
crosses on its way, it leaves as it is: wherever a walk or a valve ends with a failure, and wherever one
is caught or comes out of a run, the trail tells of a valve that has made this very failure before.
-/

set_option autoImplicit false
set_option relaxedAutoImplicit false

namespace ValvePipeline

namespace Loop

/-- A loop that has begun in one session comes to a count in another: each iteration before it was
wanted, was within the bound, and was completed. -/
inductive Comes (walk : Walker) (condition : Option Condition) (body : Pipeline)
    (config : LoopConfig) (s : Session) : Nat → Session → Prop
  | begins : Comes walk condition body config s 0 s
  | again {count : Nat} {t u w : Session} : Comes walk condition body config s count t →
    (asksForMore condition : Run ValveFailure Bool).run t = .answered true u →
    isSpent config count = false →
    (Walk.runBoundary walk body).run (begin config count u) = .answered .completed w →
    Comes walk condition body config s (count + 1) w

def Exceeds (walk : Walker) (condition : Option Condition) (body : Pipeline) (config : LoopConfig)
    (s t : Session) : Prop :=
  ∃ count u w, Comes walk condition body config s count u ∧
    (asksForMore condition : Run ValveFailure Bool).run u = .answered true w ∧
    isSpent config count = true ∧
    t = w.log .warn "Loop exceeded its iteration bound"
      [("max_loop_count", .int config.bound), ("counter", .string config.counter)]

end Loop

namespace Script

/-- A call of the script has raised what the script comes to raise. A call that is there to raise
something hands nothing over. -/
def WasHanded (start : Starter) (script : Script) (s : Session) (raised : Raised) (t : Session) :
    Prop :=
  ∃ made next u v, (∀ own, made ≠ .raise own) ∧ Reaches start script s (.call made next) u ∧
    (made.perform start).run (u.mark .call) = .raised raised v ∧
    Reaches start (next (.error raised)) v (.raise raised) t

structure RaisesItself (start : Starter) (script : Script) (s : Session) (raised : Raised)
    (t : Session) : Prop where
  comes : Reaches start script s (.raise raised) t
  fresh : ¬ script.WasHanded start s raised t

end Script

/-- A valve that was started in one session makes a failure itself and ends with it in another. A plain
cause is wrapped under the valve's name; what a script raises as a failure is left as it is. -/
inductive Valve.Makes (start : Starter) : Valve → Session → ValveFailure → Session → Prop
  | failing {name message : String} {s : Session} :
    Makes start (.failing name message) s (.failed name { message }) s
  | loop {body : Pipeline} {config : LoopConfig} {s t : Session} :
    Loop.Exceeds (Walk.runPipeline start) none body config s t →
    Makes start (.loop body config) s (.tooManyLoops config.bound) t
  | whileLoop {condition : Condition} {body : Pipeline} {config : LoopConfig} {s t : Session} :
    Loop.Exceeds (Walk.runPipeline start) (some condition) body config s t →
    Makes start (.whileLoop condition body config) s (.tooManyLoops config.bound) t
  | raises {name : String} {script : Script} {failure : ValveFailure} {s t : Session} :
    script.RaisesItself start s (.valve failure) t →
    Makes start (.scripted name script) s failure t
  | wraps {name : String} {script : Script} {cause : Cause} {s t : Session} :
    script.RaisesItself start s (.plain cause) t →
    Makes start (.scripted name script) s (.failed name cause) t

namespace Trail

/-- At a moment the valve at a place of the innermost walk ends with a failure that it has made itself;
this is the trail before. -/
inductive Origin (failure : ValveFailure) : List Moment → Moment → Prop
  | intro {steps i : Nat} {v : Valve} {s t : Session} {frame : Frame} {walk : Frame}
    {outer : List Frame} : walk.pipeline = frame.pipeline → frame.pipeline.valves[i]? = some v →
    v.Makes (Valve.run steps) (s.enterValve frame outer i) failure t →
    Origin failure t.trail ⟨.leaveValve i (some failure), walk :: outer, t.pending⟩

def Tells (base trail : List Moment) (failure : ValveFailure) : Prop :=
  ∃ before m after, trail = before ++ m :: after ∧ base <+: before ∧ Origin failure before m

/-- A trail that has grown: of each failure with which something ended since, it tells an origin at that
moment or before. -/
inductive Told (base : List Moment) : List Moment → Prop
  | refl : Told base base
  | concat {trail : List Moment} {m : Moment} : Told base trail →
    (∀ failure, m.mark.failure? = some failure → Tells base (trail ++ [m]) failure) →
    Told base (trail ++ [m])

variable {base base' mid trail trail' : List Moment} {m : Moment} {failure : ValveFailure}

theorem Tells.mono (h : Tells base trail failure) (hbase : base' <+: base)
    (htrail : trail <+: trail') : Tells base' trail' failure := by
  obtain ⟨before, m, after, rfl, hbefore, horigin⟩ := h
  obtain ⟨more, rfl⟩ := htrail
  exact ⟨before, m, after ++ more, by simp, hbase.trans hbefore, horigin⟩

namespace Told

theorem isPrefix (h : Told base trail) : base <+: trail := by
  induction h with
  | refl => exact List.prefix_rfl
  | concat _ _ ih => exact ih.trans (List.prefix_append _ _)

theorem trans (h : Told base mid) (h' : Told mid trail) : Told base trail := by
  induction h' with
  | refl => exact h
  | concat _ hm ih =>
    exact ih.concat fun failure hfailure => (hm failure hfailure).mono h.isPrefix List.prefix_rfl

theorem quiet (h : Told base trail) (hm : m.mark.failure? = none) : Told base (trail ++ [m]) :=
  h.concat fun failure hfailure => by simp [hm] at hfailure

theorem tells (h : Told base trail) {before after : List Moment}
    (split : trail = before ++ m :: after) (hbase : base <+: before)
    (hm : m.mark.failure? = some failure) : Tells base (before ++ [m]) failure := by
  induction h generalizing after with
  | refl =>
    have hlength := hbase.length_le
    rw [split, List.length_append, List.length_cons] at hlength
    omega
  | @concat trail last _ hlast ih =>
    rcases List.eq_nil_or_concat after with rfl | ⟨after, last', rfl⟩
    · obtain ⟨rfl, hsame⟩ := List.append_inj' split rfl
      obtain rfl := List.singleton_inj.mp hsame
      exact hlast failure hm
    · have hsplit : trail ++ [last] = (before ++ m :: after) ++ [last'] := by simpa using split
      exact ih (List.append_inj' hsplit rfl).1

end Told

end Trail

def Conduct.traced : Conduct where
  done s t := Trail.Told s.trail t.trail
  cut s t := Trail.Told s.trail t.trail

theorem Conduct.traced_continues : traced.Continues where
  refl _ := .refl
  trans := .trans
  cut_refl _ := .refl
  cut_trans := .trans
  change {s t} h := by
    rcases h.trail_eq with htrail | ⟨m, hm, rfl⟩
    · show Trail.Told s.trail t.trail
      rw [htrail]
      exact .refl
    · show Trail.Told s.trail (s.mark m).trail
      rw [Session.trail_mark]
      refine Trail.Told.refl.quiet ?_
      cases m <;> first | rfl | cases hm

inductive Ending.Accounted {α : Type} (s : Session) : Ending ValveFailure α → Prop
  | answered {a : α} {t : Session} : Trail.Told s.trail t.trail → Accounted s (.answered a t)
  | raised {failure : ValveFailure} {t : Session} : Trail.Told s.trail t.trail →
    Trail.Tells s.trail t.trail failure → Accounted s (.raised failure t)
  | exhausted {t : Session} : Trail.Told s.trail t.trail → Accounted s (.exhausted t)

def Run.Accounted {α : Type} (x : Run ValveFailure α) : Prop :=
  ∀ s, (x.run s).Accounted s

namespace Run.Accounted

variable {α : Type} {x : Run ValveFailure α}

theorem keeps (h : x.Accounted) : x.KeepsTo .traced := by
  intro s
  have := h s
  generalize x.run s = ending at this ⊢
  cases this with
  | answered htold => exact htold
  | raised htold _ => exact htold
  | exhausted htold => exact htold

theorem tells (h : x.Accounted) {s t : Session} {failure : ValveFailure}
    (hraised : x.run s = .raised failure t) : Trail.Tells s.trail t.trail failure := by
  have := h s
  rw [hraised] at this
  cases this with
  | raised _ htells => exact htells

end Run.Accounted

structure Starter.Accounts (start : Starter) : Prop where
  balanced (v : Valve) : (start v).KeepsTo .balanced
  keeps (v : Valve) : (start v).KeepsTo .traced
  makes {v : Valve} {s t : Session} {failure : ValveFailure} :
    (start v).run s = .raised failure t →
    (∃ steps, v.Makes (Valve.run steps) s failure t) ∨ Trail.Tells s.trail t.trail failure

theorem Conduct.traced_mark {s t : Session} {m : Moment} (htrail : t.trail = s.trail ++ [m])
    (hm : m.mark.failure? = none) : traced.done s t := by
  show Trail.Told s.trail t.trail
  rw [htrail]
  exact Trail.Told.refl.quiet hm

theorem Ending.Accounted.of_failed {α : Type} {s t u : Session} {m : Moment} {failure : ValveFailure}
    (htold : Trail.Told s.trail t.trail) (htrail : u.trail = t.trail ++ [m])
    (hm : m.mark.failure? = some failure)
    (htells : Trail.Tells s.trail t.trail failure ∨ Trail.Origin failure t.trail m) :
    (Ending.raised failure u : Ending ValveFailure α).Accounted s := by
  have tells : Trail.Tells s.trail (t.trail ++ [m]) failure := by
    rcases htells with htells | horigin
    · exact htells.mono List.prefix_rfl (List.prefix_append _ _)
    · exact ⟨t.trail, m, [], rfl, htold.isPrefix, horigin⟩
  refine .raised ?_ (htrail ▸ tells)
  rw [htrail]
  refine htold.concat fun other hother => ?_
  obtain rfl : failure = other := Option.some.inj (hm.symm.trans hother)
  exact tells

namespace Walk

variable {start : Starter}

theorem proceed_accounted (hstart : start.Accounts) : (proceed start).Accounted := by
  have hc := Conduct.traced_continues
  intro s
  have proceeding := proceed_proceeding start s
  generalize (proceed start).run s = ending at proceeding ⊢
  cases proceeding with
  | waits _ => exact .answered .refl
  | outside _ _ => exact .answered (hc.log ..)
  | again _ _ _ => exact .answered (hc.log ..)
  | ends _ _ _ _ => exact .answered .refl
  | @starts frame outer v _ _ _ hvalve =>
    have entered : Trail.Told s.trail (s.enterValve frame outer frame.next).trail :=
      Conduct.traced_mark (Session.trail_mark _ _) rfl
    rw [Run.run_afterwards]
    cases h : (start v).run (s.enterValve frame outer frame.next) with
    | answered a t =>
      have grown := entered.trans ((hstart.keeps v).answered h)
      exact .answered (grown.trans (Conduct.traced_mark (Session.trail_leaveValve ..) rfl))
    | raised failure t =>
      have grown := entered.trans ((hstart.keeps v).raised h)
      refine .of_failed grown (Session.trail_leaveValve ..) rfl ?_
      rcases hstart.makes h with ⟨steps, hmakes⟩ | htells
      · obtain ⟨walk, hwalk, hpipeline, -⟩ := ((hstart.balanced v).raised h).of_cons
        rw [Session.frames_leaveValve _ _ _ hwalk]
        exact .inr (.intro hpipeline hvalve hmakes)
      · exact .inl (htells.mono entered.isPrefix List.prefix_rfl)
    | exhausted t => exact .exhausted (entered.trans ((hstart.keeps v).exhausted h))

theorem runPipeline_accounted (hstart : start.Accounts) (p : Pipeline) :
    (runPipeline start p).Accounted := by
  have hproceed := proceed_accounted hstart
  intro s
  have entered : Trail.Told s.trail (s.enterPipeline p).trail :=
    Conduct.traced_mark (s.trail_enterPipeline p) rfl
  simp only [runPipeline, Run.run_bind, Run.run_update, Run.run_afterwards]
  cases h : (proceed start).run (s.enterPipeline p) with
  | answered a t =>
    have grown := entered.trans (hproceed.keeps.answered h)
    exact .answered (grown.trans (Conduct.traced_mark (t.trail_leavePipeline none) rfl))
  | raised failure t =>
    refine .of_failed (entered.trans (hproceed.keeps.raised h)) (t.trail_leavePipeline _) rfl ?_
    exact .inl ((hproceed.tells h).mono entered.isPrefix List.prefix_rfl)
  | exhausted t => exact .exhausted (entered.trans (hproceed.keeps.exhausted h))

end Walk

namespace Run.Accounted

variable {α β : Type} {x : Run ValveFailure α} {f : α → Run ValveFailure β}
  {s t : Session}

theorem pure (a : α) : (Pure.pure a : Run ValveFailure α).Accounted :=
  fun _ => .answered .refl

theorem act {f : Session → α × Session} (h : ∀ s, Conduct.traced.done s (f s).2) :
    (Run.act f : Run ValveFailure α).Accounted :=
  fun s => .answered (h s)

theorem update {f : Session → Session} (h : ∀ s, Conduct.traced.done s (f s)) :
    (Run.update f : Run ValveFailure Unit).Accounted :=
  fun s => .answered (h s)

theorem bind_of (hx : (x.run t).Accounted s)
    (hf : ∀ a u, x.run t = .answered a u → ((f a).run u).Accounted s) :
    ((x >>= f).run t).Accounted s := by
  rw [Run.run_bind]
  cases h : x.run t with
  | answered a u => exact hf a u h
  | raised failure u =>
    rw [h] at hx
    cases hx with
    | raised htold htells => exact .raised htold htells
  | exhausted u =>
    rw [h] at hx
    cases hx with
    | exhausted htold => exact .exhausted htold

end Run.Accounted

theorem Ending.Accounted.since {α : Type} {ending : Ending ValveFailure α} {s t : Session}
    (h : ending.Accounted t) (htold : Trail.Told s.trail t.trail) : ending.Accounted s := by
  cases h with
  | answered h => exact .answered (htold.trans h)
  | raised h htells => exact .raised (htold.trans h) (htells.mono htold.isPrefix List.prefix_rfl)
  | exhausted h => exact .exhausted (htold.trans h)

theorem Run.Accounted.bind {α β : Type} {x : Run ValveFailure α} {f : α → Run ValveFailure β}
    (hx : x.Accounted) (hf : ∀ a, (f a).Accounted) : (x >>= f).Accounted :=
  fun s => bind_of (hx s) fun a t h => (hf a t).since (hx.keeps.answered h)

namespace Guarded

variable {ε : Type} {walk : Walker} {block : Pipeline} {s t : Session} {failure : ValveFailure}

theorem runBlock_error
    (h : (runBlock walk block : Run ε _).run s = .answered (.error failure) t) :
    (walk block).run s = .raised failure t := by
  simp only [runBlock, Run.run_bind, Run.run_attempt] at h
  cases hwalk : (walk block).run s with
  | answered ended u => cases ended <;> simp [hwalk] at h
  | raised e u => simpa [hwalk] using h
  | exhausted u => simp [hwalk] at h

theorem runProtected_error {tryBlock catchBlock : Option Pipeline} {config : CatchConfig}
    (hwalk : ∀ p, (walk p).Accounted)
    (h : (runProtected walk tryBlock catchBlock config : Run ε _).run s =
      .answered (.error failure) t) : Trail.Tells s.trail t.trail failure := by
  cases tryBlock with
  | none => simp [runProtected] at h
  | some block =>
    have hkeeps := runBlock_keepsTo (ε := ε) Conduct.traced_continues.toAllows (hwalk block).keeps
    simp only [runProtected, Run.run_bind] at h
    cases htry : (runBlock walk block : Run ε _).run s with
    | answered ending u =>
      rw [htry] at h
      cases ending with
      | ok origin => simp at h
      | error first =>
        cases catchBlock with
        | none =>
          obtain ⟨rfl, rfl⟩ : first = failure ∧ u = t := by simpa using h
          exact (hwalk block).tells (runBlock_error htry)
        | some handler =>
          have caught : Trail.Told s.trail (catching config first u).trail :=
            (hkeeps.answered htry).trans (Conduct.traced_continues.catching config trivial first u)
          exact ((hwalk handler).tells (runBlock_error h)).mono caught.isPrefix List.prefix_rfl
    | raised e u => simp [htry] at h
    | exhausted u => simp [htry] at h

end Guarded

theorem Run.Accounted.attempt {α : Type} {x : Run ValveFailure α} (hx : x.Accounted) :
    (Run.attempt x : Run ValveFailure (Except ValveFailure α)).Accounted := by
  intro s
  rw [run_attempt]
  cases h : x.run s with
  | answered a t => exact .answered (hx.keeps.answered h)
  | raised failure t => exact .answered (hx.keeps.raised h)
  | exhausted t => exact .exhausted (hx.keeps.exhausted h)

theorem Walk.settle_accounted (label : Option String) :
    (settle label : Run ValveFailure Settlement).Accounted :=
  .act fun s => Conduct.traced_continues.settle s label

theorem Walk.runBoundary_accounted {walk : Walker} {p : Pipeline} (hwalk : (walk p).Accounted) :
    (runBoundary walk p).Accounted :=
  hwalk.bind fun _ => settle_accounted p.label

theorem Guarded.runBlock_accounted {walk : Walker} {block : Pipeline}
    (hwalk : (walk block).Accounted) :
    (runBlock walk block : Run ValveFailure (Except _ (Option Pipeline))).Accounted := by
  refine hwalk.attempt.bind fun ended => ?_
  cases ended with
  | error failure => exact .pure _
  | ok ended => cases ended <;> exact .pure _

theorem Guarded.runProtected_accounted {walk : Walker} (hwalk : ∀ p, (walk p).Accounted)
    (tryBlock catchBlock : Option Pipeline) (config : CatchConfig) :
    (runProtected walk tryBlock catchBlock config :
      Run ValveFailure (Except _ (Option Pipeline))).Accounted := by
  cases tryBlock with
  | none => exact .pure _
  | some block =>
    refine (runBlock_accounted (hwalk block)).bind fun ending => ?_
    cases ending with
    | ok origin => exact .pure _
    | error failure =>
      cases catchBlock with
      | none => exact .pure _
      | some handler =>
        have catches := Conduct.traced_continues.catching config trivial failure
        exact (Run.Accounted.update catches).bind fun _ => runBlock_accounted (hwalk handler)

namespace Flat

variable {walk : Walker} {s t : Session} {failure : ValveFailure}

theorem settle_accounted (origin : Option Pipeline) : (settle origin).Accounted :=
  (Walk.settle_accounted _).bind fun _ => .pure ()

theorem block_accounted {p : Pipeline} (hwalk : (walk p).Accounted) : (block walk p).Accounted :=
  (Walk.runBoundary_accounted hwalk).bind fun _ => .pure ()

/-- What waited for the last block is raised again as it was. -/
theorem conclude_accounted {ending : Except ValveFailure (Option Pipeline)}
    {waiting : Option Signal} (hgrown : Trail.Told s.trail t.trail)
    (htells : ∀ failure, ending = .error failure → Trail.Tells s.trail t.trail failure) :
    ((conclude ending waiting).run t).Accounted s := by
  cases ending with
  | error failure => exact .raised hgrown (htells failure rfl)
  | ok origin =>
    cases waiting with
    | none => exact .answered hgrown
    | some signal =>
      have pends (u : Session) := Conduct.traced_continues.pend u (some signal)
      have settles := (Run.Accounted.update pends).bind fun _ => settle_accounted origin
      exact (settles t).since hgrown

theorem guarded_accounted (hwalk : ∀ p, (walk p).Accounted)
    (tryBlock catchBlock finallyBlock : Option Pipeline) (config : CatchConfig) :
    (guarded walk tryBlock catchBlock finallyBlock config).Accounted := by
  have hprotects := Guarded.runProtected_accounted hwalk tryBlock catchBlock config
  refine fun s => Run.Accounted.bind_of (hprotects s) fun ending t h => ?_
  have hgrown : Trail.Told s.trail t.trail := hprotects.keeps.answered h
  have htells : ∀ failure, ending = .error failure → Trail.Tells s.trail t.trail failure := by
    rintro failure rfl
    exact Guarded.runProtected_error hwalk h
  rw [Run.run_bind, Run.run_act]
  cases finallyBlock with
  | none => exact conclude_accounted (t := t.dropBreak) hgrown htells
  | some last =>
    have hlast : ((walk last).run t.dropBreak).Accounted s := (hwalk last t.dropBreak).since hgrown
    refine Run.Accounted.bind_of hlast fun ended u hended => ?_
    have hpast : Trail.Told t.dropBreak.trail u.trail := (hwalk last).keeps.answered hended
    cases ended with
    | completed =>
      refine conclude_accounted (hgrown.trans hpast) fun failure hending => ?_
      exact (htells failure hending).mono List.prefix_rfl hpast.isPrefix
    | unwound => exact (settle_accounted (some last) u).since (hgrown.trans hpast)

end Flat

namespace Flat

variable {start : Starter} {s t : Session} {failure : ValveFailure}

theorem iterate_makes {walk : Walker} {condition : Option Condition} {body : Pipeline}
    {config : LoopConfig} (hwalk : (walk body).Accounted) {steps count : Nat} {origin : Session}
    (hcomes : Loop.Comes walk condition body config origin count s)
    (h : (iterate walk condition body config steps count).run s = .raised failure t) :
    (failure = .tooManyLoops config.bound ∧ Loop.Exceeds walk condition body config origin t) ∨
      Trail.Tells s.trail t.trail failure := by
  have hc := Conduct.traced_continues
  induction steps generalizing count s with
  | zero => cases h
  | succ steps ih =>
    have asks : (Loop.asksForMore condition : Run ValveFailure Bool).Accounted := by
      cases condition with
      | none => exact .pure true
      | some condition => exact .act fun s => hc.ask s condition
    rw [iterate, Run.run_bind] at h
    cases hask : (Loop.asksForMore condition : Run ValveFailure Bool).run s with
    | exhausted u => simp [hask] at h
    | raised e u =>
      obtain ⟨rfl, rfl⟩ : e = failure ∧ u = t := by simpa [hask] using h
      exact .inr (asks.tells hask)
    | answered more u =>
      have asked : Trail.Told s.trail u.trail := asks.keeps.answered hask
      simp only [hask] at h
      cases more with
      | false => simp at h
      | true =>
        cases hspent : Loop.isSpent config count with
        | true =>
          obtain ⟨rfl, rfl⟩ : .tooManyLoops config.bound = failure ∧ _ = t := by
            simpa [hspent] using h
          exact .inl ⟨rfl, count, s, u, hcomes, hask, hspent, rfl⟩
        | false =>
          have begun : Trail.Told s.trail (Loop.begin config count u).trail :=
            asked.trans (hc.begin config trivial count u)
          have hbody := Walk.runBoundary_accounted hwalk
          simp only [if_true, hspent, Bool.false_eq_true, if_false, Run.run_bind,
            Run.run_update] at h
          cases hrun : (Walk.runBoundary walk body).run (Loop.begin config count u) with
          | exhausted w => simp [hrun] at h
          | raised e w =>
            obtain ⟨rfl, rfl⟩ : e = failure ∧ w = t := by simpa [hrun] using h
            exact .inr ((hbody.tells hrun).mono begun.isPrefix List.prefix_rfl)
          | answered settlement w =>
            have grown : Trail.Told s.trail w.trail := begun.trans (hbody.keeps.answered hrun)
            simp only [hrun] at h
            cases settlement with
            | absorbed => simp at h
            | propagated => simp at h
            | completed =>
              rcases ih (hcomes.again hask hspent hrun) h with hexceeds | htells
              · exact .inl hexceeds
              · exact .inr (htells.mono grown.isPrefix List.prefix_rfl)

theorem select_accounted {branches : List Branch} {otherwise : Option Pipeline}
    {f : Option Pipeline → Run ValveFailure Unit} (hf : ∀ chosen, (f chosen).Accounted) :
    (Valve.work.select branches otherwise >>= f).Accounted := by
  induction branches with
  | nil => exact hf otherwise
  | cons branch branches ih =>
    simp only [Valve.work.select, bind_assoc]
    refine (Run.Accounted.act fun s => Conduct.traced_continues.ask s _).bind fun answer => ?_
    cases answer with
    | true => exact hf (some branch.block)
    | false => exact ih

theorem own_makes {steps : Nat} {v : Valve} (hwalk : ∀ p, (Walk.runPipeline start p).Accounted)
    (h : (work.own (Walk.runPipeline start) steps v).run s = .raised failure t) :
    v.Makes start s failure t ∨ Trail.Tells s.trail t.trail failure := by
  have hc := Conduct.traced_continues
  have asks (condition : Condition) : (Run.act (·.ask condition) : Run ValveFailure Bool).Accounted :=
    .act fun s => hc.ask s condition
  have breaks (wanted : Bool) (signal : Signal) : (breakWhen wanted signal).Accounted := by
    cases wanted with
    | true => exact .update fun s => hc.request s signal
    | false => exact .pure ()
  cases v with
  | passThrough => cases h
  | setAttribute key value => cases h
  | log severity message => cases h
  | record name counter => cases h
  | failing name message =>
    cases h
    exact .inl .failing
  | scripted name script => cases h
  | breakWith signal => cases h
  | exit => cases h
  | breakIf condition signal =>
    exact .inr (((asks condition).bind fun answer => breaks answer signal).tells h)
  | breakUnless condition signal =>
    exact .inr (((asks condition).bind fun answer => breaks (!answer) signal).tells h)
  | loop body config =>
    obtain ⟨rfl, hexceeds⟩ | htells := iterate_makes (hwalk body) .begins h
    · exact .inl (.loop hexceeds)
    · exact .inr htells
  | whileLoop condition body config =>
    obtain ⟨rfl, hexceeds⟩ | htells := iterate_makes (hwalk body) .begins h
    · exact .inl (.whileLoop hexceeds)
    · exact .inr htells
  | ifThen condition p =>
    refine .inr (((asks condition).bind fun answer => ?_).tells h)
    cases answer with
    | true => exact block_accounted (hwalk p)
    | false => exact .pure ()
  | choose branches otherwise =>
    refine .inr ((select_accounted fun chosen => ?_).tells h)
    cases chosen with
    | some p => exact block_accounted (hwalk p)
    | none => exact .pure ()
  | sub p => exact .inr ((block_accounted (hwalk p)).tells h)
  | guarded tryBlock catchBlock finallyBlock config =>
    exact .inr ((guarded_accounted hwalk tryBlock catchBlock finallyBlock config).tells h)

end Flat

theorem Conduct.traced_carries {start : Starter} (hstart : start.Accounts) :
    traced.Carries (fun _ => True) (fun _ => True) start where
  toAllows := traced_continues.toAllows
  proceed := (Walk.proceed_accounted hstart).keeps
  walk _ := (Walk.runPipeline_accounted hstart _).keeps
  invoke := Walk.invoke_keepsTo traced_continues fun p => (Walk.runPipeline_accounted hstart p).keeps

theorem Walk.invoke_tells {ε : Type} {start : Starter} (hstart : start.Accounts) {s t : Session}
    {name : String} {failure : ValveFailure}
    (h : (invoke (runPipeline start) : Run ε _).run s = .answered (.error (.uncaught name failure)) t) :
    Trail.Tells s.trail t.trail failure ∧ name = s.pipeline.displayName ∧
      ∃ u, t = reportFailed failure u := by
  have invoking := invoke_invoking (ε := ε) start s
  rw [h] at invoking
  cases invoking with
  | @failed u failure _ hwalk =>
    have tells : Trail.Tells (launched s).trail u.trail failure :=
      (runPipeline_accounted hstart s.pipeline).tells hwalk
    have hlaunched : (launched s).trail = s.trail := launched_trail s
    have hreported : (reportFailed failure u).trail = u.trail := Session.trail_emit ..
    rw [hlaunched] at tells
    exact ⟨hreported ▸ tells, rfl, u, rfl⟩

theorem Run.Accounted.call {α : Type} {x : Run ValveFailure α} (hx : x.Accounted) {g : α → Reply}
    {s t : Session} {raised : Raised}
    (h : (Run.raising x Raised.valve >>= fun a => (return g a : Run Raised Reply)).run s =
      .raised raised t) :
    ∃ failure, raised = .valve failure ∧ Trail.Tells s.trail t.trail failure := by
  rw [run_bind, run_raising] at h
  cases hrun : x.run s with
  | answered a u => simp [hrun] at h
  | raised failure u =>
    obtain ⟨rfl, rfl⟩ : .valve failure = raised ∧ u = t := by simpa [hrun] using h
    exact ⟨failure, rfl, hx.tells hrun⟩
  | exhausted u => simp [hrun] at h

theorem Call.perform_tells {start : Starter} (hstart : start.Accounts) {made : Call}
    (hmade : ∀ own, made ≠ .raise own) {s t : Session} {raised : Raised}
    (h : (made.perform start).run s = .raised raised t) :
    ∃ failure, raised = .valve failure ∧ Trail.Tells s.trail t.trail failure := by
  have hproceed := Walk.proceed_accounted hstart
  have hwalk := Walk.runPipeline_accounted hstart
  cases made with
  | raise own => exact absurd rfl (hmade own)
  | proceed => exact hproceed.call h
  | resume settlement =>
    have resumes : (Walk.resumeAfter start settlement).Accounted := by
      unfold Walk.resumeAfter
      split
      · exact hproceed
      · exact .pure ()
    exact resumes.call h
  | runPipeline p => exact (hwalk p).call h
  | runBoundary p => exact (Walk.runBoundary_accounted (hwalk p)).call h
  | tryProceed =>
    simp only [perform, Run.run_bind, Run.run_attempt] at h
    cases hrun : (Walk.proceed start).run s <;> simp [hrun] at h
  | invoke =>
    simp only [perform, Run.run_bind] at h
    cases hrun : (Walk.invoke (Walk.runPipeline start) : Run Raised _).run s with
    | answered a u => simp [hrun] at h
    | raised e u => exact absurd hrun Walk.invoke_ne_raised
    | exhausted u => simp [hrun] at h
  | _ => cases h

theorem Script.follow_raised {start : Starter} : ∀ {script : Script} {s t : Session}
    {raised : Raised}, (script.follow start).run s = .raised raised t →
    Reaches start script s (.raise raised) t
  | .finish _, _, _, _, h => by cases h
  | .raise _, _, _, _, h => by
    cases h
    exact .refl
  | .note _ _, _, _, _, h => .note (follow_raised h)
  | .call made next, s, t, raised, h => by
    simp only [follow, Run.run_bind, Run.run_update] at h
    cases hrun : (Run.attempt (made.perform start) : Run Raised _).run (s.mark .call) with
    | answered reply u =>
      rw [hrun] at h
      exact .call hrun (follow_raised h)
    | raised e u => simp only [Run.run_attempt] at hrun; split at hrun <;> cases hrun
    | exhausted u => rw [hrun] at h; cases h

/-- What leaves a scripted valve was raised by the script itself, or has an origin in one of its calls
or in the rest of the pipeline. -/
theorem Script.run_makes {start : Starter} (hstart : start.Accounts) {name : String}
    {script : Script} {s t : Session} {failure : ValveFailure}
    (h : (script.run start name).run s = .raised failure t) :
    (Valve.scripted name script).Makes start s failure t ∨ Trail.Tells s.trail t.trail failure := by
  have hc := Conduct.traced_carries hstart
  rw [Script.run, Run.run_bind, Run.run_raising] at h
  cases hfollow : (script.follow start).run s with
  | answered flow u =>
    have grown : Trail.Told s.trail u.trail := (hc.follow script.admitted).answered hfollow
    simp only [hfollow] at h
    cases flow with
    | goOn =>
      have tells := (Walk.proceed_accounted hstart).tells h
      exact .inr (tells.mono grown.isPrefix List.prefix_rfl)
    | halt => cases h
  | raised raised u =>
    obtain ⟨rfl, rfl⟩ : raised.underName name = failure ∧ u = t := by simpa [hfollow] using h
    have hcomes := follow_raised hfollow
    by_cases hhanded : script.WasHanded start s raised u
    · obtain ⟨made, next, v, w, hmade, hbefore, hcall, hafter⟩ := hhanded
      obtain ⟨failure, rfl, tells⟩ := Call.perform_tells hstart hmade hcall
      have before : Trail.Told s.trail (v.mark .call).trail :=
        .trans (hc.reaches hbefore script.admitted) (hc.mark v rfl)
      have after : Trail.Told w.trail u.trail := hc.reaches hafter (next _).admitted
      exact .inr (tells.mono before.isPrefix after.isPrefix)
    · have itself : script.RaisesItself start s raised u := ⟨hcomes, hhanded⟩
      cases raised with
      | valve failure => exact .inl (.raises itself)
      | plain cause => exact .inl (.wraps itself)
  | exhausted u => simp [hfollow] at h

theorem Valve.run_accounts (steps : Nat) : Starter.Accounts (run steps) := by
  induction steps with
  | zero => exact ⟨Valve.run_keepsTo Conduct.balanced_covers 0, fun v s => .refl, nofun⟩
  | succ steps ih =>
    have hwalk := Walk.runPipeline_accounted ih
    refine ⟨Valve.run_keepsTo Conduct.balanced_covers (steps + 1),
      fun v => (Conduct.traced_carries ih).work steps v.admitted, ?_⟩
    intro v s t failure h
    have made : v.Makes (run steps) s failure t ∨ Trail.Tells s.trail t.trail failure := by
      by_cases hscript : ∃ name script, v = .scripted name script
      · obtain ⟨name, script, rfl⟩ := hscript
        exact Script.run_makes ih h
      · have hbuiltIn : ∀ name script, v ≠ .scripted name script :=
          fun name script hv => hscript ⟨name, script, hv⟩
        rw [run, work_eq_own _ _ hbuiltIn, Run.run_bind] at h
        have owns := Flat.own_keepsTo (v := v) Conduct.traced_continues.toAllows steps
          (fun _ _ => trivial) fun p _ => (hwalk p).keeps
        cases hown : (Flat.work.own (Walk.runPipeline (run steps)) steps v).run s with
        | answered a u =>
          have grown : Trail.Told s.trail u.trail := owns.answered hown
          have tells := (Walk.proceed_accounted ih).tells (by simpa [hown] using h)
          exact .inr (tells.mono grown.isPrefix List.prefix_rfl)
        | raised e u =>
          obtain ⟨rfl, rfl⟩ : e = failure ∧ u = t := by simpa [hown] using h
          exact Flat.own_makes hwalk hown
        | exhausted u => simp [hown] at h
    exact made.imp_left fun hmakes => ⟨steps, hmakes⟩

theorem Session.Reachable.told {s : Session} (h : s.Reachable) : Trail.Told [] s.trail := by
  obtain ⟨p, sink, identity, attributes, steps, calls, rfl⟩ := h
  have carries := Conduct.traced_carries (Valve.run_accounts steps)
  have kept := carries.makeCalls fun made (_ : made ∈ calls) => made.admitted
  cases hcalls : makeCalls steps calls { Session.start p sink identity with attributes } with
  | answered a t => exact kept.answered hcalls
  | raised e t => exact e.elim
  | exhausted t => exact kept.exhausted hcalls

theorem Call.tryProceed_tells {start : Starter} (hstart : start.Accounts) {s t : Session}
    {value : Json} (h : (Call.tryProceed.perform start).run s = .answered (.answer value) t) :
    value = Call.done ∨
      ∃ failure, value = failure.toJson ∧ Trail.Tells s.trail t.trail failure := by
  simp only [perform, Run.run_bind, Run.run_attempt] at h
  cases hrun : (Walk.proceed start).run s with
  | answered a u =>
    simp only [hrun, Run.run_pure, Ending.answered.injEq, Reply.answer.injEq] at h
    exact .inl h.1.symm
  | raised failure u =>
    simp only [hrun, Run.run_pure, Ending.answered.injEq, Reply.answer.injEq] at h
    obtain ⟨rfl, rfl⟩ := h
    exact .inr ⟨failure, rfl, (Walk.proceed_accounted hstart).tells hrun⟩
  | exhausted u => simp [hrun] at h

/-- Every failure is made at an origin and left as it is from there on, whatever it crosses. So an origin
is told of, by the trail up to there, wherever a walk or a valve ends with a failure; and by what a call
has added to the trail, when the failure is raised to its caller or reported to a script, is caught and
bound to an attribute, or comes out of a run, whose last event carries it. -/
theorem origins {ε : Type} (steps : Nat) :
    (∀ s : Session, s.Reachable → ∀ before m after failure, s.trail = before ++ m :: after →
      m.mark.failure? = some failure → Trail.Tells [] (before ++ [m]) failure) ∧
    (∀ made : Call, (∀ own, made ≠ .raise own) → ∀ s t raised,
      (made.perform (Valve.run steps)).run s = .raised raised t →
      ∃ failure, raised = .valve failure ∧ Trail.Tells s.trail t.trail failure) ∧
    (∀ s t value, (Call.tryProceed.perform (Valve.run steps)).run s = .answered (.answer value) t →
      value = Call.done ∨
        ∃ failure, value = failure.toJson ∧ Trail.Tells s.trail t.trail failure) ∧
    (∀ block handler config s t failure,
      (Walk.runPipeline (Valve.run steps) block).run s = .raised failure t →
      Trail.Tells s.trail t.trail failure ∧
        (Guarded.runProtected (Walk.runPipeline (Valve.run steps)) (some block) (some handler) config :
            Run ε _).run s =
          (Guarded.runBlock (Walk.runPipeline (Valve.run steps)) handler).run
            (Guarded.catching config failure t) ∧
        (Guarded.catching config failure t).attributes.get? config.exceptionName =
          some failure.toJson) ∧
    ∀ s t name failure,
      (Walk.invoke (Walk.runPipeline (Valve.run steps)) : Run ε _).run s =
        .answered (.error (.uncaught name failure)) t →
      Trail.Tells s.trail t.trail failure ∧ name = s.pipeline.displayName ∧
        (t.sink = .collect → ∃ earlier e, t.events = earlier ++ [e] ∧ e.type = "invocation.failed" ∧
          e.field? "error" = some failure.toJson) := by
  have hstart := Valve.run_accounts steps
  refine ⟨?_, ?_, ?_, ?_, ?_⟩
  · intro s hs before m after failure split hm
    exact hs.told.tells split List.nil_prefix hm
  · intro made hmade s t raised h
    exact Call.perform_tells hstart hmade h
  · intro s t value h
    exact Call.tryProceed_tells hstart h
  · intro block handler config s t failure h
    refine ⟨(Walk.runPipeline_accounted hstart block).tells h, ?_, ?_⟩
    · simp [Guarded.runProtected, Guarded.runBlock, h]
    · simp [Guarded.catching, Session.setAttribute, Attributes.get?_set]
  · intro s t name failure h
    obtain ⟨tells, hname, u, rfl⟩ := Walk.invoke_tells hstart h
    refine ⟨tells, hname, fun hsink => ?_⟩
    have hcollects : u.sink = .collect := (Walk.sink_reportFailed failure u).symm.trans hsink
    obtain ⟨e, hevents, htype, herror⟩ := Walk.events_reportFailed failure hcollects
    exact ⟨u.events, e, hevents, htype, herror⟩

private def relay : Script :=
  .call .proceed fun
    | .ok _ => .finish .goOn
    | .error raised => .raise raised

private def relaying : Pipeline :=
  ⟨none, [.scripted "relay" relay, .failing "last" "no"]⟩

private def relayed : ValveFailure :=
  .failed "last" { message := "no" }

private def relayingSession : Session :=
  (Session.makeCalls 4 [.invoke] (Session.start relaying .collect {})).session

private theorem relaying_reachable : relayingSession.Reachable :=
  ⟨relaying, .collect, {}, {}, 4, [.invoke], rfl⟩

theorem origins_of_relaying :
    (∃ m, relayingSession.trail[5]? = some m ∧ m.mark = .leaveValve 0 (some relayed) ∧
      Trail.Tells [] (relayingSession.trail.take 6) relayed) ∧
    ∃ t, (Walk.invoke (Walk.runPipeline (Valve.run 4)) : Run Empty _).run
        (Session.start relaying .collect {}) =
        .answered (.error (.uncaught "<anonymous>" relayed)) t ∧
      Trail.Tells [] t.trail relayed ∧ ∃ earlier e, t.events = earlier ++ [e] ∧
        e.type = "invocation.failed" ∧ e.field? "error" = some relayed.toJson := by
  have law := origins (ε := Empty) 4
  constructor
  · refine ⟨_, rfl, rfl, ?_⟩
    exact law.1 relayingSession relaying_reachable (relayingSession.trail.take 5) _ _ _ rfl rfl
  · have run := law.2.2.2.2 (Session.start relaying .collect {}) _ "<anonymous>" relayed rfl
    exact ⟨_, rfl, run.1, run.2.2 rfl⟩

end ValvePipeline
