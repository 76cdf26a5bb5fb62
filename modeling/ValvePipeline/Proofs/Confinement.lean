import ValvePipeline.Proofs.OwnWork
import ValvePipeline.Proofs.UnwindingLaw

/-!
Confined programs: every deed that they do, however deep, is one of a given kind. A run that begins in a
session with confined walks keeps to every conduct that allows these deeds and encloses walks and
valves.
-/

set_option autoImplicit false
set_option relaxedAutoImplicit false

namespace ValvePipeline

variable {may : Deed → Prop}

mutual

/-- The pipeline does no other deeds than these, however deep. -/
inductive Pipeline.Confined (may : Deed → Prop) : Pipeline → Prop
  | intro {p : Pipeline} : (∀ v ∈ p.valves, Valve.Confined may v) → Pipeline.Confined may p

inductive Valve.Confined (may : Deed → Prop) : Valve → Prop
  | builtIn {v : Valve} : (∀ name script, v ≠ .scripted name script) → (∀ d ∈ v.deeds, may d) →
    (∀ p ∈ v.children, Pipeline.Confined may p) → Valve.Confined may v
  | scripted {name : String} {script : Script} : Script.Confined may script →
    Valve.Confined may (.scripted name script)

inductive Script.Confined (may : Deed → Prop) : Script → Prop
  | finish {flow : Flow} : Script.Confined may (.finish flow)
  | raise {raised : Raised} : Script.Confined may (.raise raised)
  | note {entry : String} {rest : Script} : Script.Confined may rest →
    Script.Confined may (.note entry rest)
  | call {made : Call} {next : Except Raised Reply → Script} : (∀ d ∈ made.deeds, may d) →
    (∀ p ∈ made.pipelines, Pipeline.Confined may p) →
    (∀ reply, Script.Confined may (next reply)) → Script.Confined may (.call made next)

end

abbrev Call.Confined (may : Deed → Prop) (made : Call) : Prop :=
  made.Admitted may (Pipeline.Confined may)

theorem Script.Confined.admitted : ∀ {script : Script}, script.Confined may →
    script.Admitted may (Pipeline.Confined may)
  | .finish _, _ => .finish
  | .raise _, _ => .raise
  | .note _ _, h => by
    cases h with
    | note hrest => exact .note hrest.admitted
  | .call _ _, h => by
    cases h with
    | call hdeeds hpipelines hnext => exact .call ⟨hdeeds, hpipelines⟩ fun reply =>
        (hnext reply).admitted

theorem Valve.Confined.admitted {v : Valve} (h : v.Confined may) :
    v.Admitted may (Pipeline.Confined may) := by
  cases h with
  | builtIn hbuiltIn hdeeds hchildren => exact .builtIn hbuiltIn hdeeds hchildren
  | scripted hscript => exact .scripted hscript.admitted

theorem Pipeline.Confined.valve {p : Pipeline} (h : p.Confined may) {v : Valve}
    (hv : v ∈ p.valves) : v.Confined may := by
  cases h with
  | intro hvalves => exact hvalves v hv

structure Session.Confined (may : Deed → Prop) (s : Session) : Prop where
  pipeline : s.pipeline.Confined may
  frames : s.Walks (Pipeline.Confined may)

namespace Session.Confined

variable {s t : Session}

theorem change (h : s.Confined may) (hchange : Change s t) : t.Confined may :=
  ⟨hchange.pipeline_eq ▸ h.pipeline, h.frames.of_eq hchange.frames_eq⟩

theorem enterPipeline (h : s.Confined may) {p : Pipeline} (hp : p.Confined may) :
    (s.enterPipeline p).Confined may :=
  ⟨h.pipeline, h.frames.enterPipeline hp⟩

theorem leavePipeline (h : s.Confined may) (failure : Option ValveFailure) :
    (s.leavePipeline failure).Confined may :=
  ⟨h.pipeline, h.frames.leavePipeline failure⟩

theorem enterValve (h : s.Confined may) {frame : Frame} {outer : List Frame} {i : Nat}
    (hframes : s.frames = frame :: outer) : (s.enterValve frame outer i).Confined may :=
  ⟨h.pipeline, h.frames.enterValve hframes⟩

theorem leaveValve (h : s.Confined may) (i : Nat) (cursor : Option Nat)
    (failure : Option ValveFailure) : (s.leaveValve i cursor failure).Confined may :=
  ⟨h.pipeline, h.frames.leaveValve i cursor failure⟩

end Session.Confined

namespace Conduct

variable {c : Conduct}

def confined (c : Conduct) (may : Deed → Prop) : Conduct where
  done s t := s.Confined may → t.Confined may ∧ c.done s t
  cut s t := s.Confined may → c.cut s t

theorem confined_change {s t : Session} (hchange : Change s t) (h : c.done s t) :
    (c.confined may).done s t :=
  fun hs => ⟨hs.change hchange, h⟩

theorem confined_allows (hc : c.Allows may) : (c.confined may).Allows may where
  refl s hs := ⟨hs, hc.refl s⟩
  trans h h' hs := by
    obtain ⟨ht, hst⟩ := h hs
    obtain ⟨hu, htu⟩ := h' ht
    exact ⟨hu, hc.trans hst htu⟩
  cut_refl s _ := hc.cut_refl s
  cut_trans h h' hs := by
    obtain ⟨ht, hst⟩ := h hs
    exact hc.cut_trans hst (h' ht)
  log s _ _ _ := confined_change (.log ..) (hc.log s ..)
  note s _ := confined_change (.note _) (hc.note s _)
  pend s _ := confined_change (.pend _) (hc.pend s _)
  mark s {_} hm := confined_change (.mark _ hm) (hc.mark s hm)
  report s {_} data htype := confined_change (.emit _ _) (hc.report s data htype)
  deed hd hchanges := confined_change hchanges.change (hc.deed hd hchanges)

end Conduct

namespace Walk

variable {c : Conduct} {start : Starter}

theorem proceed_confined (hc : c.Allows may) (hencloses : c.Encloses)
    (hstart : ∀ v, v.Confined may → (start v).KeepsTo (c.confined may)) :
    (proceed start).KeepsTo (c.confined may) := by
  have hconfined := Conduct.confined_allows hc
  intro s
  have proceeding := proceed_proceeding start s
  generalize (proceed start).run s = ending at proceeding ⊢
  cases proceeding with
  | waits _ => exact hconfined.refl s
  | outside _ _ => exact hconfined.log s _ _ _
  | again _ _ _ => exact hconfined.log s _ _ _
  | ends _ _ _ _ => exact hconfined.refl s
  | @starts frame outer v hpending hframes hnew hvalve =>
    rw [Run.run_afterwards]
    -- The valve is confined because the innermost walk is, so what is to be shown may be assumed.
    have hv (hs : s.Confined may) : v.Confined may :=
      (hs.frames.innermost hframes).valve (List.mem_of_getElem? hvalve)
    have left {t : Session} (failure : Option ValveFailure) (hs : s.Confined may)
        (h : (c.confined may).done (s.enterValve frame outer frame.next) t) :
        (t.leaveValve frame.next frame.cursor failure).Confined may ∧
          c.done s (t.leaveValve frame.next frame.cursor failure) := by
      obtain ⟨ht, hdone⟩ := h (hs.enterValve hframes)
      exact ⟨ht.leaveValve .., hencloses.valve failure hpending hframes hnew hdone⟩
    cases h : (start v).run (s.enterValve frame outer frame.next) with
    | answered a t => exact fun hs => left none hs ((hstart v (hv hs)).answered h)
    | raised failure t => exact fun hs => left (some failure) hs ((hstart v (hv hs)).raised h)
    | exhausted t =>
      intro hs
      exact hencloses.valve_cut hpending hframes hnew
        ((hstart v (hv hs)).exhausted h (hs.enterValve hframes))

theorem runPipeline_confined (hencloses : c.Encloses)
    (hproceed : (proceed start).KeepsTo (c.confined may)) {p : Pipeline} (hp : p.Confined may) :
    (runPipeline start p).KeepsTo (c.confined may) := by
  intro s
  have left {t : Session} (failure : Option ValveFailure) (hs : s.Confined may)
      (h : (c.confined may).done (s.enterPipeline p) t) :
      (t.leavePipeline failure).Confined may ∧ c.done s (t.leavePipeline failure) := by
    obtain ⟨ht, hdone⟩ := h (hs.enterPipeline hp)
    exact ⟨ht.leavePipeline failure, hencloses.walk p failure hdone⟩
  simp only [runPipeline, Run.run_bind, Run.run_update, Run.run_afterwards]
  cases h : (proceed start).run (s.enterPipeline p) with
  | answered a t => exact fun hs => left none hs (hproceed.answered h)
  | raised failure t => exact fun hs => left (some failure) hs (hproceed.raised h)
  | exhausted t => exact fun hs => hencloses.walk_cut p (hproceed.exhausted h (hs.enterPipeline hp))

end Walk

/-- A whole run, with these steps to spend, keeps to the conduct where the walk of its pipeline does. -/
def Conduct.Invokes (c : Conduct) (steps : Nat) : Prop :=
  ∀ s : Session, let walked := (Walk.runPipeline (Valve.run steps) s.pipeline).run (Walk.launched s)
    (∀ t, walked.EndsIn t → c.done (Walk.launched s) t) →
    (∀ t, walked = .exhausted t → c.cut (Walk.launched s) t) →
    let ran := (Walk.invoke (Walk.runPipeline (Valve.run steps)) : Run Raised _).run s
    (∀ t, ran.EndsIn t → c.done s t) ∧ ∀ t, ran = .exhausted t → c.cut s t

section Runs

variable {c : Conduct} {steps : Nat}

theorem Session.Confined.launched {s : Session} (h : s.Confined may) :
    (Walk.launched s).Confined may :=
  (h.change .invoke).change (.emit _ _)

theorem Walk.invoke_confined (hinvokes : c.Invokes steps)
    (hwalk : ∀ p : Pipeline, p.Confined may →
      (runPipeline (Valve.run steps) p).KeepsTo (c.confined may)) :
    (invoke (runPipeline (Valve.run steps)) : Run Raised _).KeepsTo (c.confined may) := by
  intro s
  -- The walk of the session's pipeline is kept to where the session is confined.
  have walked (hs : s.Confined may) {t : Session}
      (h : ((runPipeline (Valve.run steps) s.pipeline).run (Walk.launched s)).EndsIn t) :
      t.Confined may ∧ c.done (Walk.launched s) t :=
    (hwalk s.pipeline hs.pipeline).endsIn h hs.launched
  have ran (hs : s.Confined may) := hinvokes s (fun t h => (walked hs h).2) fun t h =>
    (hwalk s.pipeline hs.pipeline).exhausted h hs.launched
  cases h : (invoke (runPipeline (Valve.run steps)) : Run Raised _).run s with
  | answered result t =>
    refine fun hs => ⟨?_, (ran hs).1 t (by rw [h]; rfl)⟩
    have invoking := invoke_invoking (ε := Raised) (Valve.run steps) s
    rw [h] at invoking
    cases invoking with
    | refused _ => exact hs
    | completed _ hrun _ => exact (walked hs (by rw [hrun]; rfl)).1.change (.emit _ _)
    | unwound _ hrun _ =>
      exact ((walked hs (by rw [hrun]; rfl)).1.change (.log ..)).change (.emit _ _)
    | failed _ hrun =>
      exact ((walked hs (by rw [hrun]; rfl)).1.change (.log ..)).change (.emit _ _)
  | raised e t => exact absurd h invoke_ne_raised
  | exhausted t => exact fun hs => (ran hs).2 t h

theorem Conduct.confined_carries (hc : c.Allows may) (hencloses : c.Encloses)
    (hinvokes : c.Invokes steps)
    (hstart : ∀ v, v.Confined may → (Valve.run steps v).KeepsTo (c.confined may)) :
    (c.confined may).Carries may (Pipeline.Confined may) (Valve.run steps) where
  toAllows := confined_allows hc
  proceed := Walk.proceed_confined hc hencloses hstart
  walk hp := Walk.runPipeline_confined hencloses (Walk.proceed_confined hc hencloses hstart) hp
  invoke := Walk.invoke_confined hinvokes fun _ hp =>
    Walk.runPipeline_confined hencloses (Walk.proceed_confined hc hencloses hstart) hp

/-- A confined valve keeps to a conduct that allows its deeds and encloses walks, valves and runs. -/
theorem Valve.run_confined (hc : c.Allows may) (hencloses : c.Encloses)
    (hinvokes : ∀ steps, c.Invokes steps) (steps : Nat) {v : Valve} (hv : v.Confined may) :
    (run steps v).KeepsTo (c.confined may) := by
  induction steps generalizing v with
  | zero => exact (Conduct.confined_allows hc).outOfSteps
  | succ steps ih =>
    have carries := Conduct.confined_carries hc hencloses (hinvokes steps) fun v hv => ih hv
    exact carries.work steps hv.admitted

theorem Conduct.run_carries (hc : c.Allows may) (hencloses : c.Encloses)
    (hinvokes : ∀ steps, c.Invokes steps) (steps : Nat) :
    (c.confined may).Carries may (Pipeline.Confined may) (Valve.run steps) :=
  confined_carries hc hencloses (hinvokes steps) fun _ hv =>
    Valve.run_confined hc hencloses hinvokes steps hv

end Runs

end ValvePipeline
