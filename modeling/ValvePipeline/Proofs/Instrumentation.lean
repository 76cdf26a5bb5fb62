import ValvePipeline.Proofs.Labels
import ValvePipeline.Proofs.Probes

/-!
Instrumented pipelines. Probes may be put in anywhere, in a pipeline and in those nested in it. They move the
places of the other valves, but a run takes no notice: it ends as it would without them, and all that it
leaves besides is what the probes log and record.
-/

set_option autoImplicit false
set_option relaxedAutoImplicit false

namespace ValvePipeline

mutual

/-- The second pipeline is the first one with such probes put in, between its valves and in the pipelines
nested in it. No valve of either is scripted. -/
inductive Pipeline.Instrumented (probes : Valve → Prop) : Pipeline → Pipeline → Prop
  | intro {label : Option String} {vs ws : List Valve} : Valve.Instrumented probes vs ws →
    Pipeline.Instrumented probes ⟨label, vs⟩ ⟨label, ws⟩

inductive Valve.Instrumented (probes : Valve → Prop) : List Valve → List Valve → Prop
  | nil : Valve.Instrumented probes [] []
  | both {v w : Valve} {vs ws : List Valve} : Valve.Like (Pipeline.Instrumented probes) v w →
    Valve.Instrumented probes vs ws → Valve.Instrumented probes (v :: vs) (w :: ws)
  | put {w : Valve} {vs ws : List Valve} : probes w → Valve.Instrumented probes vs ws →
    Valve.Instrumented probes vs (w :: ws)

end

theorem Pipeline.Instrumented.label_eq {probes : Valve → Prop} {p q : Pipeline}
    (h : p.Instrumented probes q) : q.label = p.label := by
  cases h
  rfl

namespace Session

/-- The innermost walk has started some of its valves, and these are left. -/
def HasLeft (s : Session) (valves : List Valve) : Prop :=
  ∃ f outer, s.frames = f :: outer ∧ f.started ≤ f.next ∧ f.pipeline.valves.drop f.next = valves

theorem hasLeft_enterPipeline (s : Session) (p : Pipeline) :
    (s.enterPipeline p).HasLeft p.valves :=
  ⟨{ pipeline := p }, s.frames, rfl, Nat.le_refl 0, rfl⟩

theorem HasLeft.of_frames_eq {s t : Session} {valves : List Valve} (h : s.HasLeft valves)
    (hframes : t.frames = s.frames) : t.HasLeft valves := by
  rwa [HasLeft, hframes]

end Session

namespace Walk

variable {s : Session} {v : Valve} {valves : List Valve}

theorem run_proceed_of_left_nil (start : Starter) (h : s.HasLeft []) :
    (proceed start).run s = .answered () s := by
  obtain ⟨f, outer, hframes, hfresh, hleft⟩ := h
  cases hpending : s.pending with
  | some signal => exact run_proceed_of_pending start (by rw [hpending]; rfl)
  | none =>
    refine run_proceed_of_end start hpending hframes ((f.hasStarted_eq_false_iff _).mpr hfresh) ?_
    exact List.getElem?_eq_none_iff.mpr (List.drop_eq_nil_iff.mp hleft)

theorem run_proceed_of_left_cons (start : Starter) (hpending : s.pending = none)
    (h : s.HasLeft (v :: valves)) : ∃ f outer, s.frames = f :: outer ∧
      (s.enterValve f outer f.next).HasLeft valves ∧ (proceed start).run s =
        ((start v).afterwards (Session.leaveValve f.next f.cursor)).run
          (s.enterValve f outer f.next) := by
  obtain ⟨f, outer, hframes, hfresh, hleft⟩ := h
  have hvalve : f.pipeline.valves[f.next]? = some v := by
    rw [← List.head?_drop, hleft]
    rfl
  have hothers : f.pipeline.valves.drop (f.next + 1) = valves := by
    rw [← List.tail_drop, hleft]
    rfl
  refine ⟨f, outer, hframes, ⟨_, outer, rfl, Nat.le_refl _, hothers⟩, ?_⟩
  exact run_proceed_of_valve start hpending hframes ((f.hasStarted_eq_false_iff _).mpr hfresh) hvalve

end Walk

def Pipeline.WidthAtMost (width : Nat) (p : Pipeline) : Prop :=
  ∀ q, p.Nests q → q.valves.length ≤ width

theorem Pipeline.WidthAtMost.child {width : Nat} {p : Pipeline} (h : p.WidthAtMost width) {v : Valve}
    (hv : v ∈ p.valves) {q : Pipeline} (hq : q ∈ v.children) : q.WidthAtMost width :=
  fun r hr => h r (.head ⟨v, hv, hq⟩ hr)

theorem Pipeline.exists_widthAtMost (p : Pipeline) : ∃ width, p.WidthAtMost width := by
  refine ⟨sizeOf p, fun q hq => ?_⟩
  have hsize : sizeOf q ≤ sizeOf p := by
    induction hq with
    | refl => exact Nat.le_refl _
    | tail _ hchild ih => exact Nat.le_trans (Nat.le_of_lt hchild.sizeOf_lt) ih
  have hlength (valves : List Valve) : valves.length ≤ sizeOf valves := by
    induction valves with
    | nil => exact Nat.zero_le _
    | cons v valves ih =>
      rw [List.length_cons, List.cons.sizeOf_spec]
      omega
  obtain ⟨label, valves⟩ := q
  rw [Pipeline.mk.sizeOf_spec] at hsize
  have hvalves : valves.length ≤ sizeOf valves := hlength valves
  show valves.length ≤ sizeOf p
  omega

namespace Valve

/-- With one step more a valve does its own work, and then the rest of its walk runs. -/
theorem run_succ_eq (steps : Nat) {v : Valve} (hv : ∀ name script, v ≠ .scripted name script) :
    run (steps + 1) v =
      Flat.work.own (Walk.runPipeline (run steps)) steps v >>= fun _ => Walk.proceed (run steps) :=
  work_eq_own (run steps) steps hv

theorem own_steady (steps : Nat) (v : Valve) :
    (Flat.work.own (Walk.runPipeline (run steps)) steps v).KeepsTo .steady :=
  Flat.own_keepsTo Conduct.steady_continues.toAllows steps (fun _ _ => trivial) fun p _ =>
    Walk.runPipeline_steady (run_keepsTo Conduct.balanced_covers steps) p

end Valve

theorem Session.Shallow.valves {R : Session → Session → Prop} (hR : Shallow R) {v w : Valve}
    (hv : ∀ name script, v ≠ .scripted name script) (hw : ∀ name script, w ≠ .scripted name script)
    {steps more : Nat} {s t : Session}
    (howns : ((Flat.work.own (Walk.runPipeline (Valve.run steps)) steps v).run s).Matches R
      ((Flat.work.own (Walk.runPipeline (Valve.run more)) more w).run t))
    (hrests : ∀ u u' : Session, u.frames = s.frames → u'.frames = t.frames → R u u' →
      ((Walk.proceed (Valve.run steps)).run u).Matches R ((Walk.proceed (Valve.run more)).run u'))
    (i j : Nat) (cursor cursor' : Option Nat) :
    (((Valve.run (steps + 1) v).afterwards (Session.leaveValve i cursor)).run s).Matches R
      (((Valve.run (more + 1) w).afterwards (Session.leaveValve j cursor')).run t) := by
  refine hR.leavesValve ?_ i j cursor cursor'
  have first := Valve.own_steady steps v s
  have second := Valve.own_steady more w t
  rw [Valve.run_succ_eq steps hv, Valve.run_succ_eq more hw, Run.run_bind, Run.run_bind]
  generalize (Flat.work.own (Walk.runPipeline (Valve.run steps)) steps v).run s = ending
    at howns first ⊢
  generalize (Flat.work.own (Walk.runPipeline (Valve.run more)) more w).run t = ending'
    at howns second ⊢
  cases howns with
  | answered hafter => exact hrests _ _ first second hafter
  | raised hafter => exact .raised hafter
  | cut => exact .cut

section

variable {probes : Valve → Prop} {width : Nat}

/-- With this allowance of steps a run with probes keeps up with every run without them that needs no
more than its share: each valve that the latter starts costs it one step, and the former may have put a
whole pipeline of probes beside it. -/
def KeepsUp (probes : Valve → Prop) (width more : Nat) : Prop :=
  ∀ (steps : Nat) (vs ws : List Valve) (s t : Session),
    steps * (width + 1) + ws.length ≤ more → Valve.Instrumented probes vs ws →
    (∀ w ∈ ws, ∀ q ∈ w.children, q.WidthAtMost width) → s.HasLeft vs → t.HasLeft ws →
    s.Observed probes t → ((Walk.proceed (Valve.run steps)).run s).Matches (Session.Observed probes)
      ((Walk.proceed (Valve.run more)).run t)

namespace KeepsUp

variable {more steps : Nat}

theorem walk (h : KeepsUp probes width more) {p q : Pipeline} (hpq : p.Instrumented probes q)
    (hq : q.WidthAtMost width) (hmore : steps * (width + 1) + width ≤ more) :
    (Walk.runPipeline (Valve.run steps) p).Along (Session.Observed probes)
      (Walk.runPipeline (Valve.run more) q) := by
  intro s t hst
  cases hpq with
  | @intro label vs ws hvalves =>
    have hwidth : ws.length ≤ width := hq _ .refl
    have shallow := Session.Observed.shallow probes
    exact shallow.runPipeline (h steps vs ws _ _ (by omega) hvalves (fun w hw r hr => hq.child hw hr)
      (s.hasLeft_enterPipeline _) (t.hasLeft_enterPipeline _) (shallow.enterPipeline hst _ _))

theorem put (h : KeepsUp probes width more) (hprobes : ∀ v, probes v → v.isProbe = true) {w : Valve}
    {vs ws : List Valve} {s t : Session} (hmore : steps * (width + 1) + ws.length ≤ more)
    (hw : probes w) (hvalves : Valve.Instrumented probes vs ws)
    (hwidth : ∀ v ∈ ws, ∀ q ∈ v.children, q.WidthAtMost width) (hs : s.HasLeft vs)
    (ht : t.HasLeft (w :: ws)) (hpending : t.pending = none) (hst : s.Observed probes t) :
    ((Walk.proceed (Valve.run steps)).run s).Matches (Session.Observed probes)
      ((Walk.proceed (Valve.run (more + 1))).run t) := by
  obtain ⟨g, others, hframes, hleft, hrun⟩ :=
    Walk.run_proceed_of_left_cons (Valve.run (more + 1)) hpending ht
  have entered := hst.addEnterValve hframes g.next
  obtain ⟨u, hsu, hu, hwork⟩ := entered.probe hw (hprobes w hw) (Valve.run more) more
  have later := h steps vs ws s u hmore hvalves hwidth hs (hleft.of_frames_eq hu) hsu
  rw [hrun, Run.run_afterwards, show Valve.run (more + 1) w = w.work (Valve.run more) more from rfl,
    hwork]
  generalize (Walk.proceed (Valve.run steps)).run s = ending,
    (Walk.proceed (Valve.run more)).run u = ending' at later ⊢
  cases later with
  | answered hafter => exact .answered (hafter.addLeaveValve ..)
  | raised hafter => exact .raised (hafter.addLeaveValve ..)
  | cut => exact .cut

theorem both (h : KeepsUp probes width more) {v w : Valve} {vs ws : List Valve} {s t : Session}
    (hmore : steps * (width + 1) + width ≤ more)
    (hlength : steps * (width + 1) + ws.length ≤ more)
    (hvw : v.Like (Pipeline.Instrumented probes) w) (hvalves : Valve.Instrumented probes vs ws)
    (hwidth : ∀ v ∈ w :: ws, ∀ q ∈ v.children, q.WidthAtMost width) (hs : s.HasLeft (v :: vs))
    (ht : t.HasLeft (w :: ws)) (hpending : s.pending = none) (hst : s.Observed probes t) :
    ((Walk.proceed (Valve.run (steps + 1))).run s).Matches (Session.Observed probes)
      ((Walk.proceed (Valve.run (more + 1))).run t) := by
  obtain ⟨f, outer, hsframes, hsleft, hsrun⟩ :=
    Walk.run_proceed_of_left_cons (Valve.run (steps + 1)) hpending hs
  obtain ⟨g, others, htframes, htleft, htrun⟩ :=
    Walk.run_proceed_of_left_cons (Valve.run (more + 1)) (hst.pending.trans hpending) ht
  have shallow := Session.Observed.shallow probes
  have entered := shallow.enterValve hst hsframes htframes f.next g.next
  have walks : v.Like (Parallel.Walks (fun _ _ x y => x.Along (Session.Observed probes) y)
      (Walk.runPipeline (Valve.run steps)) (Walk.runPipeline (Valve.run more))) w := by
    refine hvw.imp fun p q hq hpq => ?_
    exact ⟨hpq.label_eq, h.walk hpq (hwidth w List.mem_cons_self q hq) hmore⟩
  have hshare : steps ≤ steps * (width + 1) := Nat.le_mul_of_pos_right steps (Nat.succ_pos width)
  have hsteps : steps ≤ more := by omega
  rw [hsrun, htrun]
  refine shallow.valves hvw.builtIn.1 hvw.builtIn.2 (shallow.parallel.own walks hsteps _ _ entered)
    (fun u u' hu hu' hafter => ?_) ..
  exact h steps vs ws u u' hlength hvalves (fun x hx => hwidth x (List.mem_cons_of_mem w hx))
    (hsleft.of_frames_eq hu) (htleft.of_frames_eq hu') hafter

end KeepsUp

/-- With every allowance the second run keeps up, by induction on what it has: a probe costs one step of
it, and a valve of both runs a whole share. -/
theorem keepsUp (hprobes : ∀ v, probes v → v.isProbe = true) (width more : Nat) :
    KeepsUp probes width more := by
  induction more using Nat.strongRecOn with
  | ind more ih =>
    intro steps vs ws s t hmore hvalves hwidth hs ht hst
    cases hpending : s.pending with
    | some signal =>
      have hs' : s.pending.isSome = true := by rw [hpending]; rfl
      have ht' : t.pending.isSome = true := by rw [hst.pending, hpending]; rfl
      rw [Walk.run_proceed_of_pending _ hs', Walk.run_proceed_of_pending _ ht']
      exact .answered hst
    | none =>
      cases hvalves with
      | nil =>
        rw [Walk.run_proceed_of_left_nil _ hs, Walk.run_proceed_of_left_nil _ ht]
        exact .answered hst
      | @put w _ ws hw hvalves =>
        rw [List.length_cons] at hmore
        obtain ⟨fewer, rfl⟩ : ∃ fewer, more = fewer + 1 := ⟨more - 1, by omega⟩
        exact (ih fewer (Nat.lt_succ_self fewer)).put hprobes (by omega) hw hvalves
          (fun v hv => hwidth v (List.mem_cons_of_mem w hv)) hs ht (hst.pending.trans hpending) hst
      | @both v w vs ws hvw hvalves =>
        cases steps with
        | zero =>
          obtain ⟨f, outer, -, -, hrun⟩ := Walk.run_proceed_of_left_cons (Valve.run 0) hpending hs
          rw [hrun]
          exact .cut
        | succ steps =>
          rw [List.length_cons, Nat.succ_mul] at hmore
          obtain ⟨fewer, rfl⟩ : ∃ fewer, more = fewer + 1 := ⟨more - 1, by omega⟩
          exact (ih fewer (Nat.lt_succ_self fewer)).both (by omega) (by omega) hvw hvalves hwidth hs ht
            hpending hst

end

/-- What a run comes to, it comes to with probes put in anywhere, if only its allowance of steps is large
enough: the same result, pending signal, attributes, conditions asked and events; and the journal holds
besides only entries of the probes. -/
theorem instrumentation_transparent {probes : Valve → Prop}
    (hprobes : ∀ v, probes v → v.isProbe = true) {s : Session} {q : Pipeline}
    (hq : s.pipeline.Instrumented probes q) {steps : Nat} {result : Except RunFailure Outcome}
    {t : Session} (hrun : s.invoke steps = .answered result t) :
    ∃ enough, ∀ more, enough ≤ more → ∃ u,
      ({ s with pipeline := q } : Session).invoke more = .answered result u ∧
      u.pending = t.pending ∧ u.attributes = t.attributes ∧ u.asked = t.asked ∧
      u.transcript.events = t.transcript.events ∧
      Woven (ProbeEntry probes) t.transcript.journal.toList u.transcript.journal.toList := by
  obtain ⟨width, hwidth⟩ := q.exists_widthAtMost
  have hst : s.Observed probes { s with pipeline := q } :=
    { identity := rfl
      label := hq.label_eq
      attributes := rfl
      pending := rfl
      depth := rfl
      invoked := rfl
      sink := rfl
      events := rfl
      journal := .refl _ _
      asked := rfl }
  refine ⟨steps * (width + 1) + width, fun more hmore => ?_⟩
  have walks := (keepsUp hprobes width more).walk hq hwidth hmore
  have runs := (Session.Observed.shallow probes).invokes (ε := Empty) hst walks
  rw [show (Walk.invoke (Walk.runPipeline (Valve.run steps))).run s = .answered result t from hrun]
    at runs
  obtain ⟨u, hu, hafter⟩ := runs.of_answered
  exact ⟨u, hu, hafter.pending, hafter.attributes, hafter.asked, hafter.events, hafter.journal⟩

private def bareRun : Pipeline :=
  ⟨none, [.guarded (some ⟨none, [.record "tried" none, .failing "bad" "no"]⟩)
      (some ⟨some "handler", [.breakWith (.level 0), .record "never" none]⟩) none {},
    .loop ⟨none, [.record "turn" none, .breakIf (.isSet "done") (.level 0),
      .setAttribute "done" .null]⟩ {},
    .exit, .record "last" none]⟩

private def probedRun : Pipeline :=
  ⟨none, [.record "probe" none, .guarded
      (some ⟨none, [.record "tried" none, .passThrough, .failing "bad" "no", .record "probe" none]⟩)
      (some ⟨some "handler", [.record "probe" (some "exception"), .breakWith (.level 0),
        .record "never" none, .passThrough]⟩) none {},
    .loop ⟨none, [.log .info "turn {loopCount}", .record "turn" none, .record "probe" (some "loopCount"),
      .breakIf (.isSet "done") (.level 0), .setAttribute "done" .null]⟩ {},
    .passThrough, .exit, .record "last" none, .record "probe" none]⟩

private def isOurs : Valve → Prop
  | .record name _ => name = "probe"
  | v => v.isProbe = true

private theorem probedRun_instrumented : bareRun.Instrumented isOurs probedRun := by
  have leaf {v : Valve} (h : v.isLeaf = true) {vs ws : List Valve}
      (hrest : Valve.Instrumented isOurs vs ws) : Valve.Instrumented isOurs (v :: vs) (v :: ws) :=
    .both (.leaf h) hrest
  refine .intro (.put rfl (.both (.guarded (.some ?_) (.some ?_) .none) (.both (.loop ?_) ?_)))
  · exact .intro (leaf rfl (.put rfl (leaf rfl (.put rfl .nil))))
  · exact .intro (.put rfl (leaf rfl (leaf rfl (.put rfl .nil))))
  · exact .intro (.put rfl (leaf rfl (.put rfl (leaf rfl (leaf rfl .nil)))))
  · exact .put rfl (leaf rfl (leaf rfl (.put rfl .nil)))

theorem instrumentation_transparent_of_probes :
    let s := Session.start bareRun .collect {}
    let t := (s.invoke 12).session
    t.transcript.journal = #["tried", "turn", "turn"] ∧
    ∃ enough, ∀ more, enough ≤ more → ∃ u,
      (Session.start probedRun .collect {}).invoke more = .answered (.ok (.unwound .exit)) u ∧
      u.pending = t.pending ∧ u.attributes = t.attributes ∧ u.asked = t.asked ∧
      u.transcript.events = t.transcript.events ∧
      Woven (ProbeEntry isOurs) t.transcript.journal.toList u.transcript.journal.toList := by
  have probes (v : Valve) (hv : isOurs v) : v.isProbe = true := by
    cases v with
    | record name counter => rfl
    | _ => exact hv
  have ran : (Session.start bareRun .collect {}).invoke 12 = .answered (.ok (.unwound .exit))
      ((Session.start bareRun .collect {}).invoke 12).session := rfl
  refine ⟨rfl, ?_⟩
  exact instrumentation_transparent probes (s := Session.start bareRun .collect {})
    probedRun_instrumented ran

end ValvePipeline
