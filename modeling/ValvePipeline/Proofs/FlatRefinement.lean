import ValvePipeline.Proofs.FlatWork
import ValvePipeline.Proofs.Matching

/-!
The nested engine against the flat interpreter. The work of a valve is its own work followed by the rest
of the pipeline, so that the nested run of a pipeline does what a loop over its valves does.
-/

set_option autoImplicit false
set_option relaxedAutoImplicit false

namespace ValvePipeline

namespace Session

def outside (s : Session) : Session :=
  { s with frames := s.frames.tail }

def Within (s t : Session) : Prop :=
  t.frames.tail = s.frames.tail ∧ t.pipeline = s.pipeline

theorem Within.trans {s t u : Session} (h : s.Within t) (h' : t.Within u) : s.Within u :=
  ⟨h'.1.trans h.1, h'.2.trans h.2⟩

theorem Alike.outside {s t : Session} (h : s.Alike t) : s.outside.Alike t.outside :=
  h.map (f := Session.outside) fun _ => rfl

theorem leaveValve_outside (i : Nat) (cursor : Option Nat) (failure : Option ValveFailure)
    (s : Session) : (s.leaveValve i cursor failure).outside.Alike s.outside := by
  obtain ⟨_, _, _, _, frames, _, _, _⟩ := s
  cases frames <;> rfl

theorem leaveValve_within (i : Nat) (cursor : Option Nat) (failure : Option ValveFailure)
    {s t : Session} (h : s.Within t) : s.Within (t.leaveValve i cursor failure) := by
  obtain ⟨_, _, _, _, frames, _, _, _⟩ := t
  cases frames <;> exact h

end Session

namespace Flat

variable {own : Valve → Run ValveFailure Flow}

theorem run_go_of_pending (i : Nat) (valves : List Valve) {t : Session}
    (h : t.pending.isSome = true) : (go own i valves).run t = .answered () t := by
  cases valves with
  | nil => rfl
  | cons valve valves => simp [go, h]

def rest (own : Valve → Run ValveFailure Flow) (i : Nat) (valves : List Valve) :
    Flow → Run ValveFailure Unit
  | .goOn => go own i valves
  | .halt => return ()

theorem run_go_of_valve (i : Nat) (valve : Valve) (valves : List Valve) {t : Session}
    {frame : Frame} {outer : List Frame} (hpending : t.pending = none)
    (hframes : t.frames = frame :: outer) :
    (go own i (valve :: valves)).run t =
      (own valve >>= rest own (i + 1) valves).run (t.enterValve frame outer i) := by
  have turn : turnTo i t = t.enterValve frame outer i := by simp [turnTo, hframes]
  simp only [go, Run.run_bind, Run.run_read, hpending, Option.isSome_none, Bool.false_eq_true,
    if_false, Run.run_update, turn]
  cases (own valve).run (t.enterValve frame outer i) with
  | answered flow u => cases flow <;> rfl
  | raised e u => rfl
  | exhausted u => rfl

/-- The nested run of the rest of a walk does what the loop does from the next place on, as far as it
can be seen from outside of the walk. -/
def Follows (steps more : Nat) : Prop :=
  ∀ (s t : Session) (f : Frame) (outer : List Frame), s.pipeline.Sequential → s.Alike t →
    s.frames = f :: outer → f.started ≤ f.next → (∀ v ∈ f.pipeline.valves, v.Sequential) →
    ((Walk.proceed (Valve.run steps)).run s).Matches
      (fun s' t' => s.Within s' ∧ s'.outside.Alike t'.outside)
      ((go (work (walk more) more) f.next (f.pipeline.valves.drop f.next)).run t)

theorem walk_matches {steps more : Nat} (h : Follows steps more) {p : Pipeline}
    (hp : p.Sequential) :
    (Walk.runPipeline (Valve.run steps) p).Matches (walk (more + 1) p) := by
  intro s t hs hst
  cases hp with
  | intro hvalves =>
    have entered : (s.enterPipeline p).Alike (t.enterPipeline p) :=
      hst.map (f := (·.enterPipeline p)) fun _ => rfl
    have inner : Ending.Matches _ _
        ((go (work (walk more) more) 0 p.valves).run (t.enterPipeline p)) :=
      h (s.enterPipeline p) (t.enterPipeline p) { pipeline := p } s.frames hs entered rfl
        (Nat.le_refl 0) hvalves
    have left (failure : Option ValveFailure) {s' t' : Session}
        (hpost : (s.enterPipeline p).Within s' ∧ s'.outside.Alike t'.outside) :
        Conduct.held.done s (s'.leavePipeline failure) ∧
          (s'.leavePipeline failure).Alike (t'.leavePipeline failure) :=
      ⟨⟨hpost.1.1, hpost.1.2⟩, hpost.2⟩
    simp only [Walk.runPipeline, walk, Run.run_bind, Run.run_update, Run.run_afterwards,
      Run.run_read]
    generalize (Walk.proceed (Valve.run steps)).run (s.enterPipeline p) = ending at inner ⊢
    generalize (go (work (walk more) more) 0 p.valves).run (t.enterPipeline p) = ending' at inner ⊢
    cases inner with
    | answered hpost =>
      have := (left none hpost).2.pending_eq
      simp only [this]
      exact .answered (left none hpost)
    | raised hpost => exact .raised (left _ hpost)
    | cut => exact .cut

theorem Follows.of_valve {steps more : Nat}
    (h : ∀ (s t : Session) (f : Frame) (outer : List Frame) (v : Valve), s.pipeline.Sequential →
      s.Alike t → s.frames = f :: outer → (∀ w ∈ f.pipeline.valves, w.Sequential) →
      v ∈ f.pipeline.valves →
      (((Valve.run steps v).afterwards (Session.leaveValve f.next f.cursor)).run
          (s.enterValve f outer f.next)).Matches
        (fun s' t' => s.Within s' ∧ s'.outside.Alike t'.outside)
        ((work (walk more) more v >>= rest (work (walk more) more) (f.next + 1)
          (f.pipeline.valves.drop (f.next + 1))).run (t.enterValve f outer f.next))) :
    Follows steps more := by
  intro s t f outer hs hst hframes hnew hvalves
  have hfresh : f.hasStarted f.next = false := (f.hasStarted_eq_false_iff _).mpr hnew
  have proceeding := Walk.proceed_proceeding (Valve.run steps) s
  generalize (Walk.proceed (Valve.run steps)).run s = ending at proceeding ⊢
  cases proceeding with
  | waits hpending =>
    rw [run_go_of_pending _ _ (hst.pending_eq ▸ hpending)]
    exact .answered ⟨⟨rfl, rfl⟩, hst.outside⟩
  | outside _ hwalks => cases hwalks.symm.trans hframes
  | again _ hwalks hstarted =>
    obtain ⟨rfl, -⟩ := List.cons.inj (hwalks.symm.trans hframes)
    cases hstarted.symm.trans hfresh
  | ends _ hwalks _ hvalve =>
    obtain ⟨rfl, -⟩ := List.cons.inj (hwalks.symm.trans hframes)
    rw [List.drop_eq_nil_of_le (List.getElem?_eq_none_iff.mp hvalve)]
    exact .answered ⟨⟨rfl, rfl⟩, hst.outside⟩
  | @starts g others v hpending hwalks _ hvalve =>
    obtain ⟨rfl, rfl⟩ := List.cons.inj (hwalks.symm.trans hframes)
    obtain ⟨hlt, hv⟩ := List.getElem?_eq_some_iff.mp hvalve
    rw [List.drop_eq_getElem_cons hlt, hv,
      run_go_of_valve _ _ _ (hst.pending_eq ▸ hpending) (hst.frames_eq ▸ hframes)]
    exact h s t g others v hs hst hframes hvalves (hv ▸ List.getElem_mem hlt)

theorem Follows.zero (more : Nat) : Follows 0 more :=
  .of_valve fun _ _ _ _ _ _ _ _ _ _ => .cut

/-- One more step of the nested run: the next valve does its own work, as in the loop, and then the
rest of the walk is run from inside it. -/
theorem Follows.succ {steps more : Nat} (hsteps : steps ≤ more + 1)
    (h : Follows steps (more + 1)) (hwalk : Follows steps more) :
    Follows (steps + 1) (more + 1) := by
  refine .of_valve fun s t f outer v hs hst hframes hvalves hv => ?_
  have hseq : v.Sequential := hvalves v hv
  rw [show Valve.run (steps + 1) v = v.work (Valve.run steps) steps from rfl,
    Valve.work_eq _ steps hseq, Run.run_afterwards, Run.run_bind, Run.run_bind]
  have entered : (s.enterValve f outer f.next).Alike (t.enterValve f outer f.next) :=
    hst.map (f := (·.enterValve f outer f.next)) fun _ => rfl
  have first := work_matches (fun p hp => walk_matches hwalk hp) hsteps hseq
    (s.enterValve f outer f.next) (t.enterValve f outer f.next) hs entered
  -- when the valve has ended the cursor goes back, which cannot be seen from outside
  have left (failure : Option ValveFailure) {s' t' : Session} (hwithin : s.Within s')
      (hpost : s'.outside.Alike t'.outside) :
      s.Within (s'.leaveValve f.next f.cursor failure) ∧
        (s'.leaveValve f.next f.cursor failure).outside.Alike t'.outside :=
    ⟨Session.leaveValve_within _ _ _ hwithin, (Session.leaveValve_outside ..).trans hpost⟩
  generalize (work (Walk.runPipeline (Valve.run steps)) steps v).run
    (s.enterValve f outer f.next) = ending at first ⊢
  generalize (work (walk (more + 1)) (more + 1) v).run
    (t.enterValve f outer f.next) = ending' at first ⊢
  cases first with
  | @answered flow s' t' hpost =>
    obtain ⟨⟨hkept, hpipeline⟩, halike⟩ := hpost
    have hwithin : s.Within s' := ⟨by rw [hkept, hframes]; rfl, hpipeline⟩
    cases flow with
    | halt => exact .answered (left none hwithin halike.outside)
    | goOn =>
      have later : Ending.Matches _ _
          ((go (work (walk (more + 1)) (more + 1)) (f.next + 1)
            (f.pipeline.valves.drop (f.next + 1))).run t') :=
        h s' t' { f with cursor := some f.next, reached := some f.next } outer
          (hpipeline ▸ hs) halike hkept (Nat.le_refl _) hvalves
      show Ending.Matches _
        (((Walk.proceed (Valve.run steps)).afterwards
          (Session.leaveValve f.next f.cursor)).run s')
        ((go (work (walk (more + 1)) (more + 1)) (f.next + 1)
          (f.pipeline.valves.drop (f.next + 1))).run t')
      rw [Run.run_afterwards]
      generalize (Walk.proceed (Valve.run steps)).run s' = ending at later ⊢
      generalize (go (work (walk (more + 1)) (more + 1)) (f.next + 1)
        (f.pipeline.valves.drop (f.next + 1))).run t' = ending' at later ⊢
      cases later with
      | answered hpost => exact .answered (left none (hwithin.trans hpost.1) hpost.2)
      | raised hpost => exact .raised (left _ (hwithin.trans hpost.1) hpost.2)
      | cut => exact .cut
  | raised hpost =>
    obtain ⟨⟨hkept, hpipeline⟩, halike⟩ := hpost
    exact .raised (left _ ⟨by rw [hkept, hframes]; rfl, hpipeline⟩ halike.outside)
  | cut => exact .cut

/-- With at least its allowance of steps the loop does what the nested run does. -/
theorem follows {steps more : Nat} (h : steps ≤ more) : Follows steps more := by
  induction steps generalizing more with
  | zero => exact .zero more
  | succ steps ih =>
    obtain _ | more := more
    · cases h
    have hle := Nat.le_of_succ_le_succ h
    exact .succ (Nat.le_succ_of_le hle) (ih (Nat.le_succ_of_le hle)) (ih hle)

/-- The nested run is a sequential one. Where it has come to an end, of the whole pipeline of a session
or of any other pipeline, the loop over the valves comes to the same end, with the same journal,
attributes, events and pending signal. -/
theorem refinement {s : Session} (hs : s.pipeline.Sequential) {steps more : Nat}
    (hmore : steps < more) :
    (∀ result t, s.invoke steps = .answered result t →
      ∃ u, s.invokeFlat more = .answered result u ∧ t.Alike u) ∧
    ∀ p : Pipeline, p.Sequential →
      (∀ ended t, (Walk.runPipeline (Valve.run steps) p).run s = .answered ended t →
        ∃ u, (walk more p).run s = .answered ended u ∧ t.Alike u) ∧
      ∀ failure t, (Walk.runPipeline (Valve.run steps) p).run s = .raised failure t →
        ∃ u, (walk more p).run s = .raised failure u ∧ t.Alike u := by
  obtain _ | more := more
  · cases hmore
  have hwalk (p : Pipeline) (hp : p.Sequential) :
      (Walk.runPipeline (Valve.run steps) p).Matches (walk (more + 1) p) :=
    walk_matches (follows (Nat.le_of_lt_succ hmore)) hp
  constructor
  · intro result t ht
    have same := Walk.invoke_matches (ε := Empty) hwalk s s hs (.refl s)
    rw [show (Walk.invoke (Walk.runPipeline (Valve.run steps))).run s = .answered result t
      from ht] at same
    obtain ⟨u, hu, -, halike⟩ := same.of_answered
    exact ⟨u, hu, halike⟩
  · intro p hp
    have same := hwalk p hp s s hs (.refl s)
    constructor
    · intro ended t ht
      rw [ht] at same
      obtain ⟨u, hu, -, halike⟩ := same.of_answered
      exact ⟨u, hu, halike⟩
    · intro failure t ht
      rw [ht] at same
      obtain ⟨u, hu, -, halike⟩ := same.of_raised
      exact ⟨u, hu, halike⟩

private def innerScope : Pipeline :=
  ⟨some "inner", [.breakWith (.level 1), .passThrough]⟩

private def twoScopes : Pipeline :=
  ⟨none, [.scripted "peek" (.call .depth fun _ => .note "peeked" (.finish .goOn)),
    .sub innerScope, .failing "never" "no"]⟩

private theorem twoScopes_sequential : twoScopes.Sequential := by
  have leaf {v : Valve} (hv : ∀ name script, v ≠ .scripted name script)
      (hchildren : v.children = []) : v.Sequential :=
    .builtIn hv (by simp [hchildren])
  have inner : innerScope.Sequential := by
    refine .intro fun v hv => ?_
    simp only [innerScope, List.mem_cons, List.not_mem_nil, or_false] at hv
    rcases hv with rfl | rfl
    · exact leaf nofun rfl
    · exact leaf nofun rfl
  refine .intro fun v hv => ?_
  simp only [twoScopes, List.mem_cons, List.not_mem_nil, or_false] at hv
  rcases hv with rfl | rfl | rfl
  · exact .scripted (.call rfl nofun fun _ => .note .finish)
  · refine .builtIn nofun fun p hp => ?_
    obtain rfl : p = innerScope := List.mem_singleton.mp hp
    exact inner
  · exact leaf nofun rfl

theorem refinement_of_twoScopes :
    ∃ u, (Session.start twoScopes .collect {}).invokeFlat 6 =
        .answered (.ok (.unwound (.level 0))) u ∧
      ((Session.start twoScopes .collect {}).invoke 5).session.Alike u :=
  (refinement (s := Session.start twoScopes .collect {}) twoScopes_sequential (Nat.lt_succ_self 5)).1
    _ _ rfl

end Flat

end ValvePipeline
