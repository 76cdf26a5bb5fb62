import ValvePipeline.Proofs.FlatRefinement
import ValvePipeline.Proofs.Iterations
import ValvePipeline.Proofs.UnwindingBlocks

/-!
The law of unwinding. In a run of built-in valves every break request stops as many scopes as it
counts, or all up to the one that it names, and the walk around them goes on with its next valve; a
request that counts further, or names no scope, ends the run with what is left of it.
-/

set_option autoImplicit false
set_option relaxedAutoImplicit false

namespace ValvePipeline

def Passing (outer : List Frame) (block : Pipeline) (place : Nat) (pending : Option Signal) : Fate :=
  fun before m signal after =>
    ∃ scopes g sofar leave, m.frames = scopes ++ g :: outer ∧ g.pipeline = block ∧
      place ≤ g.next ∧ signal.Survives (labels scopes) ∧
      pending = some (signal.residue scopes.length) ∧ Unwinds before scopes (g :: outer) sofar ∧
      leave.map (·.mark) = g.leavingTo place ∧ after = sofar ++ leave

def StartsNext (f : Frame) (outer : List Frame) (moments : List Moment) : Prop :=
  ∃ r rest, moments = r :: rest ∧ f.next < f.pipeline.valves.length ∧
    r.mark = .enterValve f.next ∧ r.frames = f.begun :: outer

inductive Ending.Proceeded (f : Frame) (outer : List Frame) (s : Session) :
    Ending ValveFailure Unit → Prop
  | idle : f.pipeline.valves.length ≤ f.next → Proceeded f outer s (.answered () s)
  | answered {t : Session} {moments : List Moment} : t.trail = s.trail ++ moments →
    StartsNext f outer moments →
    Fates (DoneOr (Passing outer f.pipeline f.next t.pending)) s.trail moments →
    Proceeded f outer s (.answered () t)
  | raised {failure : ValveFailure} {t : Session} {moments : List Moment} :
    t.trail = s.trail ++ moments → StartsNext f outer moments → Fates Done s.trail moments →
    Proceeded f outer s (.raised failure t)
  | exhausted {t : Session} {moments : List Moment} : t.trail = s.trail ++ moments →
    StartsNext f outer moments → Fates (DoneOr CutShort) s.trail moments →
    Proceeded f outer s (.exhausted t)

def Proceeds (steps : Nat) : Prop :=
  ∀ (s : Session) (f : Frame) (outer : List Frame), s.pending = none → s.frames = f :: outer →
    f.started ≤ f.next → f.pipeline.BuiltIn →
    ((Walk.proceed (Valve.run steps)).run s).Proceeded f outer s

namespace Passing

variable {outer : List Frame} {block : Pipeline} {place : Nat} {pending : Option Signal}
  {before : List Moment} {m r : Moment} {signal : Signal} {after : List Moment}

theorem of_open {g : Frame} (h : Open (g :: outer) pending before m signal after)
    (hpending : pending.isSome = true) :
    Passing outer g.pipeline g.next pending before m signal after := by
  obtain ⟨scopes, hm, hleft, hunwinds⟩ := h
  cases hleft with
  | passed hsurvives =>
    exact ⟨scopes, g, after, [], hm, rfl, Nat.le_refl _, hsurvives, rfl, hunwinds,
      g.leavingTo_next.symm, (List.append_nil _).symm⟩
  | stopped => cases hpending

theorem leaveValve (h : Passing outer block (place + 1) pending before m signal after)
    (hr : r.mark = .leaveValve place none) :
    Passing outer block place pending before m signal (after ++ [r]) := by
  obtain ⟨scopes, g, sofar, leave, hm, hg, hplace, hsurvives, rfl, hunwinds, hleave, rfl⟩ := h
  refine ⟨scopes, g, sofar, leave ++ [r], hm, hg, Nat.le_of_succ_le hplace, hsurvives, rfl,
    hunwinds, ?_, List.append_assoc ..⟩
  rw [List.map_append, hleave, List.map_singleton, hr, Frame.leavingTo_concat hplace]

theorem leavePipeline (h : Passing outer block 0 pending before m signal after)
    (hr : r.mark = .leavePipeline none) {left : Signal} (hpending : pending = some left) :
    Leaving (Trail.ended outer.length before) outer block left before m signal (after ++ [r]) := by
  obtain ⟨scopes, g, sofar, leave, hm, hg, -, hsurvives, rfl, hunwinds, hleave, rfl⟩ := h
  refine ⟨rfl, scopes, g, sofar, leave ++ [r], hm, hg, hsurvives, (Option.some.inj hpending).symm,
    hunwinds, ?_, List.append_assoc ..⟩
  rw [List.map_append, hleave, List.map_singleton, hr]
  rfl

end Passing

theorem Open.resumed {g : Frame} {outer : List Frame} {before : List Moment} {m : Moment}
    {signal : Signal} {after rest : List Moment} (h : Open (g :: outer) none before m signal after)
    (hrest : Resumes g outer rest) : Done before m signal (after ++ rest) := by
  obtain ⟨scopes, hm, hleft, hunwinds⟩ := h
  refine .inl ⟨scopes, g, outer, after, rest, hm, ?_, rfl, hunwinds, hrest⟩
  cases hleft with
  | @stopped scopes f hsurvives habsorb =>
    have hlength : (labels scopes).length = scopes.length := List.length_map _
    rw [← hlength] at habsorb
    have hreach := hsurvives.reach_eq (labels (g :: outer)) habsorb
    rw [hm]
    simpa [labels] using hreach

theorem StartsNext.resumes {f : Frame} {outer : List Frame} {moments : List Moment}
    (h : StartsNext f outer moments) : Resumes f outer moments := by
  obtain ⟨r, rest, rfl, hlt, hmark, hframes⟩ := h
  exact .next hlt hmark hframes

private structure Begun (f : Frame) (outer : List Frame) (s s₁ : Session) (enter : Moment) :
    Prop where
  trail : s₁.trail = s.trail ++ [enter]
  lt : f.next < f.pipeline.valves.length
  mark : enter.mark = .enterValve f.next
  frames : enter.frames = f.begun :: outer

namespace Begun

variable {f : Frame} {outer : List Frame} {s s₁ t : Session} {enter : Moment}
  {moments : List Moment}

private theorem of_enterValve (s : Session) {f : Frame} (outer : List Frame)
    (hlt : f.next < f.pipeline.valves.length) :
    ∃ enter, Begun f outer s (s.enterValve f outer f.next) enter :=
  ⟨_, Session.trail_mark _ _, hlt, rfl, rfl⟩

private theorem mark_ne (h : Begun f outer s s₁ enter) (signal : Signal) :
    enter.mark ≠ .request signal := by
  rw [h.mark]
  intro hrequest
  cases hrequest

private theorem startsNext (h : Begun f outer s s₁ enter) (moments : List Moment) :
    StartsNext f outer (enter :: moments) :=
  ⟨enter, moments, rfl, h.lt, h.mark, h.frames⟩

private theorem trail_eq (h : Begun f outer s s₁ enter) (ht : t.trail = s₁.trail ++ moments) :
    t.trail = s.trail ++ enter :: moments := by
  rw [ht, h.trail, List.append_assoc, List.singleton_append]

private theorem fates {fate : Fate} (h : Begun f outer s s₁ enter)
    (hfates : Fates fate s₁.trail moments) : Fates fate s.trail (enter :: moments) := by
  rw [h.trail] at hfates
  exact .cons h.mark_ne hfates

private theorem leaveValve (h : Begun f outer s s₁ enter) (failure : Option ValveFailure)
    (ht : t.trail = s₁.trail ++ moments) : ∃ leave : Moment,
      (t.leaveValve f.next f.cursor failure).trail = s.trail ++ enter :: (moments ++ [leave]) ∧
        leave.frames = (t.leaveValve f.next f.cursor failure).frames ∧
        leave.mark = .leaveValve f.next failure ∧ ∀ signal, leave.mark ≠ .request signal := by
  refine ⟨⟨_, (t.leaveValve f.next f.cursor failure).frames, t.pending⟩, ?_, rfl, rfl, ?_⟩
  · rw [Session.trail_leaveValve, h.trail_eq ht, List.append_assoc, List.cons_append]
  · intro signal hrequest
    cases hrequest

private theorem proceeded_of_pending (h : Begun f outer s s₁ enter) {steps : Nat}
    {signal : Signal} (htrail : t.trail = s₁.trail ++ moments) (hpending : t.pending = some signal)
    (hfates : Fates (DoneOr (Open (f.begun :: outer) t.pending)) s₁.trail moments) :
    (((Walk.proceed (Valve.run steps)).afterwards
      (Session.leaveValve f.next f.cursor)).run t).Proceeded f outer s := by
  have hsome : t.pending.isSome = true := by rw [hpending, Option.isSome_some]
  obtain ⟨leave, hleft, -, hleave, hrequest⟩ := h.leaveValve none htrail
  rw [Run.run_afterwards, Walk.run_proceed_of_pending _ hsome]
  refine .answered hleft (h.startsNext _) (h.fates (hfates.or_concat hrequest ?_))
  intro before m sig after hopen
  have hpassing := Passing.of_open hopen hsome
  exact hpassing.leaveValve hleave

/-- Where there is no next valve, the running one is left. -/
private theorem resumes_of_last {leave : Moment} (hle : f.begun.pipeline.valves.length ≤ f.begun.next)
    (hframes : t.frames = f.begun :: outer)
    (hleave : leave.frames = (t.leaveValve f.next f.cursor none).frames)
    (hmark : leave.mark = .leaveValve f.next none) : Resumes f.begun outer [leave] := by
  rw [Session.frames_leaveValve _ _ _ hframes] at hleave
  exact .last hle (Frame.next_of_cursor rfl) hmark hleave rfl

private theorem proceeded_of_none (h : Begun f outer s s₁ enter) {steps : Nat}
    (hrest : Proceeds steps) (hbuilt : f.pipeline.BuiltIn)
    (htrail : t.trail = s₁.trail ++ moments) (hframes : t.frames = f.begun :: outer)
    (hpending : t.pending = none)
    (hfates : Fates (DoneOr (Open (f.begun :: outer) t.pending)) s₁.trail moments) :
    (((Walk.proceed (Valve.run steps)).afterwards
      (Session.leaveValve f.next f.cursor)).run t).Proceeded f outer s := by
  have proceeded := hrest t f.begun outer hpending hframes (Nat.le_refl _) hbuilt
  have join {u : Session} {rest : List Moment} (hu : u.trail = t.trail ++ rest) :
      u.trail = s₁.trail ++ (moments ++ rest) := by rw [hu, htrail, List.append_assoc]
  have resumed {rest : List Moment} (hresumes : Resumes f.begun outer rest)
      (before : List Moment) (m : Moment) (signal : Signal) (after : List Moment)
      (hopen : Open (f.begun :: outer) t.pending before m signal after) :
      Done before m signal (after ++ rest) := by
    rw [hpending] at hopen
    exact hopen.resumed hresumes
  rw [Run.run_afterwards]
  generalize (Walk.proceed (Valve.run steps)).run t = ending at proceeded ⊢
  cases proceeded with
  | idle hle =>
    obtain ⟨leave, hleft, hwalks, hleave, hrequest⟩ := h.leaveValve none htrail
    have hresumes := resumes_of_last hle hframes hwalks hleave
    refine .answered hleft (h.startsNext _) (h.fates (hfates.or_append ?_ (.single hrequest)))
    intro before m signal after hopen
    exact .inl (resumed hresumes before m signal after hopen)
  | @answered u rest hu hstarts hlater =>
    obtain ⟨leave, hleft, -, hleave, hrequest⟩ := h.leaveValve none (join hu)
    rw [List.append_assoc] at hleft
    have later : Fates (DoneOr (Passing outer f.pipeline f.next u.pending)) t.trail
        (rest ++ [leave]) := by
      refine hlater.or_concat hrequest fun before m signal after hpassing => ?_
      exact hpassing.leaveValve hleave
    refine .answered hleft (h.startsNext _) (h.fates (hfates.or_append ?_ (htrail ▸ later)))
    intro before m signal after hopen
    exact .inl (resumed (hstarts.resumes.append [leave]) before m signal after hopen)
  | @raised failure u rest hu hstarts hlater =>
    obtain ⟨leave, hleft, -, -, hrequest⟩ := h.leaveValve (some failure) (join hu)
    rw [List.append_assoc] at hleft
    have later : Fates Done t.trail (rest ++ [leave]) := hlater.done_concat hrequest
    refine .raised hleft (h.startsNext _) (h.fates (hfates.or_append_done ?_ (htrail ▸ later)))
    exact resumed (hstarts.resumes.append [leave])
  | @exhausted u rest hu hstarts hlater =>
    refine .exhausted (h.trail_eq (join hu)) (h.startsNext _)
      (h.fates (hfates.or_append ?_ (htrail ▸ hlater)))
    intro before m signal after hopen
    exact .inl (resumed hstarts.resumes before m signal after hopen)

end Begun

namespace Proceeds

/-- Once the work of a valve has ended orderly, the rest of its walk follows inside it. -/
private theorem after_own {steps : Nat} (hrest : Proceeds steps) {s : Session} {f : Frame}
    {outer : List Frame} (hbuilt : f.pipeline.BuiltIn) (hlt : f.next < f.pipeline.valves.length)
    {own : Run ValveFailure Unit}
    (howned : (own.run (s.enterValve f outer f.next)).Orderly (f.begun :: outer)
      (s.enterValve f outer f.next)) :
    (((own >>= fun _ => Walk.proceed (Valve.run steps)).afterwards
      (Session.leaveValve f.next f.cursor)).run (s.enterValve f outer f.next)).Proceeded f outer
        s := by
  obtain ⟨enter, begun⟩ := Begun.of_enterValve s outer hlt
  generalize s.enterValve f outer f.next = s₁ at howned begun ⊢
  rw [Run.run_afterwards, Run.run_bind]
  generalize own.run s₁ = ending at howned ⊢
  cases howned with
  | @answered _ t moments htrail hframes hfates =>
    cases hpending : t.pending with
    | some signal => exact begun.proceeded_of_pending htrail hpending hfates
    | none => exact begun.proceeded_of_none hrest hbuilt htrail hframes hpending hfates
  | @raised failure t moments htrail hfates =>
    obtain ⟨leave, hleft, -, -, hrequest⟩ := begun.leaveValve (some failure) htrail
    exact .raised hleft (begun.startsNext _) (begun.fates (hfates.done_concat hrequest))
  | exhausted htrail hfates =>
    exact .exhausted (begun.trail_eq htrail) (begun.startsNext _) (begun.fates hfates)

private theorem underway_of_grows {s t : Session} {p : Pipeline} {moments : List Moment}
    (hgrows : Grows (s.enterPipeline p) t)
    (ht : t.trail = (s.enterPipeline p).trail ++ moments) : Underway s.frames p
      (⟨.enterPipeline p.label, { pipeline := p } :: s.frames, none⟩ :: moments) := by
  obtain ⟨others, hothers, hbeneath⟩ := hgrows
  obtain rfl := List.append_cancel_left (hothers.symm.trans ht)
  exact ⟨_, rfl, fun m hm => hbeneath m hm _ _ rfl⟩

private theorem trail_entered {s : Session} (p : Pipeline) (hpending : s.pending = none) :
    (s.enterPipeline p).trail =
      s.trail ++ [⟨.enterPipeline p.label, { pipeline := p } :: s.frames, none⟩] :=
  hpending ▸ s.trail_enterPipeline p

private theorem trail_left {s t : Session} {p : Pipeline} {moments : List Moment}
    (hpending : s.pending = none) (hframes : (t.leavePipeline none).frames = s.frames)
    (ht : t.trail = (s.enterPipeline p).trail ++ moments) (failure : Option ValveFailure) :
    (t.leavePipeline failure).trail =
      s.trail ++ ((⟨.enterPipeline p.label, { pipeline := p } :: s.frames, none⟩ :: moments) ++
        [⟨.leavePipeline failure, s.frames, t.pending⟩]) := by
  have hleft : t.frames.tail = s.frames := hframes
  rw [Session.trail_leavePipeline, ht, trail_entered p hpending, hleft, List.append_assoc,
    List.append_assoc]
  rfl

/-- A signal that passes the first valve of a block leaves the walk of the block. -/
private theorem fates_leaving {outer : List Frame} {block : Pipeline} {signal : Signal}
    {history moments : List Moment} {enter : Moment} (henter : enter.mark = .enterPipeline block.label)
    (hunderway : Underway outer block (enter :: moments))
    (h : Fates (DoneOr (Passing outer block 0 (some signal))) (history ++ [enter]) moments) :
    Fates (DoneOr (Leaving (Trail.ended outer.length history) outer block signal)) history
      ((enter :: moments) ++ [⟨.leavePipeline none, outer, some signal⟩]) := by
  obtain ⟨hfirst, hdeep⟩ := List.forall_mem_cons.mp hunderway.deeper
  have hended : Trail.ended outer.length (history ++ [enter]) = Trail.ended outer.length history :=
    Trail.ended_append_of_deeper (List.forall_mem_singleton.mpr hfirst)
  refine .cons (by simp [henter]) (.append ((h.within hdeep).mono ?_) (.single nofun))
  rintro before m sig after ⟨hdone | hpassing, hbefore⟩
  · exact .inl (hdone.append _)
  · have hleaving := hpassing.leavePipeline (r := ⟨.leavePipeline none, outer, some signal⟩) rfl rfl
    rw [hbefore, hended] at hleaving
    exact .inr hleaving

theorem runPipeline_orderly {steps : Nat} (h : Proceeds steps) {p : Pipeline} (hp : p.BuiltIn) :
    Walker.Orderly (Walk.runPipeline (Valve.run steps)) p := by
  intro s hpending
  have proceeded := h (s.enterPipeline p) { pipeline := p } s.frames hpending rfl (Nat.le_refl 0) hp
  have nested := Walk.proceed_keepsTo Conduct.nested_covers
    (Valve.run_keepsTo Conduct.nested_covers steps) (s.enterPipeline p)
  have hentered := trail_entered p hpending
  simp only [Walk.runPipeline, Run.run_bind, Run.run_update, Run.run_afterwards, Run.run_read]
  generalize (Walk.proceed (Valve.run steps)).run (s.enterPipeline p) = ending
    at proceeded nested ⊢
  cases proceeded with
  | idle =>
    have hframes : ((s.enterPipeline p).leavePipeline none).frames = s.frames :=
      SameWalks.tail_eq nested.1
    have hnothing : (s.enterPipeline p).trail = (s.enterPipeline p).trail ++ [] :=
      (List.append_nil _).symm
    have hleft := trail_left hpending hframes hnothing none
    have ht : (s.enterPipeline p).pending = none := hpending
    rw [ht] at hleft
    dsimp only
    rw [show ((s.enterPipeline p).leavePipeline none).pending = none from ht]
    exact .completed hleft hframes ht (underway_of_grows nested.2 hnothing)
      (.cons nofun (.single nofun))
  | @answered t moments htrail hstarts hfates =>
    have hframes : (t.leavePipeline none).frames = s.frames := SameWalks.tail_eq nested.1
    have hleft := trail_left hpending hframes htrail none
    have hunderway := underway_of_grows nested.2 htrail
    have hkept : (t.leavePipeline none).pending = t.pending := rfl
    rw [hentered] at hfates
    dsimp only
    rw [hkept]
    cases ht : t.pending with
    | none =>
      rw [ht] at hleft
      refine .completed hleft hframes ht hunderway
        (.cons nofun (hfates.or_append_done ?_ (.single nofun)))
      rintro before m sig after ⟨_, _, _, _, _, _, _, _, hsome, _⟩
      cases ht.symm.trans hsome
    | some signal =>
      rw [ht] at hleft hfates
      exact .unwound hleft hframes ht hunderway (fates_leaving rfl hunderway hfates)
  | @raised failure t moments htrail hstarts hfates =>
    have hframes : (t.leavePipeline (some failure)).frames = s.frames := SameWalks.tail_eq nested.1
    have hleft := trail_left hpending hframes htrail (some failure)
    rw [hentered] at hfates
    exact .raised hleft hframes (underway_of_grows nested.2 htrail)
      (.cons nofun (hfates.done_concat nofun))
  | @exhausted t moments htrail hstarts hfates =>
    rw [hentered] at hfates
    refine .exhausted ?_ (underway_of_grows nested htrail) (.cons nofun hfates)
    rw [htrail, hentered, List.append_assoc, List.singleton_append]

private theorem of_valve {steps : Nat}
    (h : ∀ (s : Session) (f : Frame) (outer : List Frame) (v : Valve), s.pending = none →
      f.pipeline.BuiltIn → v.BuiltIn → f.pipeline.valves[f.next]? = some v →
      (((Valve.run steps v).afterwards (Session.leaveValve f.next f.cursor)).run
        (s.enterValve f outer f.next)).Proceeded f outer s) : Proceeds steps := by
  intro s f outer hpending hframes hnew hbuilt
  have hfresh : f.hasStarted f.next = false := (f.hasStarted_eq_false_iff _).mpr hnew
  have proceeding := Walk.proceed_proceeding (Valve.run steps) s
  generalize (Walk.proceed (Valve.run steps)).run s = ending at proceeding ⊢
  cases proceeding with
  | waits hwaits =>
    rw [hpending] at hwaits
    cases hwaits
  | outside _ hwalks => cases hwalks.symm.trans hframes
  | again _ hwalks hstarted =>
    obtain ⟨rfl, -⟩ := List.cons.inj (hwalks.symm.trans hframes)
    cases hstarted.symm.trans hfresh
  | ends _ hwalks _ hvalve =>
    obtain ⟨rfl, rfl⟩ := List.cons.inj (hwalks.symm.trans hframes)
    exact .idle (List.getElem?_eq_none_iff.mp hvalve)
  | @starts g others v _ hwalks _ hvalve =>
    obtain ⟨rfl, rfl⟩ := List.cons.inj (hwalks.symm.trans hframes)
    cases hbuilt with
    | intro hvalves =>
      exact h s g others v hpending (.intro hvalves) (hvalves v (List.mem_of_getElem? hvalve))
        hvalve

private theorem zero : Proceeds 0 := by
  refine of_valve fun s f outer v _ _ _ hvalve => ?_
  obtain ⟨hlt, -⟩ := List.getElem?_eq_some_iff.mp hvalve
  exact .exhausted (Session.trail_mark _ _) ⟨_, _, rfl, hlt, rfl, rfl⟩ (.single nofun)

private theorem succ {steps : Nat} (h : Proceeds steps) : Proceeds (steps + 1) := by
  refine of_valve fun s f outer v hpending hbuilt hv hvalve => ?_
  cases hv with
  | intro hscript hchildren =>
    rw [show Valve.run (steps + 1) v = v.work (Valve.run steps) steps from rfl,
      Valve.work_eq_own _ steps hscript]
    have hhost : f.begun.valve? = some v := hvalve
    obtain ⟨hlt, -⟩ := List.getElem?_eq_some_iff.mp hvalve
    have hbegun : Trail.ended (f.begun :: outer).length (s.enterValve f outer f.next).trail = [] := by
      rw [show (s.enterValve f outer f.next).trail = _ from Session.trail_mark _ _]
      exact Trail.ended_enterValve (m := ⟨.enterValve f.next, f.begun :: outer, s.pending⟩) rfl rfl
        s.trail
    exact h.after_own hbuilt hlt (Flat.own_orderly
      (fun p hp => h.runPipeline_orderly (hchildren p hp)) steps hhost hpending rfl hbegun)

theorem all (steps : Nat) : Proceeds steps := by
  induction steps with
  | zero => exact zero
  | succ steps ih => exact ih.succ

end Proceeds

/-- A request that was made where these walks had got so far, and what their next marks are. -/
def Followed : Fate := fun _ m _ after =>
  (∃ b, Moves m.frames after b) ∧ (∀ f ∈ m.frames, f.next ≤ f.started) ∧ ∀ r ∈ after, r.Foremost

private theorem followed {a b : List Frame} {history moments : List Moment}
    (h : Moves a moments b) (ha : ∀ f ∈ a, f.next ≤ f.started)
    (hmoments : ∀ m ∈ moments, m.Foremost) : Fates Followed history moments := by
  intro before m after signal split _
  subst split
  obtain ⟨c, hbefore, hlater⟩ := h.exists_of_append
  have hbounded := h.bounded ha m (by simp)
  cases hlater with
  | cons _ hafter =>
    exact ⟨⟨b, hafter⟩, hbounded, fun r hr => hmoments r (by simp [hr])⟩

theorem Resumes.iteratesBehind {f : Frame} {outer a b : List Frame} {rest : List Moment}
    (h : Resumes f outer rest) (hmoves : Moves a rest b) (hf : f.next ≤ f.started)
    (hrest : ∀ r ∈ rest, r.Foremost) : IteratesBehind f outer rest := by
  cases h with
  | @next r rest _ hmark hframes =>
    have hpast : Past f.next outer r.frames := ⟨[], f.begun, hframes, .inl (Nat.lt_succ_self _)⟩
    exact hmoves.iteratesBehind (by simp [hmark]) hpast fun r hr => hrest r (.tail _ hr)
  | @last r rest place cursor _ hnext hmark hframes hback =>
    have hlt : ({ f with cursor } : Frame).next < f.started := by omega
    have hpast : Past f.next outer r.frames := ⟨[], { f with cursor }, hframes, .inr hlt⟩
    exact hmoves.iteratesBehind (by simp [hmark]) hpast fun r hr => hrest r (.tail _ hr)

namespace Walk

def launched (s : Session) : Session :=
  { s with invoked := true }.emit "invocation.started" (.ofFields [])

theorem launched_trail (s : Session) : (launched s).trail = s.trail :=
  Session.trail_emit ..

theorem launched_pending (s : Session) : (launched s).pending = s.pending :=
  Session.pending_emit ..

theorem launched_frames (s : Session) : (launched s).frames = s.frames :=
  Session.frames_emit ..

theorem invoke_trail {ε : Type} {walk : Walker} {s : Session} (hinvoked : s.invoked = false) :
    ((invoke walk : Run ε (Except RunFailure Outcome)).run s).session.trail =
      ((walk s.pipeline).run (launched s)).session.trail := by
  simp only [invoke, launched, Run.run_bind, Run.run_read, id_eq, hinvoked, Bool.false_eq_true,
    if_false, Run.run_update, Run.run_attempt]
  generalize (walk s.pipeline).run _ = ending
  cases ending with
  | answered ended t =>
    cases ended with
    | completed => exact Session.trail_emit ..
    | unwound => exact Session.trail_emit ..
  | raised failure t => exact Session.trail_emit ..
  | exhausted t => rfl

theorem invoke_unwound {ε : Type} {walk : Walker} {s t : Session} {signal : Signal}
    (hinvoked : s.invoked = false) (h : (walk s.pipeline).run (launched s) = .answered .unwound t)
    (ht : t.pending = some signal) :
    ∃ u, (invoke walk : Run ε (Except RunFailure Outcome)).run s =
      .answered (.ok (.unwound signal)) u := by
  unfold launched at h
  simp only [invoke, Run.run_bind, Run.run_read, id_eq, hinvoked, Bool.false_eq_true, if_false,
    Run.run_update, Run.run_attempt, h, ht]
  exact ⟨_, rfl⟩

theorem invoke_exhausted {ε : Type} {walk : Walker} {s t : Session} (hinvoked : s.invoked = false)
    (h : (walk s.pipeline).run (launched s) = .exhausted t) :
    (invoke walk : Run ε (Except RunFailure Outcome)).run s = .exhausted t := by
  unfold launched at h
  simp only [invoke, Run.run_bind, Run.run_read, id_eq, hinvoked, Bool.false_eq_true, if_false,
    Run.run_update, Run.run_attempt, h]

theorem pending_runPipeline {start : Starter} {p : Pipeline} {s t : Session} {ended : WalkEnd}
    (h : (runPipeline start p).run s = .answered ended t) :
    (ended = .completed ∧ t.pending = none) ∨
      ended = .unwound ∧ ∃ signal, t.pending = some signal := by
  simp only [runPipeline, Run.run_bind, Run.run_update, Run.run_afterwards, Run.run_read] at h
  cases hproceed : (proceed start).run (s.enterPipeline p) with
  | answered a u =>
    simp only [hproceed, Ending.answered.injEq] at h
    obtain ⟨rfl, rfl⟩ := h
    cases hpending : (u.leavePipeline none).pending with
    | none => exact .inl ⟨rfl, rfl⟩
    | some signal => exact .inr ⟨rfl, signal, rfl⟩
  | raised e u => simp [hproceed] at h
  | exhausted u => simp [hproceed] at h

def reportFailed (failure : ValveFailure) (t : Session) : Session :=
  (t.log .error "Invocation failed" [("error", .string failure.message)]).emit
    "invocation.failed" (.ofFields [("error", failure.toJson)])

def reportUnwound (signal : Signal) (t : Session) : Session :=
  (t.log .debug "Invocation unwound"
    [("outcome", .string (Outcome.unwound signal).display)]).emit
    "invocation.unwound" (.ofFields [("signal", signal.toJson)])

def reportCompleted (t : Session) : Session :=
  t.emit "invocation.completed" (.ofFields [])

/-- Everything that a whole run can do. -/
inductive Invoking {ε : Type} (start : Starter) (s : Session) :
    Ending ε (Except RunFailure Outcome) → Prop
  | refused : s.invoked = true →
    Invoking start s (.answered (.error (.alreadyInvoked s.identity.invocation.display)) s)
  | completed {t : Session} : s.invoked = false →
    (runPipeline start s.pipeline).run (launched s) = .answered .completed t → t.pending = none →
    Invoking start s (.answered (.ok .completed) (reportCompleted t))
  | unwound {t : Session} {signal : Signal} : s.invoked = false →
    (runPipeline start s.pipeline).run (launched s) = .answered .unwound t →
    t.pending = some signal →
    Invoking start s (.answered (.ok (.unwound signal)) (reportUnwound signal t))
  | failed {t : Session} {failure : ValveFailure} : s.invoked = false →
    (runPipeline start s.pipeline).run (launched s) = .raised failure t →
    Invoking start s
      (.answered (.error (.uncaught s.pipeline.displayName failure)) (reportFailed failure t))
  | exhausted {t : Session} : s.invoked = false →
    (runPipeline start s.pipeline).run (launched s) = .exhausted t →
    Invoking start s (.exhausted t)

theorem invoke_invoking {ε : Type} (start : Starter) (s : Session) :
    Invoking (ε := ε) start s ((invoke (runPipeline start)).run s) := by
  cases hinvoked : s.invoked with
  | true =>
    simp only [invoke, Run.run_bind, Run.run_read, id_eq, hinvoked, if_true, Run.run_pure]
    exact .refused hinvoked
  | false =>
    cases h : (runPipeline start s.pipeline).run (launched s) with
    | answered ended t =>
      have hrun := h
      unfold launched at hrun
      obtain ⟨rfl, hpending⟩ | ⟨rfl, signal, hpending⟩ := pending_runPipeline h
      · simp only [invoke, Run.run_bind, Run.run_read, id_eq, hinvoked, Bool.false_eq_true,
          if_false, Run.run_update, Run.run_attempt, hrun, Run.run_pure]
        exact .completed hinvoked h hpending
      · simp only [invoke, Run.run_bind, Run.run_read, id_eq, hinvoked, Bool.false_eq_true,
          if_false, Run.run_update, Run.run_attempt, hrun, hpending, Run.run_pure]
        exact .unwound hinvoked h hpending
    | raised failure t =>
      have hrun := h
      unfold launched at hrun
      simp only [invoke, Run.run_bind, Run.run_read, id_eq, hinvoked, Bool.false_eq_true, if_false,
        Run.run_update, Run.run_attempt, hrun, Run.run_pure]
      exact .failed hinvoked h
    | exhausted t =>
      rw [invoke_exhausted hinvoked h]
      exact .exhausted hinvoked h

theorem invoke_ne_raised {ε : Type} {start : Starter} {s t : Session} {e : ε} :
    (invoke (runPipeline start) : Run ε _).run s ≠ .raised e t := by
  intro h
  have invoking := invoke_invoking (ε := ε) start s
  rw [h] at invoking
  cases invoking

theorem runPipeline_trail_of_pending (start : Starter) (p : Pipeline) {s : Session}
    (h : s.pending.isSome = true) :
    ((runPipeline start p).run s).session.trail = s.trail ++
      [⟨.enterPipeline p.label, { pipeline := p } :: s.frames, s.pending⟩,
        ⟨.leavePipeline none, s.frames, s.pending⟩] := by
  have hentered : (s.enterPipeline p).pending.isSome = true := h
  simp only [runPipeline, Run.run_bind, Run.run_update, Run.run_afterwards,
    run_proceed_of_pending start hentered, Run.run_read, Ending.session]
  rw [Session.trail_leavePipeline, Session.trail_enterPipeline, List.append_assoc]
  rfl

/-- What becomes of a request, in terms of the scopes that it reaches. -/
def Obeyed (before : List Moment) (m : Moment) (signal : Signal) (after : List Moment)
    (returns : Signal → Prop) : Prop :=
  (∀ count, signal.reach (labels m.frames) = some count → count < m.frames.length →
    ∃ g outer unwound rest, m.frames.drop count = g :: outer ∧ after = unwound ++ rest ∧
      Unwinds before (m.frames.take count) (g :: outer) unwound ∧
      (∀ r ∈ unwound, r.mark.begins = true →
        InFinally before (m.frames.take count) (g :: outer) r) ∧
      Resumes g outer rest ∧ IteratesBehind g outer rest) ∧
  ((∀ count, signal.reach (labels m.frames) = some count → m.frames.length ≤ count) →
    Unwinds before m.frames [] after ∧
      (∀ r ∈ after, r.mark.begins = true → InFinally before m.frames [] r) ∧
      returns (signal.residue (m.frames.length - 1)))

theorem Obeyed.of_resumed {before : List Moment} {m : Moment} {signal : Signal}
    {after : List Moment} (h : Resumed before m signal after)
    (hfollowed : Followed before m signal after) (returns : Signal → Prop) :
    Obeyed before m signal after returns := by
  obtain ⟨scopes, g, outer, unwound, rest, hm, hreach, rfl, hunwinds, hresumes⟩ := h
  obtain ⟨⟨b, hmoves⟩, hbounded, hafter⟩ := hfollowed
  have hlength : m.frames.length = scopes.length + (outer.length + 1) := by simp [hm]
  constructor
  · intro count hcount _
    obtain rfl := Option.some.inj (hreach.symm.trans hcount)
    rw [hm, List.take_left, List.drop_left]
    have begins (r : Moment) (hr : r ∈ unwound) (hbegins : r.mark.begins = true) :
        InFinally before scopes (g :: outer) r := hunwinds.inFinally hr hbegins
    obtain ⟨c, -, hrest⟩ := hmoves.exists_of_append
    have behind := hresumes.iteratesBehind hrest (hbounded g (by simp [hm]))
      fun r hr => hafter r (List.mem_append_right _ hr)
    exact ⟨g, outer, unwound, rest, rfl, rfl, hunwinds, begins, hresumes, behind⟩
  · intro hfar
    have hle := hfar _ hreach
    omega

theorem Obeyed.of_leaving {ends : List Moment} {block : Pipeline} {left : Signal}
    {before : List Moment} {m : Moment} {signal : Signal} {after : List Moment}
    (h : Leaving ends [] block left before m signal after) {returns : Signal → Prop}
    (hreturns : returns left) : Obeyed before m signal after returns := by
  obtain ⟨-, scopes, f, sofar, leave, hm, -, hsurvives, rfl, hunwinds, hleave, rfl⟩ := h
  have hlength : (labels scopes).length = scopes.length := List.length_map _
  constructor
  · intro count hcount hlt
    rw [hm, labels, List.map_append] at hcount
    have hpast := hsurvives.lt_reach hcount
    simp only [hm, List.length_append, List.length_singleton] at hlt
    omega
  · intro _
    have hall : Unwinds before m.frames [] (sofar ++ leave) := by
      have hclear : Clears before [] f.pipeline [] := .nothing (.of_outermost before f.pipeline)
      have hunwound := hunwinds.concat hleave hclear
      rwa [← hm, List.append_nil] at hunwound
    have begins (r : Moment) (hr : r ∈ sofar ++ leave) (hbegins : r.mark.begins = true) :
        InFinally before m.frames [] r := hall.inFinally hr hbegins
    have hcount : m.frames.length - 1 = scopes.length := by
      rw [hm, List.length_append, List.length_singleton, Nat.add_sub_cancel]
    rw [← hcount] at hreturns
    exact ⟨hall, begins, hreturns⟩

private theorem obeyed_of_walked {p : Pipeline} {s : Session} (hframes : s.frames = [])
    {ending : Ending ValveFailure WalkEnd} (h : ending.Walked p s) {moments : List Moment}
    (htrail : ending.session.trail = s.trail ++ moments)
    (hfollowed : Fates Followed s.trail moments) {returns : Signal → Prop}
    (hreturns : ∀ t signal, ending = .answered .unwound t → t.pending = some signal →
      returns signal) :
    Fates (fun before m signal after => Spoiled before m signal after ∨
      ((∃ t, ending = .exhausted t) ∧ CutShort before m signal after) ∨
        Obeyed before m signal after returns) s.trail moments := by
  have done (before : List Moment) (m : Moment) (signal : Signal) (after : List Moment)
      (h : Done before m signal after) (hnext : Followed before m signal after) :
      Spoiled before m signal after ∨
        ((∃ t, ending = .exhausted t) ∧ CutShort before m signal after) ∨
          Obeyed before m signal after returns := by
    rcases h with hresumed | hspoiled
    · exact .inr (.inr (.of_resumed hresumed hnext returns))
    · exact .inl hspoiled
  intro before m after signal split hm
  have hnext := hfollowed before m after signal split hm
  cases h with
  | completed hwalked _ _ _ hfates =>
    obtain rfl := List.append_cancel_left (hwalked.symm.trans htrail)
    exact done _ m signal after (hfates before m after signal split hm) hnext
  | @unwound t inside left hwalked _ ht _ hfates =>
    obtain rfl := List.append_cancel_left (hwalked.symm.trans htrail)
    rcases hfates before m after signal split hm with hdone | hleaving
    · exact done _ m signal after hdone hnext
    · rw [hframes] at hleaving
      exact .inr (.inr (.of_leaving hleaving (hreturns t left rfl ht)))
  | raised hwalked _ _ hfates =>
    obtain rfl := List.append_cancel_left (hwalked.symm.trans htrail)
    exact done _ m signal after (hfates before m after signal split hm) hnext
  | @exhausted t inside hwalked _ hfates =>
    obtain rfl := List.append_cancel_left (hwalked.symm.trans htrail)
    rcases hfates before m after signal split hm with hdone | hcut
    · exact done _ m signal after hdone hnext
    · exact .inr (.inl ⟨⟨t, rfl⟩, hcut⟩)

private theorem runPipeline_followed (steps : Nat) {p : Pipeline} (hp : p.BuiltIn) {s : Session}
    (hframes : s.frames = []) :
    ∃ moments, ((runPipeline (Valve.run steps) p).run s).session.trail = s.trail ++ moments ∧
      Fates Followed s.trail moments := by
  have moving := runPipeline_keepsTo Conduct.moving_covers
    (Valve.run_keepsTo Conduct.moving_covers steps) p s
  obtain ⟨others, hothers, hforemost⟩ := runPipeline_iterations steps hp s
  generalize (runPipeline (Valve.run steps) p).run s = ending at moving hothers ⊢
  have moves : ∃ moments, ending.session.trail = s.trail ++ moments ∧
      Moves s.frames moments ending.session.frames := by
    cases ending with
    | answered _ t => exact moving.2
    | raised _ t => exact moving.2
    | exhausted t => exact moving
  obtain ⟨moments, htrail, hmoves⟩ := moves
  obtain rfl := List.append_cancel_left (hothers.symm.trans htrail)
  rw [hframes] at hmoves
  exact ⟨_, htrail, followed hmoves nofun hforemost⟩

/-- The law of unwinding. In a run of built-in valves, take any request and what happened before and
after it. Unless a finally block that runs meanwhile ends badly, or the allowance of steps is spent
inside one, the signal does what it says: the scopes that it counts are left, nothing begins meanwhile
outside of their finally blocks, and the walk around them goes on behind its running valve, which does
not iterate again; and a signal that counts all walks, or counts nothing, leaves them all and is the
outcome of the run, less the levels that its boundaries have taken. -/
theorem unwinding {s : Session} (hframes : s.frames = []) (hbuilt : s.pipeline.BuiltIn)
    (steps : Nat) (before : List Moment) (m : Moment) (after : List Moment) (signal : Signal)
    (split : (s.invoke steps).session.trail = s.trail ++ (before ++ m :: after))
    (hm : m.mark = .request signal) :
    Spoiled (s.trail ++ before) m signal after ∨
      ((∃ t, s.invoke steps = .exhausted t) ∧ CutShort (s.trail ++ before) m signal after) ∨
        Obeyed (s.trail ++ before) m signal after fun left =>
          ∃ t, s.invoke steps = .answered (.ok (.unwound left)) t := by
  cases hinvoked : s.invoked with
  | true =>
    have hnothing : (s.invoke steps).session = s := by
      simp [Session.invoke, invoke, hinvoked, Ending.session]
    rw [hnothing] at split
    simp at split
  | false =>
    rw [Session.invoke, invoke_trail hinvoked] at split
    cases hpending : s.pending with
    | some waiting =>
      have hwaiting : (launched s).pending.isSome = true := by
        rw [launched_pending, hpending]
        rfl
      rw [runPipeline_trail_of_pending _ _ hwaiting, launched_trail] at split
      have hmem : m ∈ before ++ m :: after := by simp
      rw [← List.append_cancel_left split] at hmem
      simp only [List.mem_cons, List.not_mem_nil, or_false] at hmem
      rcases hmem with rfl | rfl <;> cases hm
    | none =>
      have hlaunched : (launched s).frames = [] := (launched_frames s).trans hframes
      have walked := (Proceeds.all steps).runPipeline_orderly hbuilt (launched s)
        ((launched_pending s).trans hpending)
      obtain ⟨moments, htrail, hfollowed⟩ := runPipeline_followed steps hbuilt hlaunched
      have hfates := obeyed_of_walked hlaunched walked htrail hfollowed fun t left h ht =>
        invoke_unwound (ε := Empty) hinvoked h ht
      rw [htrail, launched_trail] at split
      have hfate := hfates before m after signal (List.append_cancel_left split) hm
      rw [launched_trail] at hfate
      rcases hfate with hspoiled | ⟨⟨t, h⟩, hcut⟩ | hobeyed
      · exact .inl hspoiled
      · exact .inr (.inl ⟨⟨t, invoke_exhausted hinvoked h⟩, hcut⟩)
      · exact .inr (.inr hobeyed)

private def brokenScope : Pipeline :=
  ⟨some "inner", [.breakWith (.level 1), .passThrough]⟩

private def guardedScope : Pipeline :=
  ⟨none, [.sub brokenScope, .passThrough]⟩

private def lastScope : Pipeline :=
  ⟨none, [.passThrough]⟩

private def guardedBreak : Pipeline :=
  ⟨none, [.guarded (some guardedScope) none (some lastScope) {}, .passThrough]⟩

private def guardedRun : List Moment :=
  ((Session.start guardedBreak .discard {}).invoke 6).session.trail

private theorem guardedBreak_builtIn : guardedBreak.BuiltIn := by
  have leaf {v : Valve} (hv : ∀ name script, v ≠ .scripted name script)
      (hchildren : v.children = []) : v.BuiltIn :=
    .intro hv (by simp [hchildren])
  have pass : Valve.BuiltIn .passThrough := leaf nofun rfl
  have broken : brokenScope.BuiltIn := by
    refine .intro fun v hv => ?_
    simp only [brokenScope, List.mem_cons, List.not_mem_nil, or_false] at hv
    rcases hv with rfl | rfl
    · exact leaf nofun rfl
    · exact pass
  have guarded : guardedScope.BuiltIn := by
    refine .intro fun v hv => ?_
    simp only [guardedScope, List.mem_cons, List.not_mem_nil, or_false] at hv
    rcases hv with rfl | rfl
    · exact .intro nofun fun p hp => List.mem_singleton.mp hp ▸ broken
    · exact pass
  have last : lastScope.BuiltIn :=
    .intro fun v hv => List.mem_singleton.mp hv ▸ pass
  refine .intro fun v hv => ?_
  simp only [guardedBreak, List.mem_cons, List.not_mem_nil, or_false] at hv
  rcases hv with rfl | rfl
  · refine .intro nofun fun p hp => ?_
    simp only [Valve.children, Option.toList, List.append_nil, List.singleton_append,
      List.mem_cons, List.not_mem_nil, or_false] at hp
    rcases hp with rfl | rfl
    · exact guarded
    · exact last
  · exact pass

theorem unwinding_of_guardedBreak :
    guardedRun[6].mark = .request (.level 1) ∧
      (Signal.level 1).reach (labels guardedRun[6].frames) = some 2 ∧
      guardedRun[6].frames.length = 3 ∧
      (Spoiled (guardedRun.take 6) guardedRun[6] (.level 1) (guardedRun.drop 7) ∨
        ((∃ t, (Session.start guardedBreak .discard {}).invoke 6 = .exhausted t) ∧
          CutShort (guardedRun.take 6) guardedRun[6] (.level 1) (guardedRun.drop 7)) ∨
        Obeyed (guardedRun.take 6) guardedRun[6] (.level 1) (guardedRun.drop 7) fun left =>
          ∃ t, (Session.start guardedBreak .discard {}).invoke 6 = .answered (.ok (.unwound left)) t) :=
  ⟨rfl, rfl, rfl, unwinding (s := Session.start guardedBreak .discard {}) rfl guardedBreak_builtIn 6
    (guardedRun.take 6) _ _ _ rfl rfl⟩

end Walk

end ValvePipeline
