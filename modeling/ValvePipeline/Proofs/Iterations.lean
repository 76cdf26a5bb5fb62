import ValvePipeline.Proofs.Nesting
import ValvePipeline.Proofs.Trail

/-!
Where iterations begin. Each moment of a trail tells what the walks under way have become since the one
before it. An iteration begins before any valve behind its loop does. So a loop does not iterate again
once a valve behind it has begun, or the loop itself has ended, as long as its walk is under way.
-/

set_option autoImplicit false
set_option relaxedAutoImplicit false

namespace ValvePipeline

inductive Moves : List Frame → List Moment → List Frame → Prop
  | nil {a : List Frame} : Moves a [] a
  | cons {a b : List Frame} {m : Moment} {moments : List Moment} : Moved m.mark a m.frames →
    Moves m.frames moments b → Moves a (m :: moments) b

namespace Moves

variable {a b c : List Frame} {first second : List Moment}

theorem single {m : Mark} {pending : Option Signal} (h : Moved m a b) :
    Moves a [⟨m, b, pending⟩] b :=
  .cons h .nil

theorem append (h : Moves a first b) (h' : Moves b second c) : Moves a (first ++ second) c := by
  induction h with
  | nil => exact h'
  | cons hmoved _ ih => exact .cons hmoved (ih h')

theorem exists_of_append (h : Moves a (first ++ second) c) :
    ∃ b, Moves a first b ∧ Moves b second c := by
  induction first generalizing a with
  | nil => exact ⟨a, .nil, h⟩
  | cons m first ih =>
    cases h with
    | cons hmoved hrest =>
      obtain ⟨b, hfirst, hsecond⟩ := ih hrest
      exact ⟨b, .cons hmoved hfirst, hsecond⟩

theorem bounded (h : Moves a first b) (ha : ∀ f ∈ a, f.next ≤ f.started) :
    ∀ m ∈ first, ∀ f ∈ m.frames, f.next ≤ f.started := by
  induction h with
  | nil => nofun
  | cons hmoved _ ih =>
    have hm := hmoved.bounded ha
    exact List.forall_mem_cons.mpr ⟨hm, ih hm⟩

end Moves

/-- The walk over these outer ones has started more valves than so many, or is coming to its end. -/
def Past (count : Nat) (outer frames : List Frame) : Prop :=
  ∃ inner g, frames = inner ++ g :: outer ∧ (count < g.started ∨ g.next < g.started)

theorem Moved.past {m : Mark} {a b outer : List Frame} {count : Nat} (h : Moved m a b)
    (ha : Past count outer a) (hb : outer.length < b.length) : Past count outer b := by
  obtain ⟨inner, g, hframes, hg⟩ := ha
  cases h with
  | plain _ => exact ⟨inner, g, hframes, hg⟩
  | @enterPipeline p => exact ⟨{ pipeline := p } :: inner, g, congrArg _ hframes, hg⟩
  | leavePipeline _ =>
    cases inner with
    | nil =>
      obtain ⟨-, rfl⟩ := List.cons.inj hframes
      exact absurd hb (Nat.lt_irrefl _)
    | cons f inner => exact ⟨inner, g, (List.cons.inj hframes).2, hg⟩
  | @enterValve f _ hnew =>
    cases inner with
    | nil =>
      obtain ⟨rfl, rfl⟩ := List.cons.inj hframes
      refine ⟨[], _, rfl, .inl ?_⟩
      have hcount : count < f.next + 1 := by omega
      exact hcount
    | cons h inner =>
      obtain ⟨-, rfl⟩ := List.cons.inj hframes
      exact ⟨_ :: inner, g, rfl, hg⟩
  | @leaveValve f h _ _ hcursor =>
    cases inner with
    | nil =>
      obtain ⟨rfl, rfl⟩ := List.cons.inj hframes
      have hnext : h.next = f.next + 1 := Frame.next_of_cursor hcursor
      refine ⟨[], { h with cursor := f.cursor }, rfl, ?_⟩
      have hstarted : ({ h with cursor := f.cursor } : Frame).started = h.started := rfl
      have hback : ({ h with cursor := f.cursor } : Frame).next = f.next := rfl
      omega
    | cons h inner =>
      obtain ⟨-, rfl⟩ := List.cons.inj hframes
      exact ⟨_ :: inner, g, rfl, hg⟩

theorem Moves.past {a b outer : List Frame} {moments : List Moment} {count : Nat}
    (h : Moves a moments b) (ha : Past count outer a)
    (hinside : ∀ m ∈ moments, outer.length < m.frames.length) :
    ∀ m ∈ moments, Past count outer m.frames := by
  induction h with
  | nil => nofun
  | cons hmoved _ ih =>
    obtain ⟨hfirst, hrest⟩ := List.forall_mem_cons.mp hinside
    have hm := hmoved.past ha hfirst
    exact List.forall_mem_cons.mpr ⟨hm, ih hm hrest⟩

namespace Conduct

def moving : Conduct where
  done s t := SameWalks s.frames t.frames ∧
    ∃ moments, t.trail = s.trail ++ moments ∧ Moves s.frames moments t.frames
  cut s t := ∃ moments, t.trail = s.trail ++ moments ∧ Moves s.frames moments t.frames

private theorem moves_trans {s t u : Session} {moments : List Moment}
    (htrail : t.trail = s.trail ++ moments) (h : Moves s.frames moments t.frames)
    (h' : ∃ more, u.trail = t.trail ++ more ∧ Moves t.frames more u.frames) :
    ∃ more, u.trail = s.trail ++ more ∧ Moves s.frames more u.frames := by
  obtain ⟨more, hmore, hmoves⟩ := h'
  exact ⟨moments ++ more, by rw [hmore, htrail, List.append_assoc], h.append hmoves⟩

private theorem trail_enterValve (s : Session) (f : Frame) (outer : List Frame) :
    (s.enterValve f outer f.next).trail = s.trail ++
      [⟨.enterValve f.next, (s.enterValve f outer f.next).frames, s.pending⟩] :=
  Session.trail_mark _ _

theorem moving_covers : moving.Covers where
  refl s := ⟨.refl s.frames, [], (List.append_nil _).symm, .nil⟩
  trans h h' := by
    obtain ⟨hsame, moments, htrail, hmoves⟩ := h
    exact ⟨hsame.trans h'.1, moves_trans htrail hmoves h'.2⟩
  cut_refl s := ⟨[], (List.append_nil _).symm, .nil⟩
  cut_trans h h' := by
    obtain ⟨-, moments, htrail, hmoves⟩ := h
    exact moves_trans htrail hmoves h'
  change {s t} h := by
    refine ⟨.of_eq h.frames_eq, ?_⟩
    rcases h.trail_eq with htrail | ⟨m, hm, rfl⟩
    · exact ⟨[], htrail.trans (List.append_nil _).symm, h.frames_eq ▸ .nil⟩
    · exact ⟨_, s.trail_mark m, .single (.plain hm)⟩
  walk {s t} p failure h := by
    obtain ⟨g, hg, -, hcursor, -⟩ := SameWalks.of_cons h.1
    have hleft : Moved (.leavePipeline failure) t.frames t.frames.tail := by
      rw [hg]
      exact .leavePipeline hcursor
    refine ⟨balanced_covers.walk p failure h.1, ?_⟩
    refine moves_trans (s.trail_enterPipeline p) (.single .enterPipeline) ?_
    obtain ⟨moments, htrail, hmoves⟩ := h.2
    exact moves_trans htrail hmoves ⟨_, t.trail_leavePipeline failure, .single hleft⟩
  walk_cut {s t} p h :=
    moves_trans (s.trail_enterPipeline p) (.single .enterPipeline) h
  valve {s t frame outer} failure hpending hframes hnew h := by
    obtain ⟨g, hg, -, hcursor, -⟩ := SameWalks.of_cons h.1
    have hbegun : Moved (.enterValve frame.next) s.frames
        (s.enterValve frame outer frame.next).frames := by
      rw [hframes]
      exact .enterValve ((Frame.hasStarted_eq_false_iff _ _).mp hnew)
    have hleft : Moved (.leaveValve frame.next failure) t.frames
        (t.leaveValve frame.next frame.cursor failure).frames := by
      rw [Session.frames_leaveValve _ _ _ hg, hg]
      exact .leaveValve hcursor
    refine ⟨balanced_covers.valve failure hpending hframes hnew h.1, ?_⟩
    refine moves_trans (trail_enterValve s frame outer) (.single hbegun) ?_
    obtain ⟨moments, htrail, hmoves⟩ := h.2
    exact moves_trans htrail hmoves ⟨_, t.trail_leaveValve .., .single hleft⟩
  valve_cut {s t frame outer} _ hframes hnew h := by
    have hbegun : Moved (.enterValve frame.next) s.frames
        (s.enterValve frame outer frame.next).frames := by
      rw [hframes]
      exact .enterValve ((Frame.hasStarted_eq_false_iff _ _).mp hnew)
    exact moves_trans (trail_enterValve s frame outer) (.single hbegun) h

end Conduct

/-- No valve behind the running one has started in the innermost of these walks. -/
def Foremost (frames : List Frame) : Prop :=
  ∀ f outer, frames = f :: outer → f.started = f.next

def Moment.Foremost (m : Moment) : Prop :=
  ∀ count, m.mark = .iterate count → ValvePipeline.Foremost m.frames

def Session.Adds (kind : Moment → Prop) (s t : Session) : Prop :=
  ∃ moments, t.trail = s.trail ++ moments ∧ ∀ m ∈ moments, kind m

namespace Session.Adds

variable {kind : Moment → Prop} {s t u : Session}

theorem of_trail_eq (h : t.trail = s.trail) : s.Adds kind t :=
  ⟨[], h.trans (List.append_nil _).symm, nofun⟩

theorem of_moment {m : Moment} (h : t.trail = s.trail ++ [m]) (hm : kind m) : s.Adds kind t :=
  ⟨[m], h, List.forall_mem_singleton.mpr hm⟩

theorem trans (h : s.Adds kind t) (h' : t.Adds kind u) : s.Adds kind u := by
  obtain ⟨a, ha, hkind⟩ := h
  obtain ⟨b, hb, hkind'⟩ := h'
  exact ⟨a ++ b, by rw [hb, ha, List.append_assoc], List.forall_mem_append.mpr ⟨hkind, hkind'⟩⟩

end Session.Adds

namespace Conduct

/-- The walks are the same, and where nothing behind the running valve has started, iterations are
foremost. -/
def iterating : Conduct where
  done s t := t.frames = s.frames ∧ (Foremost s.frames → s.Adds Moment.Foremost t)
  cut s t := Foremost s.frames → s.Adds Moment.Foremost t

theorem iterating_continues : iterating.Continues where
  refl _ := ⟨rfl, fun _ => .of_trail_eq rfl⟩
  trans {s t u} h h' := by
    refine ⟨h'.1.trans h.1, fun hs => (h.2 hs).trans (h'.2 ?_)⟩
    rwa [h.1]
  cut_refl _ _ := .of_trail_eq rfl
  cut_trans {s t u} h h' hs := (h.2 hs).trans (h' (by rwa [h.1]))
  change {s t} h := by
    refine ⟨h.frames_eq, fun hs => ?_⟩
    rcases h.trail_eq with htrail | ⟨m, -, rfl⟩
    · exact .of_trail_eq htrail
    · exact .of_moment (s.trail_mark m) fun _ _ => hs

end Conduct

namespace Walk

private def ProceedsForemost (steps : Nat) : Prop :=
  ∀ (s : Session) (f : Frame) (outer : List Frame), s.frames = f :: outer →
    f.started ≤ f.next → f.pipeline.BuiltIn →
    s.Adds Moment.Foremost ((proceed (Valve.run steps)).run s).session

private theorem enterPipeline_foremost (s : Session) (p : Pipeline) :
    s.Adds Moment.Foremost (s.enterPipeline p) :=
  .of_moment (s.trail_enterPipeline p) nofun

private theorem runPipeline_foremost {steps : Nat} (h : ProceedsForemost steps) {p : Pipeline}
    (hp : p.BuiltIn) (s : Session) :
    s.Adds Moment.Foremost ((runPipeline (Valve.run steps) p).run s).session := by
  have proceeded := h (s.enterPipeline p) { pipeline := p } s.frames rfl (Nat.le_refl 0) hp
  have entered := (enterPipeline_foremost s p).trans proceeded
  have left (failure : Option ValveFailure) (t : Session) :
      t.Adds Moment.Foremost (t.leavePipeline failure) :=
    .of_moment (t.trail_leavePipeline failure) nofun
  simp only [runPipeline, Run.run_bind, Run.run_update, Run.run_afterwards, Run.run_read]
  generalize (proceed (Valve.run steps)).run (s.enterPipeline p) = ending at entered ⊢
  cases ending with
  | answered _ t => exact entered.trans (left none t)
  | raised failure t => exact entered.trans (left (some failure) t)
  | exhausted t => exact entered

private theorem runPipeline_iterating {steps : Nat} (h : ProceedsForemost steps) {p : Pipeline}
    (hp : p.BuiltIn) : (runPipeline (Valve.run steps) p).KeepsTo .iterating := by
  intro s
  have steady := runPipeline_steady (Valve.run_keepsTo Conduct.balanced_covers steps) p s
  have foremost := runPipeline_foremost h hp s
  generalize (runPipeline (Valve.run steps) p).run s = ending at steady foremost ⊢
  cases ending with
  | answered _ t => exact ⟨steady, fun _ => foremost⟩
  | raised _ t => exact ⟨steady, fun _ => foremost⟩
  | exhausted t => exact fun _ => foremost

private theorem proceedsForemost_of_valve {steps : Nat}
    (h : ∀ (s : Session) (f : Frame) (outer : List Frame) (v : Valve), f.pipeline.BuiltIn →
      v.BuiltIn → (s.enterValve f outer f.next).Adds Moment.Foremost
        ((Valve.run steps v).run (s.enterValve f outer f.next)).session) :
    ProceedsForemost steps := by
  intro s f outer hframes hnew hbuilt
  have proceeding := proceed_proceeding (Valve.run steps) s
  generalize (proceed (Valve.run steps)).run s = ending at proceeding ⊢
  cases proceeding with
  | waits _ => exact .of_trail_eq rfl
  | outside _ _ => exact .of_trail_eq rfl
  | again _ _ _ => exact .of_trail_eq rfl
  | ends _ _ _ _ => exact .of_trail_eq rfl
  | @starts g others v _ hwalks _ hvalve =>
    obtain ⟨rfl, rfl⟩ := List.cons.inj (hwalks.symm.trans hframes)
    obtain ⟨hvalves⟩ := id hbuilt
    have begun : s.Adds Moment.Foremost (s.enterValve g others g.next) :=
      .of_moment (Session.trail_mark _ _) nofun
    have ran := begun.trans (h s g others v hbuilt (hvalves v (List.mem_of_getElem? hvalve)))
    have left (failure : Option ValveFailure) (t : Session) :
        t.Adds Moment.Foremost (t.leaveValve g.next g.cursor failure) :=
      .of_moment (t.trail_leaveValve ..) nofun
    rw [Run.run_afterwards]
    generalize (Valve.run steps v).run (s.enterValve g others g.next) = ending at ran ⊢
    cases ending with
    | answered _ t => exact ran.trans (left none t)
    | raised failure t => exact ran.trans (left (some failure) t)
    | exhausted t => exact ran

private theorem proceedsForemost (steps : Nat) : ProceedsForemost steps := by
  induction steps with
  | zero => exact proceedsForemost_of_valve fun s f outer v _ _ => .of_trail_eq rfl
  | succ steps ih =>
    refine proceedsForemost_of_valve fun s f outer v hbuilt hv => ?_
    obtain ⟨hscript, hchildren⟩ := hv
    have owns := Flat.own_keepsTo Conduct.iterating_continues.toAllows steps
      (fun d (_ : d ∈ v.deeds) => trivial) fun p hp => runPipeline_iterating ih (hchildren p hp)
    have here : Foremost (s.enterValve f outer f.next).frames := by
      intro g others hg
      obtain ⟨rfl, -⟩ := List.cons.inj hg
      rfl
    have owned := owns (s.enterValve f outer f.next)
    rw [show Valve.run (steps + 1) v = v.work (Valve.run steps) steps from rfl,
      Valve.work_eq_own _ steps hscript, Run.run_bind]
    generalize (Flat.work.own (runPipeline (Valve.run steps)) steps v).run
      (s.enterValve f outer f.next) = ending at owned ⊢
    cases ending with
    | answered _ t =>
      have rest := ih t { f with cursor := some f.next, reached := some f.next } outer owned.1
        (Nat.le_refl _) hbuilt
      exact (owned.2 here).trans rest
    | raised failure t => exact owned.2 here
    | exhausted t => exact owned here

theorem runPipeline_iterations (steps : Nat) {p : Pipeline} (hp : p.BuiltIn) (s : Session) :
    s.Adds Moment.Foremost ((runPipeline (Valve.run steps) p).run s).session :=
  runPipeline_foremost (proceedsForemost steps) hp s

end Walk

/-- Until its walk is left, no valve of the frame iterates but those behind the running one. -/
def IteratesBehind (f : Frame) (outer : List Frame) (rest : List Moment) : Prop :=
  ∀ inside more, rest = inside ++ more → (∀ r ∈ inside, outer.length < r.frames.length) →
    ∀ r ∈ inside, ∀ g count, r.frames = g :: outer → r.mark = .iterate count → f.next < g.next

/-- A walk that is past a valve does not come back to it. -/
theorem Moves.iteratesBehind {a b : List Frame} {m : Moment} {rest : List Moment} {f : Frame}
    {outer : List Frame} (h : Moves a (m :: rest) b) (hmark : ∀ count, m.mark ≠ .iterate count)
    (hm : Past f.next outer m.frames) (hrest : ∀ r ∈ rest, r.Foremost) :
    IteratesBehind f outer (m :: rest) := by
  intro inside more hsplit hinside r hr g count hframes hiterates
  cases inside with
  | nil => cases hr
  | cons _ inside =>
    obtain ⟨rfl, rfl⟩ := List.cons.inj hsplit
    rcases List.mem_cons.mp hr with rfl | hr
    · exact absurd hiterates (hmark count)
    · cases h with
      | cons _ hmoves =>
        obtain ⟨c, hmoves, -⟩ := hmoves.exists_of_append
        have hpast := hmoves.past hm (List.forall_mem_cons.mp hinside).2 r hr
        obtain ⟨inner, h, hr', hpast⟩ := hpast
        have hforemost := hrest r (List.mem_append_left _ hr) count hiterates g outer hframes
        obtain ⟨rfl, rfl⟩ : inner = [] ∧ h = g := by
          rw [hframes] at hr'
          cases inner with
          | nil => exact ⟨rfl, (List.cons.inj hr').1.symm⟩
          | cons x inner =>
            have hlength : outer.length = inner.length + (outer.length + 1) := by
              simpa using congrArg List.length (List.cons.inj hr').2
            omega
        omega

end ValvePipeline
