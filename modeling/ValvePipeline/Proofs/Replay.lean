import ValvePipeline.Proofs.OwnWork
import ValvePipeline.Proofs.UnwindingLaw

/-!
Attributes replayed. The trail of a run of built-in valves tells what was set in it: what a valve is there
to set when it begins, the counter of a loop when an iteration begins, and the failure that a guarded valve
catches when its first block has ended with one. Set all of this once more, in its order, and the attributes
at the end come out. So nothing else is done to them, and nothing that was set is taken back.
-/

set_option autoImplicit false
set_option relaxedAutoImplicit false

namespace ValvePipeline

/-- What is set at a mark while the valve is running, when these blocks of it have ended before. -/
def Valve.sets (ends : List Moment) : Valve → Mark → List (String × Json)
  | .setAttribute key value, .enterValve _ => [(key, value)]
  | .loop _ config, .iterate count => [(config.counter, .nat count)]
  | .whileLoop _ _ config, .iterate count => [(config.counter, .nat count)]
  | .guarded (some _) (some _) _ config, .leavePipeline (some failure) =>
    if ends.isEmpty then [(config.exceptionName, failure.toJson)] else []
  | _, _ => []

namespace Trail

/-- What is set at a moment, by the valve that is running then. -/
def setAt (history : List Moment) (m : Moment) : List (String × Json) :=
  m.valve?.elim [] fun v => v.sets (ended m.frames.length history) m.mark

/-- What is set at these moments, in its order. The first argument is what came before them. -/
def setSince (history : List Moment) : List Moment → List (String × Json)
  | [] => []
  | m :: later => setAt history m ++ setSince (history ++ [m]) later

theorem setSince_append (history moments later : List Moment) :
    setSince history (moments ++ later) =
      setSince history moments ++ setSince (history ++ moments) later := by
  induction moments generalizing history with
  | nil => rw [List.append_nil, List.nil_append]; rfl
  | cons m moments ih =>
    rw [List.cons_append, setSince, setSince, ih, List.append_assoc, List.append_assoc,
      List.singleton_append]

end Trail

theorem Attributes.setAll_append (a : Attributes) (pairs more : List (String × Json)) :
    a.setAll (pairs ++ more) = (a.setAll pairs).setAll more :=
  List.foldl_append

namespace Session

/-- The attributes of the second session are those of the first one with everything set, in its order,
that the trail tells of in between. -/
def Replays (s t : Session) : Prop :=
  ∃ moments, t.trail = s.trail ++ moments ∧
    t.attributes = s.attributes.setAll (Trail.setSince s.trail moments)

variable {s t u : Session}

namespace Replays

theorem still (htrail : t.trail = s.trail) (hattributes : t.attributes = s.attributes) :
    s.Replays t :=
  ⟨[], by rw [htrail, List.append_nil], hattributes⟩

theorem refl (s : Session) : s.Replays s :=
  .still rfl rfl

theorem trans (h : s.Replays t) (h' : t.Replays u) : s.Replays u := by
  obtain ⟨moments, htrail, hattributes⟩ := h
  obtain ⟨later, htrail', hattributes'⟩ := h'
  refine ⟨moments ++ later, by rw [htrail', htrail, List.append_assoc], ?_⟩
  rw [hattributes', hattributes, htrail, Trail.setSince_append, Attributes.setAll_append]

theorem single {m : Moment} (htrail : t.trail = s.trail ++ [m])
    (hattributes : t.attributes = s.attributes.setAll (Trail.setAt s.trail m)) : s.Replays t := by
  refine ⟨[m], htrail, ?_⟩
  rw [Trail.setSince, Trail.setSince, List.append_nil, hattributes]

theorem of_setAt_eq_nil {m : Moment} (htrail : t.trail = s.trail ++ [m])
    (hm : Trail.setAt s.trail m = []) (hattributes : t.attributes = s.attributes) : s.Replays t :=
  .single htrail (by rw [hm, hattributes]; rfl)

end Replays

end Session

/-- At the mark a running valve may set something. -/
def Mark.maySet : Mark → Bool
  | .enterValve _ | .iterate _ | .leavePipeline (some _) => true
  | _ => false

theorem Valve.sets_eq_nil {m : Mark} (hm : m.maySet = false) (v : Valve) (ends : List Moment) :
    v.sets ends m = [] := by
  unfold sets
  split <;> simp_all [Mark.maySet]

theorem Trail.setAt_eq_nil {m : Moment} (hm : m.mark.maySet = false) (history : List Moment) :
    setAt history m = [] := by
  unfold setAt
  cases m.valve? with
  | none => rfl
  | some v => exact v.sets_eq_nil hm _

theorem Trail.setAt_of_valve {m : Moment} {v : Valve} (hv : m.valve? = some v)
    (history : List Moment) : setAt history m = v.sets (ended m.frames.length history) m.mark := by
  rw [setAt, hv]
  rfl

namespace Session

/-- These walks are under way, and their running valve does not catch what its blocks fail with now. -/
def Uncaught (walks : List Frame) (s : Session) : Prop :=
  s.frames = walks ∧ ∀ failure pending, Trail.setAt s.trail ⟨.leavePipeline failure, walks, pending⟩ = []

variable {walks : List Frame} {s t : Session}

theorem Uncaught.of_trail_eq (h : s.Uncaught walks) (htrail : t.trail = s.trail)
    (hframes : t.frames = s.frames) : t.Uncaught walks := by
  unfold Uncaught
  rw [htrail, hframes]
  exact h

theorem Uncaught.of_mark {m : Moment} (h : s.Uncaught walks) (htrail : t.trail = s.trail ++ [m])
    (hm : m.mark.yields = false) (hframes : t.frames = s.frames) : t.Uncaught walks := by
  refine ⟨hframes.trans h.1, fun failure pending => ?_⟩
  rw [← h.2 failure pending, Trail.setAt, Trail.setAt, htrail, Trail.ended_concat_of_ne hm]

/-- Once a block has ended none is the first one any more. -/
theorem uncaught_of_ended (hframes : s.frames = walks) (h : Trail.ended walks.length s.trail ≠ []) :
    s.Uncaught walks := by
  refine ⟨hframes, fun failure pending => ?_⟩
  unfold Trail.setAt
  cases Moment.valve? ⟨.leavePipeline failure, walks, pending⟩ with
  | none => rfl
  | some v =>
    show v.sets _ (.leavePipeline failure) = []
    unfold Valve.sets
    split <;> simp_all

end Session

namespace Conduct

/-- No attribute is set. -/
def unset : Conduct where
  done s t := t.attributes = s.attributes
  cut _ _ := True

theorem unset_allows : unset.Allows fun _ => False where
  refl _ := rfl
  trans h h' := Eq.trans h' h
  cut_refl _ := trivial
  cut_trans _ _ := trivial
  log _ _ _ _ := rfl
  note _ _ := rfl
  pend _ _ := rfl
  mark _ _ _ := rfl
  report s type data _ := s.attributes_emit type data
  deed hd _ := hd.elim

def replaying (walks : List Frame) : Conduct where
  done s t := s.Uncaught walks → t.Uncaught walks ∧ s.Replays t
  cut _ _ := True

variable {walks : List Frame} {s t : Session}

theorem replaying_composes (walks : List Frame) : (replaying walks).Composes where
  refl s hs := ⟨hs, .refl s⟩
  trans h h' hs := by
    obtain ⟨ht, first⟩ := h hs
    obtain ⟨hu, second⟩ := h' ht
    exact ⟨hu, first.trans second⟩
  cut_refl _ := trivial
  cut_trans _ _ := trivial

theorem replaying_still (htrail : t.trail = s.trail) (hattributes : t.attributes = s.attributes)
    (hframes : t.frames = s.frames) : (replaying walks).done s t :=
  fun hs => ⟨hs.of_trail_eq htrail hframes, .still htrail hattributes⟩

theorem replaying_marked {m : Moment} (htrail : t.trail = s.trail ++ [m])
    (hm : m.mark.yields = false) (hset : m.mark.maySet = false)
    (hattributes : t.attributes = s.attributes) (hframes : t.frames = s.frames) :
    (replaying walks).done s t :=
  fun hs => ⟨hs.of_mark htrail hm hframes,
    .of_setAt_eq_nil htrail (Trail.setAt_eq_nil hset s.trail) hattributes⟩

/-- The running valve of these walks is a loop that counts so. -/
def Counts (walks : List Frame) (config : LoopConfig) : Prop :=
  ∀ history count pending, Trail.setAt history ⟨.iterate count, walks, pending⟩ =
    [(config.counter, .nat count)]

theorem replaying_begin {config : LoopConfig} (h : Counts walks config) (count : Nat) (s : Session) :
    (replaying walks).done s (Loop.begin config count s) := by
  intro hs
  have hframes : (Loop.begin config count s).frames = s.frames :=
    steady_continues.begin config trivial count s
  have htrail : (Loop.begin config count s).trail =
      s.trail ++ [⟨.iterate count, walks, s.pending⟩] := by
    rw [← hs.1, ← hframes, ← s.pending_begin config count]
    exact (Session.trail_mark _ _).trans (by rw [Session.trail_emit]; rfl)
  refine ⟨hs.of_mark htrail rfl hframes, .single htrail ?_⟩
  rw [h]
  exact Session.attributes_emit ..

/-- But for what guarded valves catch and other valves set, every step of the engine is replayed. -/
theorem replaying_habit (walks : List Frame) : Habit (fun _ _ x => x.KeepsTo (replaying walks))
    (fun _ => True) (fun _ => True) fun setting =>
      ∃ config, setting = .counter config ∧ Counts walks config where
  pure := (replaying_composes walks).pure
  raise := (replaying_composes walks).raise
  outOfSteps := (replaying_composes walks).outOfSteps
  bind := (replaying_composes walks).bind
  attempt h := h.attempt
  log _ _ _ := Continues.update fun _ => replaying_still rfl rfl rfl
  record _ _ _ := Continues.update fun _ => replaying_still rfl rfl rfl
  set _ h := by
    obtain ⟨_, hsetting, -⟩ := h
    cases hsetting
  ask {_ condition} _ := Continues.act fun s => by
    obtain ⟨_, _, _, htrail⟩ := s.trail_ask condition
    exact replaying_marked htrail rfl rfl (unset_allows.ask s condition) (s.frames_ask condition)
  request signal := Continues.update fun s =>
    replaying_marked (s.trail_requestBreak signal) rfl rfl (unset_allows.request s signal)
      (steady_continues.request s signal)
  settle label := Continues.act fun s =>
    replaying_still (s.trail_settle label) (unset_allows.settle s label) (s.frames_settle label)
  setAside := Continues.act fun _ => replaying_still rfl rfl rfl
  bringBack _ := Continues.update fun _ => replaying_still rfl rfl rfl
  begin count h := by
    obtain ⟨config, hsetting, hcounts⟩ := h
    cases hsetting
    exact Continues.update (replaying_begin hcounts count)
  catching _ h := by
    obtain ⟨_, hsetting, -⟩ := h
    cases hsetting

end Conduct

namespace Walk

open Conduct (nested_covers replaying replaying_composes replaying_habit)

variable {s t u : Session} {steps : Nat}

/-- With this allowance of steps what the rest of a walk sets is replayed. -/
private def RestReplays (steps : Nat) : Prop :=
  ∀ s t : Session, (∀ f outer, s.frames = f :: outer → f.pipeline.BuiltIn) →
    ((proceed (Valve.run steps)).run s).EndsIn t → s.Replays t

/-- A block has ended, and what it has set is replayed. If it has failed its failure may be set next. -/
private structure BlockLeft (s : Session) (failure : Option ValveFailure) (t : Session) : Prop where
  frames : t.frames = s.frames
  ended : Trail.ended s.frames.length t.trail ≠ []
  replays {u : Session} : u.trail = t.trail → u.attributes = t.attributes.setAll
    (Trail.setAt s.trail ⟨.leavePipeline failure, s.frames, t.pending⟩) → s.Replays u

private inductive BlockReplays (s : Session) : Ending ValveFailure WalkEnd → Prop
  | answered {a : WalkEnd} {t : Session} : BlockLeft s none t → BlockReplays s (.answered a t)
  | raised {failure : ValveFailure} {t : Session} : BlockLeft s (some failure) t →
    BlockReplays s (.raised failure t)
  | exhausted {t : Session} : BlockReplays s (.exhausted t)

private theorem BlockLeft.uncaught {failure : Option ValveFailure} (h : BlockLeft s failure t) :
    t.Uncaught s.frames :=
  Session.uncaught_of_ended h.frames h.ended

private theorem BlockLeft.of_inside {p : Pipeline} (failure : Option ValveFailure)
    (hnested : Conduct.nested.done (s.enterPipeline p) t) (h : (s.enterPipeline p).Replays t) :
    BlockLeft s failure (t.leavePipeline failure) := by
  have hframes : t.frames.tail = s.frames := SameWalks.tail_eq hnested.1
  have hleft := Session.leftBlock_leavePipeline failure hnested
  refine ⟨hframes, ?_, fun {u} htrail hattributes => ?_⟩
  · have hended := hleft.2
    rw [show (t.leavePipeline failure).frames = s.frames from hframes] at hended
    rw [hended]
    exact List.append_ne_nil_of_right_ne_nil _ (List.cons_ne_nil _ _)
  · have entered : s.Replays (s.enterPipeline p) :=
      .of_setAt_eq_nil (s.trail_enterPipeline p) (Trail.setAt_eq_nil rfl s.trail) rfl
    refine (entered.trans h).trans (.single (htrail.trans (t.trail_leavePipeline failure)) ?_)
    -- The moment is the same one, and no block of the valve around it ended inside.
    rw [hattributes, hframes, Trail.setAt, Trail.setAt, Session.ended_inside hnested]
    rfl

private theorem runPipeline_blockReplays (h : RestReplays steps) {p : Pipeline} (hp : p.BuiltIn)
    (s : Session) : BlockReplays s ((runPipeline (Valve.run steps) p).run s) := by
  have keeps := proceed_keepsTo nested_covers (Valve.run_keepsTo nested_covers steps)
  have inside (t : Session) := h (s.enterPipeline p) t fun f outer hf => by
    obtain ⟨rfl, -⟩ := List.cons.inj hf
    exact hp
  simp only [runPipeline, Run.run_bind, Run.run_update, Run.run_afterwards, Run.run_read]
  cases hrun : (proceed (Valve.run steps)).run (s.enterPipeline p) with
  | answered _ t =>
    exact .answered (.of_inside none (keeps.answered hrun) (inside t (by rw [hrun]; rfl)))
  | raised failure t =>
    exact .raised (.of_inside (some failure) (keeps.raised hrun) (inside t (by rw [hrun]; rfl)))
  | exhausted t => exact .exhausted

private theorem runPipeline_replaying (h : RestReplays steps) {p : Pipeline} (hp : p.BuiltIn)
    (walks : List Frame) : (runPipeline (Valve.run steps) p).KeepsTo (replaying walks) := by
  intro s
  have left {failure : Option ValveFailure} {t : Session} (h : BlockLeft s failure t) :
      (replaying walks).done s t := by
    rintro ⟨rfl, huncaught⟩
    exact ⟨h.uncaught, h.replays rfl (by rw [huncaught]; rfl)⟩
  have ended := runPipeline_blockReplays h hp s
  generalize (runPipeline (Valve.run steps) p).run s = ending at ended ⊢
  cases ended with
  | answered hleft => exact left hleft
  | raised hleft => exact left hleft
  | exhausted => trivial

/-- The valve has just begun in the innermost walk of the second session. -/
private structure JustBegun (s : Session) (v : Valve) (t : Session) : Prop where
  running : t.frames.head?.bind Frame.valve? = some v
  trail : ∃ i, t.trail = s.trail ++ [⟨.enterValve i, t.frames, s.pending⟩]
  attributes : t.attributes = s.attributes

private theorem justBegun_enterValve {f : Frame} {i : Nat} {v : Valve}
    (hvalve : f.pipeline.valves[i]? = some v) (s : Session) (outer : List Frame) :
    JustBegun s v (s.enterValve f outer i) :=
  ⟨hvalve, ⟨i, Session.trail_mark _ _⟩, rfl⟩

private theorem JustBegun.setAt {v : Valve} (h : JustBegun s v t) (history : List Moment) (m : Mark)
    (pending : Option Signal) :
    Trail.setAt history ⟨m, t.frames, pending⟩ = v.sets (Trail.ended t.frames.length history) m :=
  Trail.setAt_of_valve (m := ⟨m, t.frames, pending⟩) h.running history

private theorem JustBegun.replays {v : Valve} (h : JustBegun s v t)
    (hsets : ∀ ends i, v.sets ends (.enterValve i) = []) : s.Replays t := by
  obtain ⟨i, htrail⟩ := h.trail
  exact .of_setAt_eq_nil htrail ((h.setAt ..).trans (hsets _ i)) h.attributes

/-- A valve that neither sets a name nor catches a failure. -/
private theorem own_ordinary (hrest : RestReplays steps) {v : Valve} (hv : v.BuiltIn)
    (hbegun : JustBegun s v t) (henter : ∀ ends i, v.sets ends (.enterValve i) = [])
    (hleave : ∀ ends failure, v.sets ends (.leavePipeline failure) = [])
    (hsettings : ∀ setting ∈ v.settings, ∃ config, setting = .counter config ∧
      ∀ ends count, v.sets ends (.iterate count) = [(config.counter, .nat count)])
    (h : ((Flat.work.own (runPipeline (Valve.run steps)) steps v).run t).EndsIn u) :
    s.Replays u := by
  have counts : ∀ setting ∈ v.settings, ∃ config, setting = .counter config ∧
      Conduct.Counts t.frames config := by
    intro setting hsetting
    obtain ⟨config, rfl, hcount⟩ := hsettings setting hsetting
    exact ⟨config, rfl, fun history count pending => (hbegun.setAt ..).trans (hcount ..)⟩
  have owns := (replaying_habit t.frames).own steps (fun _ _ => trivial) trivial counts fun p hp =>
    runPipeline_replaying hrest (hv.child hp) t.frames
  have uncaught : t.Uncaught t.frames :=
    ⟨rfl, fun failure pending => (hbegun.setAt ..).trans (hleave ..)⟩
  exact (hbegun.replays henter).trans (owns.endsIn h uncaught).2

/-- The failure of the first block is set once it has ended, and no other block of the valve is caught. -/
private theorem own_catching (hrest : RestReplays steps) {block handler : Pipeline}
    {finallyBlock : Option Pipeline} {config : CatchConfig}
    (hv : (Valve.guarded (some block) (some handler) finallyBlock config).BuiltIn)
    (hbegun : JustBegun s (.guarded (some block) (some handler) finallyBlock config) t)
    (hended : Trail.ended t.frames.length t.trail = [])
    (h : ((Flat.guarded (runPipeline (Valve.run steps)) (some block) (some handler) finallyBlock
      config).run t).EndsIn u) : s.Replays u := by
  have began : s.Replays t := hbegun.replays fun _ _ => rfl
  have walks (p : Pipeline)
      (hp : p ∈ (Valve.guarded (some block) (some handler) finallyBlock config).children) :
      (runPipeline (Valve.run steps) p).KeepsTo (replaying t.frames) :=
    runPipeline_replaying hrest (hv.child hp) t.frames
  have habit := replaying_habit t.frames
  have closes (ending : Except ValveFailure (Option Pipeline)) :
      (Flat.close (runPipeline (Valve.run steps)) finallyBlock ending).KeepsTo (replaying t.frames) :=
    habit.close (fun p hp => walks p (by simp_all [Valve.children])) ending
  have handles : (Guarded.runBlock (runPipeline (Valve.run steps)) handler :
      Run ValveFailure _).KeepsTo (replaying t.frames) :=
    habit.runBlock (walks handler (by simp [Valve.children]))
  have tried := runPipeline_blockReplays hrest (hv.child (p := block) (by simp [Valve.children])) t
  cases hrun : (runPipeline (Valve.run steps) block).run t with
  | answered a r =>
    rw [hrun] at tried
    obtain ⟨ending, hending⟩ : ∃ ending, (Guarded.runProtected (runPipeline (Valve.run steps))
        (some block) (some handler) config : Run ValveFailure _).run t = .answered ending r := by
      simp only [Guarded.runProtected, Guarded.runBlock, Run.run_bind, Run.run_attempt, hrun]
      cases a <;> exact ⟨_, rfl⟩
    simp only [Flat.guarded, Run.run_bind, hending] at h
    cases tried with
    | answered hleft =>
      have caught : t.Replays r := hleft.replays rfl (by rw [hbegun.setAt]; rfl)
      exact (began.trans caught).trans ((closes ending).endsIn h hleft.uncaught).2
  | raised failure r =>
    rw [hrun] at tried
    rw [Flat.run_guarded_of_raised hrun] at h
    cases tried with
    | raised hleft =>
      have htrail := Guarded.catching_trail config failure r
      have hframes : (Guarded.catching config failure r).frames = r.frames :=
        Conduct.steady_continues.catching config trivial failure r
      have caught : t.Replays (Guarded.catching config failure r) := by
        refine hleft.replays htrail ?_
        rw [hbegun.setAt, hended]
        exact congrArg (·.set config.exceptionName failure.toJson) (Session.attributes_emit ..)
      have mends := (replaying_composes t.frames).bind handles closes
      have uncaught := hleft.uncaught.of_trail_eq htrail hframes
      exact (began.trans caught).trans (mends.endsIn h uncaught).2
  | exhausted r =>
    simp only [Flat.guarded, Guarded.runProtected, Guarded.runBlock, Run.run_bind, Run.run_attempt,
      hrun] at h
    exact h.elim

private theorem own_replays (hrest : RestReplays steps) {v : Valve} (hv : v.BuiltIn)
    (hbegun : JustBegun s v t) (hended : Trail.ended t.frames.length t.trail = [])
    (h : ((Flat.work.own (runPipeline (Valve.run steps)) steps v).run t).EndsIn u) :
    s.Replays u := by
  have ordinary := own_ordinary (u := u) hrest hv hbegun
  cases v with
  | setAttribute key value =>
    obtain ⟨i, htrail⟩ := hbegun.trail
    obtain rfl : t.setAttribute key value = u := h
    refine .single htrail ?_
    rw [hbegun.setAt, show (t.setAttribute key value).attributes = t.attributes.set key value from rfl,
      hbegun.attributes]
    rfl
  | loop body config =>
    refine ordinary (fun _ _ => rfl) (fun _ failure => by cases failure <;> rfl) ?_ h
    exact List.forall_mem_singleton.mpr ⟨config, rfl, fun _ _ => rfl⟩
  | whileLoop condition body config =>
    refine ordinary (fun _ _ => rfl) (fun _ failure => by cases failure <;> rfl) ?_ h
    exact List.forall_mem_singleton.mpr ⟨config, rfl, fun _ _ => rfl⟩
  | guarded tryBlock catchBlock finallyBlock config =>
    cases tryBlock with
    | none => exact ordinary (fun _ _ => rfl) (fun _ failure => by cases failure <;> rfl) nofun h
    | some block =>
      cases catchBlock with
      | none => exact ordinary (fun _ _ => rfl) (fun _ failure => by cases failure <;> rfl) nofun h
      | some handler => exact own_catching hrest hv hbegun hended h
  | _ => exact ordinary (fun _ _ => rfl) (fun _ failure => by cases failure <;> rfl) nofun h

private theorem restReplays_of_valve
    (h : ∀ (s t : Session) (f : Frame) (outer : List Frame) (v : Valve), f.pipeline.BuiltIn →
      f.pipeline.valves[f.next]? = some v →
      ((Valve.run steps v).run (s.enterValve f outer f.next)).EndsIn t → s.Replays t) :
    RestReplays steps := by
  intro s t hwalks hended
  have proceeding := proceed_proceeding (Valve.run steps) s
  generalize (proceed (Valve.run steps)).run s = ending at proceeding hended
  cases proceeding with
  | waits _ => exact hended ▸ .refl s
  | outside _ _ => exact hended ▸ .still rfl rfl
  | again _ _ _ => exact hended ▸ .still rfl rfl
  | ends _ _ _ _ => exact hended ▸ .refl s
  | @starts f outer v _ hframes _ hvalve =>
    obtain ⟨u, failure, hu, rfl⟩ := Run.endsIn_afterwards hended
    refine (h s u f outer v (hwalks f outer hframes) hvalve hu).trans ?_
    exact .of_setAt_eq_nil (u.trail_leaveValve ..) (Trail.setAt_eq_nil rfl u.trail) rfl

private theorem restReplays (steps : Nat) : RestReplays steps := by
  induction steps with
  | zero => exact restReplays_of_valve fun _ _ _ _ _ _ _ h => h.elim
  | succ steps ih =>
    refine restReplays_of_valve fun s t f outer v hp hvalve hended => ?_
    obtain ⟨hvalves⟩ := hp
    have hv : v.BuiltIn := hvalves v (List.mem_of_getElem? hvalve)
    have own (u : Session) := own_replays (u := u) ih hv (justBegun_enterValve hvalve s outer)
      (s.atTurn_enterValve f outer f.next).1
    have steady := Flat.own_keepsTo (v := v) Conduct.steady_continues.toAllows steps
      (fun _ _ => trivial) (fun p _ => runPipeline_steady
        (Valve.run_keepsTo Conduct.balanced_covers steps) p) (s.enterValve f outer f.next)
    obtain ⟨hscript, -⟩ := hv
    rw [show Valve.run (steps + 1) v = v.work (Valve.run steps) steps from rfl,
      Valve.work_eq_own _ steps hscript, Run.run_bind] at hended
    generalize (Flat.work.own (runPipeline (Valve.run steps)) steps v).run
      (s.enterValve f outer f.next) = ending at own steady hended
    cases ending with
    | answered _ r =>
      refine (own r rfl).trans (ih r t (fun g others hg => ?_) hended)
      obtain ⟨rfl, -⟩ := List.cons.inj (steady.symm.trans hg)
      exact ⟨hvalves⟩
    | raised _ r => exact own t hended
    | exhausted _ => exact hended.elim

theorem runPipeline_replays {p : Pipeline} (hp : p.BuiltIn) (hframes : s.frames = [])
    (h : ((runPipeline (Valve.run steps) p).run s).EndsIn t) : s.Replays t := by
  have uncaught : s.Uncaught [] := ⟨hframes, fun _ _ => rfl⟩
  exact ((runPipeline_replaying (restReplays steps) hp []).endsIn h uncaught).2

/-- A run does to the attributes and the trail what its walk does: its reports touch neither. -/
theorem invoke_of_walk {ε : Type} {start : Starter} {result : Except RunFailure Outcome}
    {related : Session → Session → Prop}
    (htrans : ∀ {s t u : Session}, related s t → related t u → related s u)
    (hstill : ∀ {s t : Session}, t.trail = s.trail → t.attributes = s.attributes → related s t)
    (hwalk : ∀ {t : Session}, ((runPipeline start s.pipeline).run (launched s)).EndsIn t →
      related (launched s) t)
    (h : (invoke (runPipeline start) : Run ε _).run s = .answered result t) : related s t := by
  have began : related s (launched s) :=
    hstill (Session.trail_emit { s with invoked := true } ..) (Session.attributes_emit ..)
  have reported {u : Session} (hu : ((runPipeline start s.pipeline).run (launched s)).EndsIn u)
      (htrail : t.trail = u.trail) (hattributes : t.attributes = u.attributes) : related s t :=
    htrans began (htrans (hwalk hu) (hstill htrail hattributes))
  have invoking := invoke_invoking (ε := ε) start s
  rw [h] at invoking
  cases invoking with
  | refused _ => exact hstill rfl rfl
  | completed _ hrun _ =>
    exact reported (by rw [hrun]; rfl) (Session.trail_emit ..) (Session.attributes_emit ..)
  | @unwound u _ _ hrun _ =>
    exact reported (u := u) (by rw [hrun]; rfl) (Session.trail_emit ..) (Session.attributes_emit ..)
  | @failed u _ _ hrun =>
    exact reported (u := u) (by rw [hrun]; rfl) (Session.trail_emit ..) (Session.attributes_emit ..)

theorem invoke_replays {result : Except RunFailure Outcome} (hp : s.pipeline.BuiltIn)
    (hframes : s.frames = []) (h : s.invoke steps = .answered result t) : s.Replays t :=
  invoke_of_walk (ε := Empty) .trans .still
    (fun hwalk => runPipeline_replays hp ((launched_frames s).trans hframes) hwalk) h

end Walk

end ValvePipeline
