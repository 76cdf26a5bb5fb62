import ValvePipeline.Proofs.Trail

/-!
Discipline and balance of walks. In every run, whatever its scripts do, the valves of each walk start
in order, one inside the other, with no signal pending; and every call on the engine comes back to
the walks it was made in, so that the depth and the place of a running valve are its own at every
moment.
-/

set_option autoImplicit false
set_option relaxedAutoImplicit false

namespace ValvePipeline

def Session.makeCalls (steps : Nat) : List Call → Session → Ending Empty Unit
  | [], s => .answered () s
  | call :: calls, s =>
    match s.makeCall steps call with
    | .answered _ t => makeCalls steps calls t
    | .raised _ t => makeCalls steps calls t
    | .exhausted t => .exhausted t

theorem Conduct.Carries.makeCalls {c : Conduct} {may : Deed → Prop} {admits : Pipeline → Prop}
    {steps : Nat} (hc : c.Carries may admits (Valve.run steps)) {calls : List Call}
    (h : ∀ made ∈ calls, made.Admitted may admits) :
    (⟨Session.makeCalls steps calls⟩ : Run Empty Unit).KeepsTo c := by
  induction calls with
  | nil => exact hc.pure ()
  | cons call calls ih =>
    have first := hc.perform (h call List.mem_cons_self)
    have later := ih fun made hmade => h made (List.mem_cons_of_mem _ hmade)
    have whole : (⟨Session.makeCalls steps (call :: calls)⟩ : Run Empty Unit) =
        Run.attempt (call.perform (Valve.run steps)) >>= fun _ =>
          ⟨Session.makeCalls steps calls⟩ := by
      ext s
      simp only [Session.makeCalls, Session.makeCall, Run.run_bind, Run.run_attempt]
      cases (call.perform (Valve.run steps)).run s <;> rfl
    rw [whole]
    exact hc.bind first.attempt fun _ => later

theorem Session.makeCalls_disciplined (steps : Nat) (calls : List Call) {s : Session}
    (h : Disciplined s) : Disciplined (s.makeCalls steps calls).session := by
  have carries := Conduct.disciplined_covers.carries
    (Valve.run_keepsTo Conduct.disciplined_covers steps)
  have kept := carries.makeCalls fun made (_ : made ∈ calls) => made.admitted
  cases hcalls : s.makeCalls steps calls with
  | answered reply t => exact (kept.answered hcalls).2 h
  | raised what t => exact what.elim
  | exhausted t => exact kept.exhausted hcalls h

theorem Session.start_disciplined (p : Pipeline) (sink : Sink) (identity : Identity)
    (attributes : Attributes) :
    Disciplined { Session.start p sink identity with attributes } where
  bounded := nofun
  nests before label after split := by simp [Session.trail, Session.start] at split
  fresh m hm := by simp [Session.trail, Session.start] at hm
  running := rfl
  moments before m after split := by simp [Session.trail, Session.start] at split

/-- A session to which some calls from outside have led; the allowance may have been spent in the
middle of the last one. -/
def Session.Reachable (s : Session) : Prop :=
  ∃ p sink identity attributes steps calls,
    s = (makeCalls steps calls { Session.start p sink identity with attributes }).session

theorem Session.Reachable.disciplined {s : Session} (h : s.Reachable) : Disciplined s := by
  obtain ⟨p, sink, identity, attributes, steps, calls, rfl⟩ := h
  exact makeCalls_disciplined steps calls (start_disciplined p sink identity attributes)

namespace Trail

def starts (after : List Mark) : List Nat :=
  (turns 0 after).filterMap fun
    | .starts i => some i
    | .ends _ => none

/-- The valves of a walk start in order, and each one after the first while the one before it runs.
The marks follow the walk's beginning. -/
structure InOrder (after : List Mark) : Prop where
  order : ∃ n, starts after = List.range n
  running {earlier later : List Turn} {i : Nat} :
    turns 0 after = earlier ++ .starts (i + 1) :: later → .starts i ∈ earlier ∧ .ends i ∉ earlier

private theorem nest_before {n i : Nat} {earlier later : List Turn}
    (h : nest n = earlier ++ .starts i :: later) : earlier = (List.range i).map .starts := by
  have hat : (nest n)[earlier.length]? = some (.starts i) := by simp [h]
  have hplace : earlier.length < n ∧ earlier.length = i := by
    rw [nest, nestTo, List.getElem?_append] at hat
    split at hat
    · rename_i hlt
      simp only [List.length_map, List.length_range] at hlt
      simp only [List.getElem?_map, List.getElem?_range hlt, Option.map_some, Option.some.injEq,
        Turn.starts.injEq] at hat
      exact ⟨hlt, hat⟩
    · obtain ⟨j, -, hj⟩ := List.mem_map.mp (List.mem_of_getElem? hat)
      cases hj
  obtain ⟨hlt, rfl⟩ := hplace
  have htake : (nest n).take earlier.length = earlier := by simp [h]
  rw [nest, nestTo, List.take_append_of_le_length (by simpa using Nat.le_of_lt hlt), ← List.map_take,
    List.take_range, Nat.min_eq_left (Nat.le_of_lt hlt)] at htake
  exact htake.symm

private theorem starts_nest (n : Nat) :
    (nest n).filterMap (fun | .starts i => some i | .ends _ => none) = List.range n := by
  rw [nest, nestTo, List.filterMap_append, List.filterMap_map, List.filterMap_map]
  have hends : (((List.range n).drop 0).reverse.filterMap fun _ => (none : Option Nat)) = [] := by
    rw [List.filterMap_eq_nil_iff]
    intro place _
    rfl
  have hstarts : (List.range n).filterMap some = List.range n := List.filterMap_some
  calc
    _ = (List.range n).filterMap some ++
          (((List.range n).drop 0).reverse.filterMap fun _ => (none : Option Nat)) := rfl
    _ = List.range n := by rw [hstarts, hends, List.append_nil]

theorem Nests.prefix_nest {marks : List Mark} {frames : List Frame} (h : Nests marks frames)
    {before after : List Mark} {label : Option String}
    (split : marks = before ++ .enterPipeline label :: after) :
    ∃ n, turns 0 after <+: nest n := by
  have := h before label after split
  cases hinside : inside 0 after with
  | none =>
    obtain ⟨n, hn⟩ := by simpa only [hinside] using this
    exact ⟨n, hn ▸ List.prefix_rfl⟩
  | some k =>
    obtain ⟨f, -, hf⟩ := by simpa only [hinside] using this
    exact ⟨f.started, hf ▸ nestTo_prefix f.started f.next⟩

theorem Nests.inOrder {marks : List Mark} {frames : List Frame} (h : Nests marks frames)
    {before after : List Mark} {label : Option String}
    (split : marks = before ++ .enterPipeline label :: after) : InOrder after := by
  obtain ⟨n, hprefix⟩ := h.prefix_nest split
  constructor
  · have hstarts := hprefix.filterMap (fun | .starts i => some i | .ends _ => none)
    rw [starts_nest, List.prefix_iff_eq_take, List.take_range] at hstarts
    exact ⟨_, hstarts⟩
  · intro earlier later i hturns
    obtain ⟨rest, hrest⟩ := hprefix
    rw [hturns, List.append_assoc, List.cons_append] at hrest
    rw [nest_before hrest.symm]
    simp

end Trail

namespace Walk

def LogsOnly (s t : Session) : Prop :=
  ∃ log, t = { s with transcript := { s.transcript with log } }

/-- Where a call on the rest has come back and the walk still has a place that was not started, that
place lies after the last valve. -/
private theorem proceed_reaches_end {start : Starter}
    (hstart : ∀ v, (start v).KeepsTo .balanced) {s t : Session} {frame : Frame}
    {outer : List Frame} (h : ((proceed start).run s).EndsIn t) (hpending : t.pending = none)
    (hframes : t.frames = frame :: outer) (hnew : frame.hasStarted frame.next = false) :
    frame.pipeline.valves[frame.next]? = none := by
  have proceeding := proceed_proceeding start s
  generalize (proceed start).run s = ending at proceeding h
  cases proceeding with
  | waits hwaits =>
    obtain rfl : s = t := h
    rw [hpending] at hwaits
    cases hwaits
  | outside _ hwalks =>
    obtain rfl : s.log _ _ _ = t := h
    cases hwalks.symm.trans hframes
  | again _ hwalks hstarted =>
    obtain rfl : s.log _ _ _ = t := h
    obtain ⟨rfl, -⟩ := List.cons.inj (hwalks.symm.trans hframes)
    rw [hstarted] at hnew
    cases hnew
  | ends _ hwalks _ hvalve =>
    obtain rfl : s = t := h
    obtain ⟨rfl, -⟩ := List.cons.inj (hwalks.symm.trans hframes)
    exact hvalve
  | @starts f rest valve _ _ _ _ =>
    obtain ⟨u, failure, hu, rfl⟩ := Run.endsIn_afterwards h
    obtain ⟨g, hg, -, -, hplace⟩ := SameWalks.of_cons ((hstart valve).endsIn hu)
    rw [Session.frames_leaveValve _ _ _ hg] at hframes
    obtain ⟨rfl, -⟩ := List.cons.inj hframes
    -- the valve has started, so its place is not a new one any more
    rw [Frame.hasStarted_eq_false_iff] at hnew
    have hlt : g.started < f.next + 1 := Nat.lt_succ_of_le hnew
    exact absurd hplace (Nat.not_le.mpr hlt)

theorem proceed_again {start again : Starter} (hstart : ∀ v, (start v).KeepsTo .balanced)
    {s t : Session} (h : ((proceed start).run s).EndsIn t) :
    ∃ u, (proceed again).run t = .answered () u ∧ LogsOnly t u := by
  have proceeding := proceed_proceeding again t
  generalize (proceed again).run t = ending at proceeding ⊢
  cases proceeding with
  | waits _ => exact ⟨t, rfl, _, rfl⟩
  | outside _ _ => exact ⟨_, rfl, _, rfl⟩
  | again _ _ _ => exact ⟨_, rfl, _, rfl⟩
  | ends _ _ _ _ => exact ⟨t, rfl, _, rfl⟩
  | starts hpending hframes hnew hvalve =>
    have hend := proceed_reaches_end hstart h hpending hframes hnew
    cases hend.symm.trans hvalve

/-- Whatever the scripts do: the valves of each walk start in order and one inside the other, no valve
starts while a signal is pending, and a valve that has proceeded starts nothing more. -/
theorem discipline {s : Session} (h : s.Reachable) (steps again : Nat) :
    (∀ before label after, s.trail.map (·.mark) = before ++ .enterPipeline label :: after →
      Trail.InOrder after) ∧
    (∀ m ∈ s.trail, ∀ i, m.mark = .enterValve i → m.pending = none) ∧
    ∀ t u : Session, ((proceed (Valve.run steps)).run t).EndsIn u →
      ∃ v, (proceed (Valve.run again)).run u = .answered () v ∧ LogsOnly u v := by
  have hdisciplined := h.disciplined
  have hbalanced := Valve.run_keepsTo Conduct.balanced_covers steps
  refine ⟨?_, hdisciplined.fresh, ?_⟩
  · intro before label after split
    exact hdisciplined.nests.inOrder split
  · intro t u hended
    exact proceed_again hbalanced hended

private def insistence : Script :=
  .call .tryProceed fun _ => .call .proceed fun _ => .finish .goOn

private def insistent : Pipeline :=
  ⟨none, [.scripted "again" insistence, .failing "last" "no"]⟩

private def insistentSession : Session :=
  (Session.makeCalls 4 [.invoke] (Session.start insistent .discard {})).session

private theorem insistent_reachable : insistentSession.Reachable :=
  ⟨insistent, .discard, {}, {}, 4, [.invoke], rfl⟩

private def insistentWalk : Session :=
  ((Session.start insistent .discard {}).enterPipeline insistent).enterValve
    { pipeline := insistent } [] 0

theorem discipline_of_insistent :
    let after := [.enterValve 0, .call, .enterValve 1,
      .leaveValve 1 (some (.failed "last" { message := "no" })), .call, .leaveValve 0 none,
      .leavePipeline none]
    (insistentSession.trail.map (·.mark) = [] ++ .enterPipeline none :: after ∧
      Trail.starts after = [0, 1] ∧ Trail.InOrder after) ∧
    (insistentSession.trail[3].mark = .enterValve 1 ∧ insistentSession.trail[3].pending = none) ∧
    ∃ u, (proceed (Valve.run 3)).run insistentWalk =
        .raised (.failed "last" { message := "no" }) u ∧
      ∃ v, (proceed (Valve.run 3)).run u = .answered () v ∧ LogsOnly u v := by
  have law := discipline insistent_reachable 3 3
  refine ⟨⟨rfl, rfl, law.1 [] none _ rfl⟩, ⟨rfl, ?_⟩, ⟨_, rfl, law.2.2 insistentWalk _ rfl⟩⟩
  exact law.2.1 insistentSession.trail[3] (List.getElem_mem _) 1 rfl

end Walk

/-- A script that begins in one session comes, some calls later, to the rest of it in another. -/
inductive Script.Reaches (start : Starter) : Script → Session → Script → Session → Prop
  | refl {script : Script} {s : Session} : Reaches start script s script s
  | note {entry : String} {script rest : Script} {s t : Session} :
    Reaches start script (s.note entry) rest t → Reaches start (.note entry script) s rest t
  | call {made : Call} {next : Except Raised Reply → Script} {reply : Except Raised Reply}
    {rest : Script} {s u t : Session} :
    (Run.attempt (made.perform start) : Run Raised (Except Raised Reply)).run (s.mark .call) =
      .answered reply u →
    Reaches start (next reply) u rest t → Reaches start (.call made next) s rest t

namespace SameWalks

theorem depth_eq {s t : Session} (h : SameWalks s.frames t.frames) : t.depth = s.depth :=
  h.length_eq

theorem index_eq {s t : Session} (h : SameWalks s.frames t.frames) : t.index = s.index :=
  h.cursor_eq

end SameWalks

theorem Conduct.Carries.reaches {c : Conduct} {may : Deed → Prop} {admits : Pipeline → Prop}
    {start : Starter} (hc : c.Carries may admits start) {script rest : Script} {s t : Session}
    (h : Script.Reaches start script s rest t) (hscript : script.Admitted may admits) :
    c.done s t := by
  induction h with
  | refl => exact hc.refl _
  | note _ ih =>
    cases hscript with
    | note hrest => exact hc.trans (hc.note ..) (ih hrest)
  | @call made next reply rest s u t hcall _ ih =>
    cases hscript with
    | call hmade hnext =>
      have kept := (hc.perform hmade).attempt (δ := Raised)
      have called : c.done s u := hc.trans (hc.mark s rfl) (kept.answered hcall)
      exact hc.trans called (ih (hnext reply))

theorem Script.Reaches.sameWalks {start : Starter} (hstart : ∀ v, (start v).KeepsTo .balanced)
    {script rest : Script} {s t : Session} (h : Reaches start script s rest t) :
    SameWalks s.frames t.frames :=
  (Conduct.balanced_covers.carries hstart).reaches h script.admitted

private theorem Disciplined.position {s : Session} (h : Disciplined s) {before after : List Moment}
    {m : Moment} (split : s.trail = before ++ m :: after) :
    m.depth = (Trail.running ((before ++ [m]).map (·.mark))).length ∧
      m.index = (Trail.running ((before ++ [m]).map (·.mark))).head?.bind List.head? := by
  rw [h.moments before m after split]
  refine ⟨(List.length_map _).symm, ?_⟩
  unfold Moment.index
  cases m.frames with
  | nil => rfl
  | cons f outer => exact f.head?_running.symm

namespace Walk

variable {ε : Type}

theorem runBoundary_steady {start : Starter} (hstart : ∀ v, (start v).KeepsTo .balanced)
    (p : Pipeline) : (runBoundary (runPipeline start) p).KeepsTo .steady :=
  runBoundary_keepsTo Conduct.steady_continues.toAllows (runPipeline_steady hstart p)

theorem invoke_steady {start : Starter} (hstart : ∀ v, (start v).KeepsTo .balanced) :
    (invoke (runPipeline start) : Run ε (Except RunFailure Outcome)).KeepsTo .steady :=
  invoke_keepsTo Conduct.steady_continues (runPipeline_steady hstart)

/-- Every call on the engine comes back to the walks it was made in, whether it answers or raises. So
the depth and the index are at every moment those of the running valve, and nothing is left of the
walks after a run from outside. -/
theorem balance (steps : Nat) :
    ((∀ p, (runPipeline (Valve.run steps) p).KeepsTo .steady) ∧
      (∀ p, (runBoundary (runPipeline (Valve.run steps)) p).KeepsTo .steady) ∧
      (∀ label, (settle label : Run ValveFailure Settlement).KeepsTo .steady) ∧
      (invoke (runPipeline (Valve.run steps)) : Run Raised (Except RunFailure Outcome)).KeepsTo
        .steady ∧
      (proceed (Valve.run steps)).KeepsTo .balanced ∧
      (∀ settlement, (resumeAfter (Valve.run steps) settlement).KeepsTo .balanced) ∧
      ∀ v, (Valve.run steps v).KeepsTo .balanced) ∧
    (∀ s : Session, s.Reachable → ∀ before m after, s.trail = before ++ m :: after →
      m.depth = (Trail.running ((before ++ [m]).map (·.mark))).length ∧
        m.index = (Trail.running ((before ++ [m]).map (·.mark))).head?.bind List.head?) ∧
    (∀ (s t : Session) frame outer i script rest,
      Script.Reaches (Valve.run steps) script (s.enterValve frame outer i) rest t →
        t.depth = outer.length + 1 ∧ t.index = some i) ∧
    ∀ s t : Session, s.frames = [] → (s.invoke steps).EndsIn t → t.depth = 0 ∧ t.index = none := by
  have covers := Conduct.balanced_covers
  have hstart := Valve.run_keepsTo covers steps
  refine ⟨⟨runPipeline_steady hstart, runBoundary_steady hstart,
    settle_keepsTo Conduct.steady_continues, invoke_steady hstart, proceed_keepsTo covers hstart,
    resumeAfter_keepsTo covers hstart, hstart⟩, ?_, ?_, ?_⟩
  · intro s hs before m after split
    exact hs.disciplined.position split
  · intro s t frame outer i script rest hreach
    have same := hreach.sameWalks hstart
    exact ⟨same.depth_eq, same.index_eq⟩
  · intro s t hs hended
    have ht : t.frames = [] := ((invoke_steady hstart).endsIn hended).trans hs
    simp [Session.depth, Session.index, ht]

theorem balance_of_insistent :
    (∀ m ∈ insistentSession.trail[5]?, m.depth = 1 ∧ m.index = some 0) ∧
      (∃ rest t, Script.Reaches (Valve.run 4) insistence insistentWalk rest t ∧
        t.depth = 1 ∧ t.index = some 0) ∧
      insistentSession.depth = 0 ∧ insistentSession.index = none := by
  have law := balance 4
  refine ⟨?_, ?_, law.2.2.2 (Session.start insistent .discard {}) _ rfl rfl⟩
  · intro m hm
    obtain rfl : insistentSession.trail[5] = m := Option.some.inj hm
    exact law.2.1 insistentSession insistent_reachable (insistentSession.trail.take 5) _
      (insistentSession.trail.drop 6) rfl
  · have reached : Script.Reaches (Valve.run 4) insistence insistentWalk _ _ := .call rfl .refl
    exact ⟨_, _, reached, law.2.2.1 _ _ _ _ _ _ _ reached⟩

end Walk

end ValvePipeline
