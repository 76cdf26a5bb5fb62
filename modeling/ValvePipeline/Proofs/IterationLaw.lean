import ValvePipeline.Proofs.BoundaryRule
import ValvePipeline.Proofs.Reports

/-!
The law of iterations. A loop walks its body over and over; the walks are numbered from zero, and between
two of them stands a check. What a check asks, what a walk begins with and how the loop is left are told by
rules, whatever the body does, and the loop does what the rules say.
-/

set_option autoImplicit false
set_option relaxedAutoImplicit false

namespace ValvePipeline.Loop

def valve (condition : Option Condition) (body : Pipeline) (config : LoopConfig) : Valve :=
  match condition with
  | none => .loop body config
  | some condition => .whileLoop condition body config

inductive Asks (condition : Option Condition) (s : Session) : Bool → Session → Prop
  | always : condition = none → Asks condition s true s
  | once {c : Condition} : condition = some c →
    Asks condition s (s.ask c).1 (s.ask c).2

/-- A check lets the walk of this number begin. -/
inductive Opens (condition : Option Condition) (config : LoopConfig) (count : Nat) (s : Session) :
    Session → Prop
  | intro {t : Session} : Asks condition s true t → (config.bound ≤ 0 ∨ count < config.bound) →
    Opens condition config count s (begin config count t)

/-- So many walks of the body, begun one after the other, have come to their end; no failure and no
signal is left. -/
inductive Turns (walk : Walker) (condition : Option Condition) (body : Pipeline)
    (config : LoopConfig) (s : Session) : Nat → Session → Prop
  | zero : Turns walk condition body config s 0 s
  | next {count : Nat} {t u v : Session} : Turns walk condition body config s count t →
    Opens condition config count t u → (walk body).run u = .answered .completed v →
    Turns walk condition body config s (count + 1) v

def exceeded (config : LoopConfig) (s : Session) : Session :=
  s.log .warn "Loop exceeded its iteration bound"
    [("max_loop_count", .int config.bound), ("counter", .string config.counter)]

def stopped (count : Nat) (s : Session) : Session :=
  s.log .debug "Loop condition false; stopping" [("iterations", .nat count)]

/-- How a loop is left, by a check or by the walk of the same number. There are as many of them as the
allowance of steps admits. -/
inductive Ends (start : Starter) (condition : Option Condition) (body : Pipeline)
    (config : LoopConfig) (steps : Nat) (s : Session) : Ending ValveFailure Unit → Prop
  | stopped {count : Nat} {t u : Session} : count < steps →
    Turns (Walk.runPipeline start) condition body config s count t → Asks condition t false u →
    Ends start condition body config steps s ((Walk.proceed start).run (stopped count u))
  | spent {count : Nat} {t u : Session} : count < steps →
    Turns (Walk.runPipeline start) condition body config s count t → Asks condition t true u →
    0 < config.bound → config.bound = count →
    Ends start condition body config steps s (.raised (.tooManyLoops config.bound) (exceeded config u))
  | failed {count : Nat} {t u v : Session} {failure : ValveFailure} : count < steps →
    Turns (Walk.runPipeline start) condition body config s count t → Opens condition config count t u →
    (Walk.runPipeline start body).run u = .raised failure v →
    Ends start condition body config steps s (.raised failure v)
  | absorbed {count : Nat} {t u v : Session} {signal : Signal} : count < steps →
    Turns (Walk.runPipeline start) condition body config s count t → Opens condition config count t u →
    (Walk.runPipeline start body).run u = .answered .unwound v → v.pending = some signal →
    signal.atBoundary body.label = .absorb →
    Ends start condition body config steps s
      ((Walk.proceed start).run (v.absorbBreak signal body.label))
  | passed {count : Nat} {t u v : Session} {signal next : Signal} : count < steps →
    Turns (Walk.runPipeline start) condition body config s count t → Opens condition config count t u →
    (Walk.runPipeline start body).run u = .answered .unwound v → v.pending = some signal →
    signal.atBoundary body.label = .propagate next →
    Ends start condition body config steps s (.answered () (v.passBreak signal next body.label))
  /-- The allowance is spent inside of a walk, or before the next check. -/
  | cut {count : Nat} {t u v : Session} : count < steps →
    Turns (Walk.runPipeline start) condition body config s count t → Opens condition config count t u →
    (Walk.runPipeline start body).run u = .exhausted v →
    Ends start condition body config steps s (.exhausted v)
  | outOfSteps {t : Session} :
    Turns (Walk.runPipeline start) condition body config s steps t →
    Ends start condition body config steps s (.exhausted t)

structure Asked (condition : Option Condition) (s : Session) (answer : Bool) (t : Session) : Prop where
  answers : ∀ c ∈ condition, answer = c.holds s.attributes
  attributes : t.attributes = s.attributes
  pending : t.pending = s.pending
  frames : t.frames = s.frames
  events : t.events = s.events
  trail : t.trail = s.trail ++
    condition.toList.map fun c => ⟨.ask c s.attributes answer, s.frames, s.pending⟩

/-- A walk of the body has begun: the counter holds its number, whatever it held before, and the walk is
reported once. -/
structure Begun (config : LoopConfig) (count : Nat) (s t : Session) : Prop where
  attributes : t.attributes = s.attributes.set config.counter (.nat count)
  pending : t.pending = s.pending
  frames : t.frames = s.frames
  journal : t.transcript.journal = s.transcript.journal
  trail : t.trail = s.trail ++ [⟨.iterate count, s.frames, s.pending⟩]
  reported : s.sink = .collect → ∃ e, t.events = s.events ++ [e] ∧ e.type = "loop.iteration" ∧
    e.field? "iteration" = some (.nat count) ∧ e.field? "counter" = some (.string config.counter)
  unreported : s.sink ≠ .collect → t.events = s.events

theorem Asks.asked {condition : Option Condition} {s t : Session} {answer : Bool}
    (h : Asks condition s answer t) : Asked condition s answer t := by
  cases h with
  | always hnone =>
    subst hnone
    exact ⟨nofun, rfl, rfl, rfl, rfl, (List.append_nil _).symm⟩
  | @once c hsome =>
    subst hsome
    refine ⟨?_, s.attributes_ask c, s.pending_ask c, s.frames_ask c, s.events_ask c,
      s.trail_ask_eq c⟩
    rintro _ ⟨⟩
    rfl

theorem begin_begun (config : LoopConfig) (count : Nat) (s : Session) :
    Begun config count s (begin config count s) where
  attributes := Session.attributes_emit ..
  pending := s.pending_begin config count
  frames := Session.frames_emit ..
  journal := Session.journal_emit ..
  trail := by
    rw [begin, Session.trail_mark, Session.trail_emit, Session.frames_emit, Session.pending_emit]
    rfl
  reported h := by
    obtain ⟨e, hevents, htype, hfields⟩ :=
      Session.exists_event_of_emit (s := (s.setAttribute ..).log ..) h _ _
    exact ⟨e, hevents, htype, hfields "iteration" (by decide), hfields "counter" (by decide)⟩
  unreported h := Session.events_emit_of_ne (s := (s.setAttribute ..).log ..) h _ _

variable {start : Starter} {condition : Option Condition} {body : Pipeline} {config : LoopConfig}
  {count steps : Nat} {s t u : Session}

theorem Asks.run {ε : Type} {answer : Bool} (h : Asks condition s answer t) :
    (asksForMore condition : Run ε Bool).run s = .answered answer t := by
  cases h with
  | always hnone =>
    subst hnone
    rfl
  | once hsome =>
    subst hsome
    rfl

theorem exists_asks (condition : Option Condition) (s : Session) :
    ∃ answer t, Asks condition s answer t := by
  cases condition with
  | none => exact ⟨true, s, .always rfl⟩
  | some c => exact ⟨_, _, .once rfl⟩

theorem isSpent_eq_true_iff (config : LoopConfig) (count : Nat) :
    isSpent config count = true ↔ 0 < config.bound ∧ config.bound ≤ count := by
  simp only [isSpent, LoopConfig.isBounded, Bool.and_eq_true, decide_eq_true_eq]

theorem isSpent_eq_false_iff (config : LoopConfig) (count : Nat) :
    isSpent config count = false ↔ config.bound ≤ 0 ∨ count < config.bound := by
  rw [← Bool.not_eq_true, isSpent_eq_true_iff]
  omega

theorem Turns.le_bound {walk : Walker} (h : Turns walk condition body config s count t)
    (hbound : 0 < config.bound) : count ≤ config.bound := by
  cases h with
  | zero => exact Int.le_of_lt hbound
  | next _ hopens _ =>
    cases hopens with
    | intro _ hroom => omega

theorem Opens.run (h : Opens condition config count t u) (steps : Nat) :
    (iterate start condition body config (steps + 1) count).run t =
      (Walk.runBoundary (Walk.runPipeline start) body >>=
        afterBody start condition body config steps count).run u := by
  cases h with
  | intro hasks hroom =>
    exact run_iterate_of_more body steps hasks.run ((isSpent_eq_false_iff config count).mpr hroom)

theorem Opens.run_of_completed {v : Session} (h : Opens condition config count t u)
    (hwalk : (Walk.runPipeline start body).run u = .answered .completed v) (steps : Nat) :
    (iterate start condition body config (steps + 1) count).run t =
      (iterate start condition body config steps (count + 1)).run v := by
  rcases Walk.pending_runPipeline hwalk with ⟨-, hpending⟩ | ⟨hunwound, -⟩
  · rw [h.run, Walk.runBoundary, bind_assoc, Run.run_bind, hwalk]
    simp only [Walk.settle, Run.run_bind, Run.run_act, Session.settle_of_none hpending]
    rfl
  · cases hunwound

theorem Turns.run (h : Turns (Walk.runPipeline start) condition body config s count t) (more : Nat) :
    (iterate start condition body config (more + count) 0).run s =
      (iterate start condition body config more count).run t := by
  induction h generalizing more with
  | zero => rfl
  | @next count t u v _ hopens hwalk ih =>
    rw [← hopens.run_of_completed hwalk more, ← ih (more + 1)]
    congr 2
    omega

theorem Turns.run_of_lt (h : Turns (Walk.runPipeline start) condition body config s count t)
    (hcount : count < steps) : ∃ fewer, (iterate start condition body config steps 0).run s =
      (iterate start condition body config (fewer + 1) count).run t := by
  refine ⟨steps - count - 1, ?_⟩
  rw [← h.run]
  congr 2
  omega

theorem Ends.run {ending : Ending ValveFailure Unit}
    (h : Ends start condition body config steps s ending) :
    (iterate start condition body config steps 0).run s = ending := by
  cases h with
  | stopped hcount hturns hasks =>
    obtain ⟨fewer, hrun⟩ := hturns.run_of_lt hcount
    rw [hrun, iterate, Run.run_bind, hasks.run]
    rfl
  | @spent count t u hcount hturns hasks hpos hbound =>
    obtain ⟨fewer, hrun⟩ := hturns.run_of_lt hcount
    have hspent : isSpent config count = true :=
      (isSpent_eq_true_iff config count).mpr ⟨hpos, Int.le_of_eq hbound⟩
    rw [hrun, iterate, Run.run_bind, hasks.run]
    simp only [hspent, if_true]
    rfl
  | failed hcount hturns hopens hwalk =>
    obtain ⟨fewer, hrun⟩ := hturns.run_of_lt hcount
    rw [hrun, hopens.run, Walk.runBoundary, bind_assoc, Run.run_bind, hwalk]
  | absorbed hcount hturns hopens hwalk hpending hrule =>
    obtain ⟨fewer, hrun⟩ := hturns.run_of_lt hcount
    rw [hrun, hopens.run, Walk.runBoundary, bind_assoc, Run.run_bind, hwalk]
    simp only [Walk.settle, Run.run_bind, Run.run_act, Session.settle_of_absorb hpending hrule]
    rfl
  | passed hcount hturns hopens hwalk hpending hrule =>
    obtain ⟨fewer, hrun⟩ := hturns.run_of_lt hcount
    rw [hrun, hopens.run, Walk.runBoundary, bind_assoc, Run.run_bind, hwalk]
    simp only [Walk.settle, Run.run_bind, Run.run_act, Session.settle_of_propagate hpending hrule]
    rfl
  | cut hcount hturns hopens hwalk =>
    obtain ⟨fewer, hrun⟩ := hturns.run_of_lt hcount
    rw [hrun, hopens.run, Walk.runBoundary, bind_assoc, Run.run_bind, hwalk]
  | outOfSteps hturns =>
    have hrun := hturns.run 0
    rw [Nat.zero_add] at hrun
    rw [hrun]
    rfl

/-- Some rule applies, by induction on the steps that are left after the first walks. -/
theorem Turns.exists_ends (more : Nat) (hmore : count + more = steps)
    (h : Turns (Walk.runPipeline start) condition body config s count t) :
    ∃ ending, Ends start condition body config steps s ending := by
  induction more generalizing count t with
  | zero =>
    subst hmore
    exact ⟨_, .outOfSteps h⟩
  | succ more ih =>
    have hcount : count < steps := by omega
    obtain ⟨answer, t', hasks⟩ := exists_asks condition t
    cases answer with
    | false => exact ⟨_, .stopped hcount h hasks⟩
    | true =>
      cases hspent : isSpent config count with
      | true =>
        obtain ⟨hpos, hreached⟩ := (isSpent_eq_true_iff config count).mp hspent
        have hwithin := h.le_bound hpos
        exact ⟨_, .spent hcount h hasks hpos (by omega)⟩
      | false =>
        have hopens : Opens condition config count t (begin config count t') :=
          .intro hasks ((isSpent_eq_false_iff config count).mp hspent)
        cases hwalk : (Walk.runPipeline start body).run (begin config count t') with
        | raised failure v => exact ⟨_, .failed hcount h hopens hwalk⟩
        | exhausted v => exact ⟨_, .cut hcount h hopens hwalk⟩
        | answered ended v =>
          rcases Walk.pending_runPipeline hwalk with ⟨rfl, -⟩ | ⟨rfl, signal, hpending⟩
          · exact ih (by omega) (.next h hopens hwalk)
          · cases hrule : signal.atBoundary body.label with
            | absorb => exact ⟨_, .absorbed hcount h hopens hwalk hpending hrule⟩
            | propagate next => exact ⟨_, .passed hcount h hopens hwalk hpending hrule⟩

/-- One run of a loop is what the rules say and nothing else. Each check asks once and leaves the attributes
alone; each walk begins with its number in the counter and one report of it, below a bound that is set; and
the failure of the loop itself, which needs such a bound and as many walks, changes no attribute and reports
nothing. -/
theorem iteration_law (condition : Option Condition) (body : Pipeline) (config : LoopConfig)
    (steps : Nat) (s : Session) :
    (∀ ending, (Valve.run (steps + 1) (valve condition body config)).run s = ending ↔
      Ends (Valve.run steps) condition body config steps s ending) ∧
    (∀ t answer u, Asks condition t answer u → Asked condition t answer u) ∧
    (∀ count t u, Opens condition config count t u → (0 < config.bound → count < config.bound) ∧
      ∃ t', Asked condition t true t' ∧ Begun config count t' u) ∧
    (∀ walk count t, Turns walk condition body config s count t → 0 < config.bound →
      count ≤ config.bound) ∧
    ∀ t, (exceeded config t).attributes = t.attributes ∧ (exceeded config t).events = t.events := by
  have work : Valve.run (steps + 1) (valve condition body config) =
      iterate (Valve.run steps) condition body config steps 0 := by
    cases condition <;> rfl
  rw [work]
  refine ⟨fun ending => ⟨?_, Ends.run⟩, fun _ _ _ => Asks.asked, ?_,
    fun _ _ _ hturns hbound => hturns.le_bound hbound, fun t => ⟨rfl, rfl⟩⟩
  · rintro rfl
    have first : Turns (Walk.runPipeline (Valve.run steps)) condition body config s 0 s := .zero
    obtain ⟨ending, hends⟩ := first.exists_ends steps (Nat.zero_add steps)
    have hrun := hends.run
    rw [← hrun] at hends
    exact hends
  · intro count t u hopens
    cases hopens with
    | @intro t' hasks hroom =>
      constructor
      · intro hbound
        omega
      · exact ⟨t', hasks.asked, begin_begun config count t'⟩

private def overwriting : Pipeline :=
  ⟨none, [.record "turn" (some "loopCount"), .setAttribute "loopCount" (.string "lost")]⟩

theorem iteration_law_of_overwriting :
    let s := Session.start .empty .collect {}
    let config : LoopConfig := { bound := 2 }
    let ending := (Valve.run 5 (valve none overwriting config)).run s
    Ends (Valve.run 4) none overwriting config 4 s ending ∧
    ∃ t, ending = .raised (.tooManyLoops 2) t ∧
      t.transcript.journal = #["turn[0]", "turn[1]"] ∧
      t.attributes.get? "loopCount" = some (.string "lost") := by
  intro s config ending
  constructor
  · exact ((iteration_law none overwriting config 4 s).1 ending).mp rfl
  · exact ⟨_, rfl, rfl, rfl⟩

end ValvePipeline.Loop
