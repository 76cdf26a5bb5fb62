import ValvePipeline.Proofs.Confinement
import ValvePipeline.Proofs.Reports
import ValvePipeline.Proofs.Termination

/-!
The events of a whole run. Where neither the calls from outside nor any script emits events itself, the
events of a run stand between one that tells of its start and one that tells its result, and nowhere
else; and at most one run is made of a session.
-/

set_option autoImplicit false
set_option relaxedAutoImplicit false

namespace ValvePipeline

def Deed.IsSilent : Deed → Prop
  | .emit _ => False
  | _ => True

namespace Event

def endTypes : List String :=
  ["invocation.completed", "invocation.unwound", "invocation.failed"]

def runTypes : List String :=
  "invocation.started" :: endTypes

/-- The event tells the result of a run, after which this signal is pending. -/
structure Closes (e : Event) (pending : Option Signal) (result : Except RunFailure Outcome) :
    Prop where
  type : e.type ∈ endTypes
  completed : e.type = "invocation.completed" ↔ result = .ok .completed
  unwound : e.type = "invocation.unwound" ↔ ∃ signal, result = .ok (.unwound signal)
  failed : e.type = "invocation.failed" ↔ ∃ name failure, result = .error (.uncaught name failure)
  signal {signal : Signal} : result = .ok (.unwound signal) →
    e.field? "signal" = some signal.toJson ∧ pending = some signal
  error {name : String} {failure : ValveFailure} : result = .error (.uncaught name failure) →
    e.field? "error" = some failure.toJson

end Event

namespace Session

/-- Between the sessions no run began or ended, and no event told of one. -/
structure Uneventful (s t : Session) : Prop where
  sink : t.sink = s.sink
  invoked : t.invoked = s.invoked
  events : ∃ more, t.events = s.events ++ more ∧ ∀ e ∈ more, e.type ∉ Event.runTypes

/-- A run was made that ended with this result: of the events since, the first tells of the start, the
last tells the result, and no other one tells of a run. -/
structure Brackets (u v : Session) (result : Except RunFailure Outcome) : Prop where
  sink : v.sink = u.sink
  fresh : u.invoked = false
  spent : v.invoked = true
  events : ∃ first inside last, v.events = u.events ++ first :: (inside ++ [last]) ∧
    first.type = "invocation.started" ∧ (∀ e ∈ inside, e.type ∉ Event.runTypes) ∧
    last.Closes v.pending result

/-- Between the sessions no run was made, or a single one, and the events tell of that only. -/
inductive Reports (s t : Session) : Prop
  | uneventful : s.Uneventful t → Reports s t
  | ran {u v : Session} {result : Except RunFailure Outcome} {steps : Nat} : s.Uneventful u →
    (Walk.invoke (Walk.runPipeline (Valve.run steps)) : Run Raised _).run u = .answered result v →
    u.Brackets v result → v.Uneventful t → Reports s t

inductive ReportsCut (s t : Session) : Prop
  | ended : s.Reports t → ReportsCut s t
  | running {u : Session} : s.Uneventful u → u.invoked = false →
    (∃ first inside, t.events = u.events ++ first :: inside ∧ first.type = "invocation.started" ∧
      ∀ e ∈ inside, e.type ∉ Event.runTypes) → ReportsCut s t

variable {s t u : Session}

namespace Uneventful

theorem of_events_eq (hsink : t.sink = s.sink) (hinvoked : t.invoked = s.invoked)
    (hevents : t.events = s.events) : s.Uneventful t :=
  ⟨hsink, hinvoked, [], by simp [hevents], nofun⟩

theorem refl (s : Session) : s.Uneventful s :=
  .of_events_eq rfl rfl rfl

theorem trans (h : s.Uneventful t) (h' : t.Uneventful u) : s.Uneventful u := by
  obtain ⟨hsink, hinvoked, more, hmore, huneventful⟩ := h
  obtain ⟨hsink', hinvoked', more', hmore', huneventful'⟩ := h'
  refine ⟨hsink'.trans hsink, hinvoked'.trans hinvoked, more ++ more', ?_, ?_⟩
  · rw [hmore', hmore, List.append_assoc]
  · intro e he
    rcases List.mem_append.mp he with he | he
    · exact huneventful e he
    · exact huneventful' e he

end Uneventful

theorem invoked_emit (s : Session) (type : String) (data : Json) :
    (s.emit type data).invoked = s.invoked := by
  unfold emit
  split <;> rfl

theorem uneventful_emit (hsink : s.sink = .collect) {type : String} (data : Json)
    (htype : type ∈ Event.ownTypes) : s.Uneventful (s.emit type data) := by
  refine ⟨s.sink_emit type data, s.invoked_emit type data, [s.event type data],
    events_emit hsink type data, ?_⟩
  intro e he
  obtain rfl := List.mem_singleton.mp he
  simp only [Event.ownTypes, List.mem_cons, List.not_mem_nil, or_false] at htype
  rcases htype with rfl | rfl | rfl | rfl <;>
    simp [event, Event.runTypes, Event.endTypes]

namespace Reports

theorem sink (h : s.Reports t) : t.sink = s.sink := by
  cases h with
  | uneventful h => exact h.sink
  | ran before _ brackets after => exact after.sink.trans (brackets.sink.trans before.sink)

theorem uneventful_of_invoked (h : s.Reports t) (hs : s.invoked = true) : s.Uneventful t := by
  cases h with
  | uneventful h => exact h
  | ran before _ brackets _ =>
    have hu := before.invoked.trans hs
    rw [brackets.fresh] at hu
    cases hu

theorem trans (h : s.Reports t) (h' : t.Reports u) : s.Reports u := by
  cases h with
  | uneventful h =>
    cases h' with
    | uneventful h' => exact .uneventful (h.trans h')
    | ran before hrun brackets after => exact .ran (h.trans before) hrun brackets after
  | ran before hrun brackets after =>
    have ht : t.invoked = true := after.invoked.trans brackets.spent
    exact .ran before hrun brackets (after.trans (h'.uneventful_of_invoked ht))

end Reports

namespace ReportsCut

theorem uneventful_of_invoked (h : s.ReportsCut t) (hs : s.invoked = true) : s.Uneventful t := by
  cases h with
  | ended h => exact h.uneventful_of_invoked hs
  | running before hfresh _ =>
    have hu := before.invoked.trans hs
    rw [hfresh] at hu
    cases hu

theorem prepend (h : s.Reports t) (h' : t.ReportsCut u) : s.ReportsCut u := by
  cases h with
  | uneventful h =>
    cases h' with
    | ended h' => exact .ended (.trans (.uneventful h) h')
    | running before hfresh hevents => exact .running (h.trans before) hfresh hevents
  | ran before hrun brackets after =>
    have ht : t.invoked = true := after.invoked.trans brackets.spent
    exact .ended (.ran before hrun brackets (after.trans (h'.uneventful_of_invoked ht)))

end ReportsCut

end Session

namespace Conduct

def bracketed : Conduct where
  done s t := s.sink = .collect → s.Reports t
  cut s t := s.sink = .collect → s.ReportsCut t

private theorem bracketed_uneventful {s t : Session} (hsink : t.sink = s.sink)
    (hinvoked : t.invoked = s.invoked) (hevents : t.events = s.events) : bracketed.done s t :=
  fun _ => .uneventful (.of_events_eq hsink hinvoked hevents)

theorem bracketed_allows : bracketed.Allows Deed.IsSilent where
  refl s _ := .uneventful (.refl s)
  trans h h' hs := (h hs).trans (h' ((h hs).sink.trans hs))
  cut_refl s _ := .ended (.uneventful (.refl s))
  cut_trans h h' hs := .prepend (h hs) (h' ((h hs).sink.trans hs))
  log _ _ _ _ := bracketed_uneventful rfl rfl rfl
  note _ _ := bracketed_uneventful rfl rfl rfl
  pend _ _ := bracketed_uneventful rfl rfl rfl
  mark _ _ _ := bracketed_uneventful rfl rfl rfl
  report _ _ data htype hs := .uneventful (Session.uneventful_emit hs data htype)
  deed hd hchanges := by
    cases hchanges with
    | set value => exact bracketed_uneventful rfl rfl rfl
    | remove => exact bracketed_uneventful rfl rfl rfl
    | emit data => exact hd.elim

private theorem entered (s : Session) (p : Pipeline) : s.Reports (s.enterPipeline p) :=
  .uneventful (.of_events_eq rfl rfl rfl)

private theorem started (s : Session) (frame : Frame) (outer : List Frame) (i : Nat) :
    s.Reports (s.enterValve frame outer i) :=
  .uneventful (.of_events_eq rfl rfl rfl)

theorem bracketed_encloses : bracketed.Encloses where
  walk {s t} p failure h hs := by
    have left : t.Uneventful (t.leavePipeline failure) := .of_events_eq rfl rfl rfl
    exact .trans (entered s p) ((h hs).trans (.uneventful left))
  walk_cut {s t} p h hs := .prepend (entered s p) (h hs)
  valve {s t frame outer} failure _ _ _ h hs := by
    have left : t.Uneventful (t.leaveValve frame.next frame.cursor failure) :=
      .of_events_eq rfl rfl rfl
    exact .trans (started s frame outer _) ((h hs).trans (.uneventful left))
  valve_cut {s t frame outer} _ _ _ h hs := .prepend (started s frame outer _) (h hs)

end Conduct

namespace Event

variable {e : Event} {pending : Option Signal}

theorem closes_completed (h : e.type = "invocation.completed") :
    e.Closes pending (.ok .completed) where
  type := by simp [h, endTypes]
  completed := by simp [h]
  unwound := by simp [h]
  failed := by simp [h]
  signal := nofun
  error := nofun

theorem closes_unwound {signal : Signal} (h : e.type = "invocation.unwound")
    (hsignal : e.field? "signal" = some signal.toJson) (hpending : pending = some signal) :
    e.Closes pending (.ok (.unwound signal)) where
  type := by simp [h, endTypes]
  completed := by simp [h]
  unwound := by simp [h]
  failed := by simp [h]
  signal := by
    rintro other hother
    cases hother
    exact ⟨hsignal, hpending⟩
  error := nofun

theorem closes_failed {name : String} {failure : ValveFailure} (h : e.type = "invocation.failed")
    (herror : e.field? "error" = some failure.toJson) :
    e.Closes pending (.error (.uncaught name failure)) where
  type := by simp [h, endTypes]
  completed := by simp [h]
  unwound := by simp [h]
  failed := by simp [h]
  signal := nofun
  error := by
    rintro other otherFailure hother
    cases hother
    exact herror

end Event

namespace Walk

variable {s t u : Session}

/-- A run in whose walk no other run is reported stands between its first event and its last. -/
theorem brackets_of_uneventful (hsink : s.sink = .collect) (hfresh : s.invoked = false)
    (h : (launched s).Uneventful t) {e : Event} {result : Except RunFailure Outcome}
    (hu : u.sink = t.sink ∧ u.invoked = t.invoked) (hevents : u.events = t.events ++ [e])
    (he : e.Closes u.pending result) : s.Brackets u result := by
  obtain ⟨first, hfirst, hstarted⟩ := events_launched hsink
  obtain ⟨inside, hinside, huneventful⟩ := h.events
  have hlaunched : (launched s).sink = s.sink := Session.sink_emit ..
  have hinvoked : (launched s).invoked = true := Session.invoked_emit ..
  refine ⟨hu.1.trans (h.sink.trans hlaunched), hfresh, hu.2.trans (h.invoked.trans hinvoked),
    first, inside, e, ?_, hstarted, huneventful, he⟩
  rw [hevents, hinside, hfirst]
  simp

variable {ε : Type} {start : Starter}

theorem invoke_brackets (hsink : s.sink = .collect) (hfresh : s.invoked = false)
    (hwalk : ∀ u, ((runPipeline start s.pipeline).run (launched s)).EndsIn u →
      Conduct.bracketed.done (launched s) u)
    {result : Except RunFailure Outcome}
    (h : (invoke (runPipeline start) : Run ε _).run s = .answered result t) :
    s.Brackets t result := by
  have hlaunched : (launched s).sink = .collect := (Session.sink_emit ..).trans hsink
  have hinvoked : (launched s).invoked = true := Session.invoked_emit ..
  have invoking := invoke_invoking (ε := ε) start s
  rw [h] at invoking
  cases invoking with
  | refused hagain => exact absurd (hfresh.symm.trans hagain) nofun
  | @completed u _ hrun _ =>
    have inside := (hwalk u (by rw [hrun]; rfl) hlaunched).uneventful_of_invoked hinvoked
    obtain ⟨e, hevents, htype⟩ := events_reportCompleted (inside.sink.trans hlaunched)
    exact brackets_of_uneventful hsink hfresh inside
      ⟨Session.sink_emit .., Session.invoked_emit ..⟩ hevents (Event.closes_completed htype)
  | @unwound u signal _ hrun hpending =>
    have inside := (hwalk u (by rw [hrun]; rfl) hlaunched).uneventful_of_invoked hinvoked
    obtain ⟨e, hevents, htype, hsignal⟩ :=
      events_reportUnwound signal (inside.sink.trans hlaunched)
    have hleft : (reportUnwound signal u).pending = some signal :=
      (Session.pending_emit ..).trans hpending
    exact brackets_of_uneventful hsink hfresh inside
      ⟨Session.sink_emit .., Session.invoked_emit ..⟩ hevents
      (Event.closes_unwound htype hsignal hleft)
  | @failed u failure _ hrun =>
    have inside := (hwalk u (by rw [hrun]; rfl) hlaunched).uneventful_of_invoked hinvoked
    obtain ⟨e, hevents, htype, herror⟩ :=
      events_reportFailed failure (inside.sink.trans hlaunched)
    exact brackets_of_uneventful hsink hfresh inside
      ⟨Session.sink_emit .., Session.invoked_emit ..⟩ hevents (Event.closes_failed htype herror)

theorem invoke_cut (hsink : s.sink = .collect) (hfresh : s.invoked = false)
    (hwalk : ∀ u, (runPipeline start s.pipeline).run (launched s) = .exhausted u →
      Conduct.bracketed.cut (launched s) u)
    (h : (invoke (runPipeline start) : Run ε _).run s = .exhausted t) : s.ReportsCut t := by
  have hlaunched : (launched s).sink = .collect := (Session.sink_emit ..).trans hsink
  have hinvoked : (launched s).invoked = true := Session.invoked_emit ..
  have invoking := invoke_invoking (ε := ε) start s
  rw [h] at invoking
  cases invoking with
  | exhausted _ hrun =>
    have inside := (hwalk t hrun hlaunched).uneventful_of_invoked hinvoked
    obtain ⟨first, hfirst, hstarted⟩ := events_launched hsink
    obtain ⟨more, hmore, huneventful⟩ := inside.events
    refine .running (.refl s) hfresh ⟨first, more, ?_, hstarted, huneventful⟩
    rw [hmore, hfirst]
    simp

theorem invoke_of_invoked (h : s.invoked = true) :
    (invoke (runPipeline start) : Run ε _).run s =
      .answered (.error (.alreadyInvoked s.identity.invocation.display)) s := by
  simp [invoke, h]

end Walk

theorem Conduct.bracketed_invokes (steps : Nat) : bracketed.Invokes steps := by
  intro s walked hended hcut ran
  cases hinvoked : s.invoked with
  | true =>
    have refused : ran = _ := Walk.invoke_of_invoked hinvoked
    rw [refused]
    refine ⟨?_, nofun⟩
    rintro t rfl
    exact bracketed_allows.refl s
  | false =>
    refine ⟨fun t h hsink => ?_, fun t h hsink => Walk.invoke_cut hsink hinvoked hcut h⟩
    cases hran : ran with
    | answered result u =>
      rw [hran] at h
      obtain rfl : u = t := h
      have brackets := Walk.invoke_brackets hsink hinvoked hended hran
      exact .ran (.refl s) hran brackets (.refl u)
    | raised e u => exact absurd hran Walk.invoke_ne_raised
    | exhausted u =>
      rw [hran] at h
      exact h.elim

/-- At most one run is made of a session, whatever calls are made from outside and by scripts, if none of
them emits events: the events of that run begin with the one that tells of its start and end with the
one that tells its result, and no other event of the whole stream tells of a run. Every run that does not
find the session used up is of this kind; every other one is refused and changes nothing, and a session
that is used up stays so. -/
theorem runs_bracketed (steps : Nat) {p : Pipeline} {calls : List Call}
    (hp : p.Confined Deed.IsSilent) (hcalls : ∀ made ∈ calls, made.Confined Deed.IsSilent)
    (identity : Identity) (attributes : Attributes) :
    let s : Session := { Session.start p .collect identity with attributes }
    let start := Valve.run steps
    (∀ t, s.makeCalls steps calls = .answered () t → s.Reports t) ∧
      (∀ t, s.makeCalls steps calls = .exhausted t → s.ReportsCut t) ∧
      (∀ u v result, u.Confined Deed.IsSilent → u.sink = .collect → u.invoked = false →
        (Walk.invoke (Walk.runPipeline start) : Run Raised _).run u = .answered result v →
        u.Brackets v result) ∧
      (∀ u : Session, u.invoked = true →
        (Walk.invoke (Walk.runPipeline start) : Run Raised _).run u =
          .answered (.error (.alreadyInvoked u.identity.invocation.display)) u) ∧
      (∀ (made : Call) (u t : Session), ((made.perform start).run u).EndsIn t →
        u.invoked = true → t.invoked = true) ∧
      ∀ (script rest : Script) (u t : Session), script.Reaches start u rest t →
        u.invoked = true → t.invoked = true := by
  intro s start
  have carries := Conduct.run_carries Conduct.bracketed_allows Conduct.bracketed_encloses
    Conduct.bracketed_invokes steps
  have lasting := Conduct.ongoing_covers.carries (Valve.run_ongoing steps)
  have hs : s.Confined Deed.IsSilent := ⟨hp, nofun⟩
  have kept := carries.makeCalls hcalls
  refine ⟨?_, ?_, ?_, ?_, ?_, ?_⟩
  · intro t h
    exact (kept.answered h hs).2 rfl
  · intro t h
    exact kept.exhausted h hs rfl
  · intro u v result hu hsink hfresh h
    refine Walk.invoke_brackets hsink hfresh (fun w hended => ?_) h
    exact ((carries.walk hu.pipeline).endsIn hended hu.launched).2
  · intro u hu
    exact Walk.invoke_of_invoked hu
  · intro made u t h hu
    exact ((lasting.perform made.admitted).endsIn h).invoked hu
  · intro script rest u t h hu
    exact (lasting.reaches h script.admitted).invoked hu

private def reentrant : Pipeline :=
  ⟨none, [.scripted "again" (.call .invoke fun _ => .finish .goOn), .exit]⟩

private theorem reentrant_confined : reentrant.Confined Deed.IsSilent := by
  refine .intro fun v hv => ?_
  simp only [reentrant, List.mem_cons, List.not_mem_nil, or_false] at hv
  rcases hv with rfl | rfl
  · exact .scripted (.call nofun nofun fun _ => .finish)
  · exact .builtIn nofun nofun nofun

theorem runs_bracketed_of_reentrant :
    let s := Session.start reentrant .collect {}
    ∃ t, s.makeCalls 4 [.invoke, .invoke] = .answered () t ∧ s.Reports t ∧
      Event.types t.events = ["invocation.started", "invocation.unwound"] ∧
      t.pending = some .exit := by
  intro s
  have hcalls : ∀ made ∈ [Call.invoke, Call.invoke], made.Confined Deed.IsSilent := by
    intro made hmade
    obtain rfl : made = .invoke := by simpa using hmade
    exact ⟨nofun, nofun⟩
  have law := runs_bracketed 4 reentrant_confined hcalls {} {}
  exact ⟨_, rfl, law.1 _ rfl, rfl, rfl⟩

end ValvePipeline
