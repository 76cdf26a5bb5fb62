import ValvePipeline.Proofs.Companions
import ValvePipeline.Proofs.Mentions
import ValvePipeline.Proofs.OwnWork
import ValvePipeline.Proofs.Reports

/-!
Runs that agree. Two sessions that differ in attributes that the valves do not look up go the same way:
each step of one is a step of the other, and what one sets the other sets, too. So the attributes that a
pipeline mentions decide what its run answers, reports and records, and it takes over none of the others.
-/

set_option autoImplicit false
set_option relaxedAutoImplicit false

namespace ValvePipeline

namespace Session

/-- The sessions are the same but for their logs, their trails and the attributes that are not known; and
the valves of their walks look up known attributes only. -/
structure AgreesOn (known : String → Prop) (s t : Session) : Prop where
  identity : t.identity = s.identity
  pipeline : t.pipeline = s.pipeline
  attributes : ∀ key, known key → t.attributes.get? key = s.attributes.get? key
  pending : t.pending = s.pending
  frames : t.frames = s.frames
  walks : s.Walks (Pipeline.BuiltOf (Valve.Reads known))
  invoked : t.invoked = s.invoked
  sink : t.sink = s.sink
  journal : t.transcript.journal = s.transcript.journal
  events : t.transcript.events = s.transcript.events

namespace AgreesOn

variable {known : String → Prop} {s t : Session}

theorem mark (h : s.AgreesOn known t) (m m' : Mark) : (s.mark m).AgreesOn known (t.mark m') :=
  { h with journal := h.journal, events := h.events }

theorem close (known : String → Prop) : Close (AgreesOn known) where
  depth h := congrArg List.length h.frames
  pending h := h.pending
  sink h := h.sink
  locate _ h := by
    have hdepth : _ = _ := congrArg List.length h.frames
    simp only [locate, position, depth, h.identity, h.pipeline, hdepth]
  relog _ _ h := { h with journal := h.journal, events := h.events }
  note entry h := { h with journal := congrArg (·.push entry) h.journal, events := h.events }
  set key value h := { h with
    attributes := by
      intro other hother
      simp only [Session.setAttribute, Attributes.get?_set, h.attributes other hother] }
  pend _ h := { h with pending := rfl }
  report event _ h := { h with
    journal := h.journal
    events := congrArg (·.push event) h.events }
  asked _ _ h := h.mark _ _
  iterated _ h := h.mark _ _
  requested _ h := h.mark _ _

theorem ask (h : s.AgreesOn known t) {condition : Condition} (hdeclared : condition.IsDeclared)
    (hkeys : ∀ key ∈ condition.keys, known key) :
    (t.ask condition).1 = (s.ask condition).1 ∧
      (s.ask condition).2.AgreesOn known (t.ask condition).2 := by
  refine (close known).lasting.ask h ?_
  exact hdeclared.eval_congr fun key hkey => h.attributes key (hkeys key hkey)

theorem recordEntry_eq (h : s.AgreesOn known t) (name : String) {counter : Option String}
    (hcounter : ∀ key ∈ counter, known key) :
    Valve.recordEntry name counter t.attributes = Valve.recordEntry name counter s.attributes := by
  cases counter with
  | none => rfl
  | some key =>
    have hkey : t.attributes.get? key = s.attributes.get? key := h.attributes key (hcounter key rfl)
    simp only [Valve.recordEntry, Option.bind_some, hkey]

theorem rewalk (h : s.AgreesOn known t) {frames : List Frame}
    (hwalks : ∀ f ∈ frames, f.pipeline.BuiltOf (Valve.Reads known)) :
    AgreesOn known { s with frames } { t with frames } :=
  { h with frames := rfl, walks := hwalks }

theorem enterPipeline (h : s.AgreesOn known t) {p : Pipeline}
    (hp : p.BuiltOf (Valve.Reads known)) :
    (s.enterPipeline p).AgreesOn known (t.enterPipeline p) := by
  have entered := h.rewalk (h.walks.enterPipeline hp)
  unfold Session.enterPipeline
  rw [h.frames]
  exact entered.mark _ _

theorem leavePipeline (h : s.AgreesOn known t) (failure : Option ValveFailure) :
    (s.leavePipeline failure).AgreesOn known (t.leavePipeline failure) := by
  have left := h.rewalk (h.walks.leavePipeline failure)
  unfold Session.leavePipeline
  rw [h.frames]
  exact left.mark _ _

theorem enterValve (h : s.AgreesOn known t) {frame : Frame} {outer : List Frame}
    (hframes : s.frames = frame :: outer) (i : Nat) :
    (s.enterValve frame outer i).AgreesOn known (t.enterValve frame outer i) :=
  (h.rewalk (h.walks.enterValve hframes)).mark (.enterValve i) (.enterValve i)

theorem leaveValve (h : s.AgreesOn known t) (i : Nat) (cursor : Option Nat)
    (failure : Option ValveFailure) :
    (s.leaveValve i cursor failure).AgreesOn known (t.leaveValve i cursor failure) := by
  have left := h.rewalk (h.walks.leaveValve i cursor failure)
  unfold Session.leaveValve
  rw [h.frames]
  exact left.mark _ _

end AgreesOn

end Session

inductive Ending.AgreesOn {ε α : Type} (known : String → Prop) : Ending ε α → Ending ε α → Prop
  | answered {a : α} {s t : Session} : s.AgreesOn known t →
    AgreesOn known (.answered a s) (.answered a t)
  | raised {e : ε} {s t : Session} : s.AgreesOn known t → AgreesOn known (.raised e s) (.raised e t)
  | exhausted {s t : Session} : s.AgreesOn known t → AgreesOn known (.exhausted s) (.exhausted t)

/-- The computation goes by the known attributes: begun in sessions that agree, it ends in the same way,
and in sessions that agree. -/
def Run.GoesBy {ε α : Type} (known : String → Prop) (x : Run ε α) : Prop :=
  ∀ s t : Session, s.AgreesOn known t → (x.run s).AgreesOn known (x.run t)

namespace Run.GoesBy

open Session.AgreesOn (close)

variable {ε δ α β : Type} {known : String → Prop}

theorem bind {x : Run ε α} {f : α → Run ε β} (hx : x.GoesBy known)
    (hf : ∀ a, (f a).GoesBy known) : (x >>= f).GoesBy known := by
  intro s t h
  have first := hx s t h
  rw [run_bind, run_bind]
  generalize x.run s = ending, x.run t = other at first ⊢
  cases first with
  | @answered a u v huv => exact hf a u v huv
  | raised huv => exact .raised huv
  | exhausted huv => exact .exhausted huv

theorem attempt {x : Run ε α} (hx : x.GoesBy known) :
    (Run.attempt x : Run δ (Except ε α)).GoesBy known := by
  intro s t h
  have first := hx s t h
  rw [run_attempt, run_attempt]
  generalize x.run s = ending, x.run t = other at first ⊢
  cases first with
  | answered huv => exact .answered huv
  | raised huv => exact .answered huv
  | exhausted huv => exact .exhausted huv

theorem afterwards {x : Run ε α} (hx : x.GoesBy known) {f : Option ε → Session → Session}
    (hf : ∀ failure s t, s.AgreesOn known t → (f failure s).AgreesOn known (f failure t)) :
    (x.afterwards f).GoesBy known := by
  intro s t h
  have first := hx s t h
  rw [run_afterwards, run_afterwards]
  generalize x.run s = ending, x.run t = other at first ⊢
  cases first with
  | answered huv => exact .answered (hf none _ _ huv)
  | @raised e u v huv => exact .raised (hf (some e) u v huv)
  | exhausted huv => exact .exhausted huv

theorem update {f : Session → Session}
    (hf : ∀ s t, s.AgreesOn known t → (f s).AgreesOn known (f t)) :
    (Run.update f : Run ε Unit).GoesBy known :=
  fun s t h => .answered (hf s t h)

theorem act {f : Session → α × Session}
    (hf : ∀ s t : Session, s.AgreesOn known t → (f t).1 = (f s).1 ∧ (f s).2.AgreesOn known (f t).2) :
    (Run.act f : Run ε α).GoesBy known := by
  intro s t h
  obtain ⟨hanswer, hsession⟩ := hf s t h
  rw [run_act, run_act, hanswer]
  exact .answered hsession

theorem read {f : Session → α} (hf : ∀ s t : Session, s.AgreesOn known t → f t = f s) :
    (Run.read f : Run ε α).GoesBy known := by
  intro s t h
  rw [run_read, run_read, hf s t h]
  exact .answered h

theorem habit (known : String → Prop) : Habit (fun _ _ x => x.GoesBy known)
    (fun condition => condition.IsDeclared ∧ ∀ key ∈ condition.keys, known key)
    (fun counter => ∀ key ∈ counter, known key) fun _ => True where
  pure _ _ _ h := .answered h
  raise _ _ _ h := .raised h
  outOfSteps _ _ h := .exhausted h
  bind := bind
  attempt := attempt
  log _ _ _ := update fun _ _ h => (close known).relog _ _ h
  record name _ hcounter := update fun _ _ h => by
    rw [h.recordEntry_eq name hcounter]
    exact (close known).note _ h
  set value _ := update fun _ _ h => (close known).set _ value h
  ask hkeys := act fun _ _ h => h.ask hkeys.1 hkeys.2
  request signal := update fun _ _ h => (close known).requestBreak h signal
  settle label := act fun _ _ h => (close known).settle h label
  setAside := act fun _ _ h => ⟨h.pending, (close known).pend none h⟩
  bringBack signal := update fun _ _ h => (close known).pend (some signal) h
  begin count _ := update fun _ _ h => (close known).lasting.begin h _ count
  catching failure _ := update fun _ _ h => (close known).lasting.catching h _ failure

end Run.GoesBy

section Engine

open Session.AgreesOn (close)

variable {known : String → Prop} {start : Starter}

theorem Walk.proceed_goesBy
    (hstart : ∀ v, v.BuiltOf (Valve.Reads known) → (start v).GoesBy known) :
    (proceed start).GoesBy known := by
  intro s t h
  have proceeding := proceed_proceeding start s
  generalize (proceed start).run s = ending at proceeding ⊢
  cases proceeding with
  | waits hpending =>
    rw [run_proceed_of_pending start (h.pending ▸ hpending)]
    exact .answered h
  | outside hpending hframes =>
    rw [run_proceed_of_nil start (h.pending.trans hpending) (h.frames.trans hframes)]
    exact .answered ((close known).relog _ _ h)
  | again hpending hframes hstarted =>
    rw [run_proceed_of_started start (h.pending.trans hpending) (h.frames.trans hframes) hstarted]
    exact .answered ((close known).relog _ _ h)
  | ends hpending hframes hnew hvalve =>
    rw [run_proceed_of_end start (h.pending.trans hpending) (h.frames.trans hframes) hnew hvalve]
    exact .answered h
  | @starts frame outer v hpending hframes hnew hvalve =>
    rw [run_proceed_of_valve start (h.pending.trans hpending) (h.frames.trans hframes) hnew hvalve]
    have hv : v.BuiltOf (Valve.Reads known) :=
      (h.walks.innermost hframes).valve (List.mem_of_getElem? hvalve)
    have goes := (hstart v hv).afterwards (f := Session.leaveValve frame.next frame.cursor)
      fun failure _ _ huv => huv.leaveValve _ _ failure
    exact goes _ _ (h.enterValve hframes frame.next)

theorem Walk.runPipeline_goesBy (hproceed : (proceed start).GoesBy known) {p : Pipeline}
    (hp : p.BuiltOf (Valve.Reads known)) : (runPipeline start p).GoesBy known := by
  refine .bind (.update fun s t h => h.enterPipeline hp) fun _ => ?_
  refine .bind (hproceed.afterwards fun failure s t h => h.leavePipeline failure) fun _ => ?_
  exact .read fun s t h => by rw [h.pending]

/-- A valve that looks up known attributes only goes by them. -/
theorem Valve.run_goesBy (steps : Nat) {v : Valve} (hv : v.BuiltOf (Reads known)) :
    (run steps v).GoesBy known := by
  induction steps generalizing v with
  | zero => exact fun s t h => .exhausted h
  | succ steps ih =>
    cases hv with
    | intro hscript hreads hchildren =>
      have proceeds : (Walk.proceed (run steps)).GoesBy known := Walk.proceed_goesBy fun v hv => ih hv
      have owns := (Run.GoesBy.habit known).own steps (fun _ hc => hreads.condition hc)
        hreads.counter (fun _ _ => trivial) fun p hp =>
          Walk.runPipeline_goesBy proceeds (hchildren p hp)
      rw [show run (steps + 1) v = v.work (run steps) steps from rfl, work_eq_own _ steps hscript]
      exact owns.bind fun _ => proceeds

theorem Walk.launched_agreesOn {s t : Session} (h : s.AgreesOn known t) :
    (launched s).AgreesOn known (launched t) := by
  have invoked : Session.AgreesOn known { s with invoked := true } { t with invoked := true } :=
    { h with invoked := rfl }
  exact (close known).emit invoked ..

theorem Walk.invoke_agreesOn {ε : Type} {walk : Walker} {s t : Session} (h : s.AgreesOn known t)
    (hwalk : (walk s.pipeline).GoesBy known) :
    ((invoke walk : Run ε (Except RunFailure Outcome)).run s).AgreesOn known
      ((invoke walk).run t) := by
  have goOn (a : Except RunFailure Outcome) : (pure a : Run ε _).GoesBy known :=
    (Run.GoesBy.habit known).pure a
  have told (severity : Severity) (message : String) (fields : List (String × Json))
      (type : String) (data : Json) :
      (Run.update fun s => (s.log severity message fields).emit type data : Run ε Unit).GoesBy known :=
    .update fun _ _ h => (close known).emit ((close known).relog _ _ h) type data
  unfold invoke
  rw [Run.run_bind, Run.run_bind, Run.run_read, Run.run_read]
  simp only [id_eq, h.invoked, h.identity, h.pipeline]
  split
  · exact .answered h
  refine Run.GoesBy.bind (.update fun _ _ h => launched_agreesOn h) (fun _ => ?_) s t h
  refine .bind hwalk.attempt fun ended => ?_
  cases ended with
  | error failure => exact .bind (told _ _ _ _ _) fun _ => goOn _
  | ok ended =>
    cases ended with
    | completed => exact .bind (.update fun _ _ h => (close known).emit h ..) fun _ => goOn _
    | unwound =>
      refine .bind (.read fun _ _ h => h.pending) fun pending => ?_
      exact .bind (told _ _ _ _ _) fun _ => goOn _

end Engine

/-- Only the attributes that a pipeline of built-in valves mentions decide its run, where no condition has a
test of one's own in it. Two runs from attributes that agree on these end in the same way or are both cut
off, with the same journal, the same events and the same pending signal; and on every name on which the
attributes agreed before, they agree after. -/
theorem mentioned_attributes_decide (steps : Nat) {s : Session} (hframes : s.frames = [])
    (hp : s.pipeline.BuiltOf Valve.IsDeclared) {a b : Attributes}
    (hab : ∀ key, s.pipeline.Mentions key → b.get? key = a.get? key) :
    let run (attributes : Attributes) := ({ s with attributes } : Session).invoke steps
    ∃ t u : Session,
      ((run a = .exhausted t ∧ run b = .exhausted u) ∨
        ∃ result, run a = .answered result t ∧ run b = .answered result u) ∧
      u.transcript.journal = t.transcript.journal ∧ u.events = t.events ∧ u.pending = t.pending ∧
      ∀ key, b.get? key = a.get? key → u.attributes.get? key = t.attributes.get? key := by
  intro run
  -- Every name on which the maps agree counts as known, not only those that are mentioned: the names that
  -- are set in the runs are then kept equal as well.
  let known (key : String) : Prop := b.get? key = a.get? key
  have reads : s.pipeline.BuiltOf (Valve.Reads known) := hp.reads hab
  have walks : s.Walks (Pipeline.BuiltOf (Valve.Reads known)) := by
    intro f hf
    rw [hframes] at hf
    cases hf
  have agrees : Session.AgreesOn known { s with attributes := a } { s with attributes := b } :=
    ⟨rfl, rfl, fun _ hkey => hkey, rfl, rfl, walks, rfl, rfl, rfl, rfl⟩
  have proceeds : (Walk.proceed (Valve.run steps)).GoesBy known :=
    Walk.proceed_goesBy fun _ hv => Valve.run_goesBy steps hv
  have runs : (run a).AgreesOn known (run b) :=
    Walk.invoke_agreesOn agrees (Walk.runPipeline_goesBy proceeds reads)
  have observed {t u : Session} (h : t.AgreesOn known u) :
      u.transcript.journal = t.transcript.journal ∧ u.events = t.events ∧ u.pending = t.pending ∧
        ∀ key, b.get? key = a.get? key → u.attributes.get? key = t.attributes.get? key :=
    ⟨h.journal, congrArg Array.toList h.events, h.pending, h.attributes⟩
  generalize run a = ending, run b = other at runs ⊢
  cases runs with
  | @answered result t u h => exact ⟨t, u, .inr ⟨result, rfl, rfl⟩, observed h⟩
  | @raised e => exact e.elim
  | @exhausted t u h => exact ⟨t, u, .inl ⟨rfl, rfl⟩, observed h⟩

private def turns : Pipeline :=
  ⟨none, [.whileLoop (.expression ⟨"go", .truthy "go" false⟩)
    ⟨none, [.record "turn" (some "count"), .setAttribute "go" (.bool false)]⟩ {}]⟩

private theorem turns_builtOf : turns.BuiltOf Valve.IsDeclared := by
  have records : (Valve.record "turn" (some "count")).BuiltOf Valve.IsDeclared :=
    .intro nofun nofun nofun
  have sets : (Valve.setAttribute "go" (.bool false)).BuiltOf Valve.IsDeclared :=
    .intro nofun nofun nofun
  have body : (⟨none, [.record "turn" (some "count"), .setAttribute "go" (.bool false)]⟩ :
      Pipeline).BuiltOf Valve.IsDeclared :=
    .intro (List.forall_mem_cons.mpr ⟨records, List.forall_mem_singleton.mpr sets⟩)
  have declared : (Condition.expression ⟨"go", .truthy "go" false⟩).IsDeclared := .expression
  exact .intro (List.forall_mem_singleton.mpr (.intro nofun (List.forall_mem_singleton.mpr declared)
    (List.forall_mem_singleton.mpr body)))

private theorem turns_mentions {key : String} (h : turns.Mentions key) :
    key = "go" ∨ key = "count" := by
  cases h with
  | intro hv hmentions =>
    obtain rfl := List.mem_singleton.mp hv
    cases hmentions with
    | own hkey => exact .inl (List.mem_singleton.mp hkey)
    | child hp hchild =>
      obtain rfl := List.mem_singleton.mp hp
      cases hchild with
      | intro hv hmentions =>
        simp only [List.mem_cons, List.not_mem_nil, or_false] at hv
        rcases hv with rfl | rfl
        · cases hmentions with
          | own hkey => exact .inr (List.mem_singleton.mp hkey)
          | child hp _ => cases hp
        · cases hmentions with
          | own hkey => cases hkey
          | child hp _ => cases hp

theorem mentioned_attributes_decide_of_turns :
    let s := Session.start turns .collect {}
    let a : Attributes := ⟨[("count", .nat 1), ("go", .bool true), ("note", .bool true)]⟩
    let b : Attributes := ⟨[("count", .nat 1), ("go", .bool true), ("note", .bool false)]⟩
    ∃ t u : Session, ({ s with attributes := a } : Session).invoke 4 = .answered (.ok .completed) t ∧
      ({ s with attributes := b } : Session).invoke 4 = .answered (.ok .completed) u ∧
      t.transcript.journal = #["turn[1]"] ∧ u.transcript.journal = #["turn[1]"] ∧
      u.events = t.events ∧ u.attributes.get? "go" = t.attributes.get? "go" := by
  intro s a b
  have hab : ∀ key, s.pipeline.Mentions key → b.get? key = a.get? key := by
    intro key hkey
    rcases turns_mentions hkey with rfl | rfl <;> rfl
  obtain ⟨t, u, hruns, hjournal, hevents, -, hattributes⟩ :=
    mentioned_attributes_decide 4 (s := s) rfl turns_builtOf hab
  have hgo : u.attributes.get? "go" = t.attributes.get? "go" := hattributes "go" rfl
  rcases hruns with ⟨hcut, -⟩ | ⟨result, ha, hb⟩
  · cases hcut
  · cases ha
    exact ⟨_, u, rfl, hb, rfl, hjournal, hevents, hgo⟩

end ValvePipeline
