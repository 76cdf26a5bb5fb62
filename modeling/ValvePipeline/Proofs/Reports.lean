import ValvePipeline.Proofs.UnwindingLaw

/-!
What events say. An event of the engine carries the fields that it was given and, besides, the position
of the session that emitted it. Only an emission adds an event, and only where a sink keeps it.
-/

set_option autoImplicit false
set_option relaxedAutoImplicit false

namespace ValvePipeline

namespace Table

variable {α : Type}

theorem get?_foldl_set {key : String} (pairs : List (String × α)) (t : Table α)
    (h : ∀ pair ∈ pairs, pair.1 ≠ key) :
    (pairs.foldl (fun t (key, value) => Table.set t key value) t).get? key = t.get? key := by
  induction pairs generalizing t with
  | nil => rfl
  | cons pair pairs ih =>
    rw [List.foldl_cons, ih _ fun other hother => h other (List.mem_cons_of_mem _ hother)]
    exact get?_set_of_ne (h pair List.mem_cons_self).symm t pair.2

end Table

def Event.field? (e : Event) (name : String) : Option Json :=
  e.data.bind (·.field? name)

namespace Session

def positionKeys : List String :=
  ["invocation_id", "request_id", "pipeline", "depth"]

theorem fst_mem_positionKeys {s : Session} {pair : String × Json} (h : pair ∈ s.position) :
    pair.1 ∈ positionKeys := by
  unfold position Identity.fields at h
  cases hrequest : s.identity.request with
  | none =>
    simp only [hrequest, List.cons_append, List.nil_append, List.mem_cons, List.not_mem_nil,
      or_false] at h
    rcases h with rfl | rfl | rfl <;> simp [positionKeys]
  | some request =>
    simp only [hrequest, List.cons_append, List.nil_append, List.mem_cons, List.not_mem_nil,
      or_false] at h
    rcases h with rfl | rfl | rfl | rfl <;> simp [positionKeys]

theorem field?_locate (s : Session) (fields : List (String × Json)) {key : String}
    (h : key ∉ positionKeys) :
    (s.locate (.ofFields fields)).field? key = (Json.ofFields fields).field? key :=
  Table.get?_foldl_set s.position _ fun _ hpair hkey => h (hkey ▸ fst_mem_positionKeys hpair)

/-- The depth of the session comes last, so that no other field overrides it. -/
theorem depth_locate (s : Session) (fields : List (String × Json)) :
    (s.locate (.ofFields fields)).field? "depth" = some (.nat s.depth) := by
  simp only [locate, Json.ofFields, Json.field?, Json.fields?, Option.bind_some, position,
    List.foldl_append, List.foldl_cons, List.foldl_nil]
  exact Table.get?_set_self _ _ _

def events (s : Session) : List Event :=
  s.transcript.events.toList

def event (s : Session) (type : String) (data : Json) : Event :=
  { type, data := some (s.locate data) }

theorem events_emit {s : Session} (h : s.sink = .collect) (type : String) (data : Json) :
    (s.emit type data).events = s.events ++ [s.event type data] := by
  simp [emit, h, events, event]

theorem events_emit_of_ne {s : Session} (h : s.sink ≠ .collect) (type : String) (data : Json) :
    (s.emit type data).events = s.events := by
  unfold emit
  split
  · rfl
  · contradiction
  · rfl

theorem events_ask (s : Session) (condition : Condition) :
    (s.ask condition).2.events = s.events := by
  have notes (entries : List String) (t : Session) : (t.noteAll entries).events = t.events := by
    induction entries generalizing t with
    | nil => rfl
    | cons entry entries ih => exact ih (t.note entry)
  exact notes _ s

theorem sink_emit (s : Session) (type : String) (data : Json) :
    (s.emit type data).sink = s.sink := by
  unfold emit
  split <;> rfl

theorem field?_event (s : Session) (type : String) (fields : List (String × Json)) {key : String}
    (h : key ∉ positionKeys) :
    (s.event type (.ofFields fields)).field? key = (Json.ofFields fields).field? key :=
  s.field?_locate fields h

theorem exists_event_of_emit {s : Session} (h : s.sink = .collect) (type : String)
    (fields : List (String × Json)) : ∃ e, (s.emit type (.ofFields fields)).events = s.events ++ [e] ∧
      e.type = type ∧ ∀ key, key ∉ positionKeys → e.field? key = (Json.ofFields fields).field? key :=
  ⟨_, events_emit h type _, rfl, fun _ hkey => s.field?_event type fields hkey⟩

theorem depth_event (s : Session) (type : String) (fields : List (String × Json)) :
    (s.event type (.ofFields fields)).field? "depth" = some (.nat s.depth) :=
  s.depth_locate fields

end Session

namespace Walk

theorem sink_reportFailed (failure : ValveFailure) (s : Session) :
    (reportFailed failure s).sink = s.sink :=
  Session.sink_emit ..

theorem events_reportFailed (failure : ValveFailure) {s : Session} (h : s.sink = .collect) :
    ∃ e, (reportFailed failure s).events = s.events ++ [e] ∧ e.type = "invocation.failed" ∧
      e.field? "error" = some failure.toJson := by
  obtain ⟨e, hevents, htype, hfields⟩ := Session.exists_event_of_emit (s := s.log ..) h _ _
  exact ⟨e, hevents, htype, hfields "error" (by decide)⟩

theorem events_reportUnwound (signal : Signal) {s : Session} (h : s.sink = .collect) :
    ∃ e, (reportUnwound signal s).events = s.events ++ [e] ∧ e.type = "invocation.unwound" ∧
      e.field? "signal" = some signal.toJson := by
  obtain ⟨e, hevents, htype, hfields⟩ := Session.exists_event_of_emit (s := s.log ..) h _ _
  exact ⟨e, hevents, htype, hfields "signal" (by decide)⟩

theorem events_reportCompleted {s : Session} (h : s.sink = .collect) :
    ∃ e, (reportCompleted s).events = s.events ++ [e] ∧ e.type = "invocation.completed" :=
  ⟨_, Session.events_emit h _ _, rfl⟩

theorem events_launched {s : Session} (h : s.sink = .collect) :
    ∃ e, (launched s).events = s.events ++ [e] ∧ e.type = "invocation.started" :=
  ⟨_, Session.events_emit (s := { s with invoked := true }) h _ _, rfl⟩

end Walk

end ValvePipeline
