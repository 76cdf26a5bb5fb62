import ValvePipeline.Proofs.Matching

/-!
Relations between the sessions of two runs. Such a relation lasts if it outlives the single changes that
the engine makes to a session, when both sessions undergo them. Then it outlives what is put together from
them: questions, boundaries, iterations and caught failures.
-/

set_option autoImplicit false
set_option relaxedAutoImplicit false

namespace ValvePipeline

def Run.Along {ε α : Type} (related : Session → Session → Prop) (x y : Run ε α) : Prop :=
  ∀ s t, related s t → (x.run s).Matches related (y.run t)

namespace Run.Along

variable {ε δ α β : Type} {related : Session → Session → Prop}

theorem act {f g : Session → α × Session}
    (h : ∀ s t, related s t → (g t).1 = (f s).1 ∧ related (f s).2 (g t).2) :
    (Run.act f : Run ε α).Along related (Run.act g) := by
  intro s t hst
  obtain ⟨hanswer, hafter⟩ := h s t hst
  rw [Run.run_act, Run.run_act, hanswer]
  exact .answered hafter

theorem read {f : Session → α} (h : ∀ s t, related s t → f t = f s) :
    (Run.read f : Run ε α).Along related (Run.read f) := by
  intro s t hst
  rw [Run.run_read, Run.run_read, h s t hst]
  exact .answered hst

theorem update {f g : Session → Session} (h : ∀ s t, related s t → related (f s) (g t)) :
    (Run.update f : Run ε Unit).Along related (Run.update g) :=
  fun s t hst => .answered (h s t hst)

theorem bind {x y : Run ε α} {f g : α → Run ε β} (hxy : x.Along related y)
    (hfg : ∀ a, (f a).Along related (g a)) : (x >>= f).Along related (y >>= g) := by
  intro s t hst
  have first := hxy s t hst
  rw [Run.run_bind, Run.run_bind]
  generalize x.run s = ending, y.run t = ending' at first ⊢
  cases first with
  | answered hafter => exact hfg _ _ _ hafter
  | raised hafter => exact .raised hafter
  | cut => exact .cut

theorem attempt {x y : Run ε α} (hxy : x.Along related y) :
    (Run.attempt x : Run δ (Except ε α)).Along related (Run.attempt y) := by
  intro s t hst
  have inner := hxy s t hst
  rw [Run.run_attempt, Run.run_attempt]
  generalize x.run s = ending, y.run t = ending' at inner ⊢
  cases inner with
  | answered hafter => exact .answered hafter
  | raised hafter => exact .answered hafter
  | cut => exact .cut

end Run.Along

namespace Session

theorem attributes_noteAll (s : Session) (entries : List String) :
    (s.noteAll entries).attributes = s.attributes := by
  induction entries generalizing s with
  | nil => rfl
  | cons entry entries ih => exact ih (s.note entry)

/-- The relation outlives the single changes that are made to both sessions. -/
structure Lasting (R : Session → Session → Prop) : Prop where
  depth {s t : Session} : R s t → t.depth = s.depth
  log {s t : Session} (severity : Severity) (message : String) (fields : List (String × Json)) :
    R s t → R (s.log severity message fields) (t.log severity message fields)
  note {s t : Session} (entry : String) : R s t → R (s.note entry) (t.note entry)
  set {s t : Session} (key : String) (value : Json) :
    R s t → R (s.setAttribute key value) (t.setAttribute key value)
  pend {s t : Session} (pending : Option Signal) : R s t → R { s with pending } { t with pending }
  emit {s t : Session} (type : String) (data : Json) :
    R s t → R (s.emit type data) (t.emit type data)
  asked {s t : Session} (condition : Condition) (answer : Bool) : R s t →
    R (s.mark (.ask condition s.attributes answer)) (t.mark (.ask condition t.attributes answer))
  iterated {s t : Session} (count : Nat) :
    R s t → R (s.mark (.iterate count)) (t.mark (.iterate count))

namespace Lasting

variable {R : Session → Session → Prop} {s t : Session}

theorem noteAll (hR : Lasting R) (h : R s t) (entries : List String) :
    R (s.noteAll entries) (t.noteAll entries) := by
  induction entries generalizing s t with
  | nil => exact h
  | cons entry entries ih => exact ih (hR.note entry h)

theorem ask (hR : Lasting R) (h : R s t) {condition : Condition}
    (heval : condition.eval t.attributes = condition.eval s.attributes) :
    (t.ask condition).1 = (s.ask condition).1 ∧ R (s.ask condition).2 (t.ask condition).2 := by
  have asked := hR.asked condition (condition.eval s.attributes).1
    (hR.noteAll h (condition.eval s.attributes).2)
  rw [attributes_noteAll, attributes_noteAll] at asked
  unfold Session.ask
  rw [heval]
  exact ⟨rfl, asked⟩

theorem begin (hR : Lasting R) (h : R s t) (config : LoopConfig) (count : Nat) :
    R (Loop.begin config count s) (Loop.begin config count t) :=
  hR.iterated count (hR.emit _ _ (hR.log _ _ _ (hR.set _ _ h)))

theorem catching (hR : Lasting R) (h : R s t) (config : CatchConfig) (failure : ValveFailure) :
    R (Guarded.catching config failure s) (Guarded.catching config failure t) :=
  hR.set _ _ (hR.emit _ _ (hR.log _ _ _ (hR.pend none h)))

theorem absorbBreak (hR : Lasting R) (h : R s t) (signal : Signal) (label : Option String) :
    R (s.absorbBreak signal label) (t.absorbBreak signal label) := by
  have dropped : R s.dropBreak t.dropBreak := hR.pend none h
  simp only [Session.absorbBreak, hR.depth dropped]
  exact hR.emit _ _ (hR.log _ _ _ dropped)

theorem passBreak (hR : Lasting R) (h : R s t) (signal next : Signal) (label : Option String) :
    R (s.passBreak signal next label) (t.passBreak signal next label) := by
  have dropped : R s.dropBreak t.dropBreak := hR.pend none h
  simp only [Session.passBreak, hR.depth dropped]
  exact hR.pend (some next) (hR.emit _ _ (hR.log _ _ _ dropped))

theorem settle (hR : Lasting R) (h : R s t) (hpending : t.pending = s.pending)
    (label : Option String) :
    (t.settle label).1 = (s.settle label).1 ∧ R (s.settle label).2 (t.settle label).2 := by
  cases hs : s.pending with
  | none =>
    rw [settle_of_none hs, settle_of_none (hpending.trans hs)]
    exact ⟨rfl, h⟩
  | some signal =>
    have ht : t.pending = some signal := hpending.trans hs
    cases hrule : signal.atBoundary label with
    | absorb =>
      rw [settle_of_absorb hs hrule, settle_of_absorb ht hrule]
      exact ⟨rfl, hR.absorbBreak h signal label⟩
    | propagate next =>
      rw [settle_of_propagate hs hrule, settle_of_propagate ht hrule]
      exact ⟨rfl, hR.passBreak h signal next label⟩

end Lasting

theorem exists_requestBreak_eq (s : Session) (signal : Signal) : ∃ lines, s.requestBreak signal =
    ({ s with
      pending := some signal
      transcript := { s.transcript with log := lines } } : Session).mark (.request signal) := by
  cases signal with
  | label name =>
    simp only [requestBreak]
    split <;> exact ⟨_, rfl⟩
  | level count => exact ⟨_, rfl⟩
  | exit => exact ⟨_, rfl⟩

/-- The relation compares the pending signals and what is reported, and it outlives single changes of both
sessions. The logs are not compared. -/
structure Close (R : Session → Session → Prop) : Prop where
  depth {s t : Session} : R s t → t.depth = s.depth
  pending {s t : Session} : R s t → t.pending = s.pending
  sink {s t : Session} : R s t → t.sink = s.sink
  locate {s t : Session} (data : Json) : R s t → t.locate data = s.locate data
  relog {s t : Session} (lines lines' : Array LogLine) : R s t →
    R { s with transcript := { s.transcript with log := lines } }
      { t with transcript := { t.transcript with log := lines' } }
  note {s t : Session} (entry : String) : R s t → R (s.note entry) (t.note entry)
  set {s t : Session} (key : String) (value : Json) :
    R s t → R (s.setAttribute key value) (t.setAttribute key value)
  pend {s t : Session} (pending : Option Signal) : R s t → R { s with pending } { t with pending }
  /-- A sink that collects has kept the same event in both. -/
  report {s t : Session} (event : Event) : s.sink = .collect → R s t →
    R { s with transcript := { s.transcript with events := s.transcript.events.push event } }
      { t with transcript := { t.transcript with events := t.transcript.events.push event } }
  asked {s t : Session} (condition : Condition) (answer : Bool) : R s t →
    R (s.mark (.ask condition s.attributes answer)) (t.mark (.ask condition t.attributes answer))
  iterated {s t : Session} (count : Nat) :
    R s t → R (s.mark (.iterate count)) (t.mark (.iterate count))
  requested {s t : Session} (signal : Signal) :
    R s t → R (s.mark (.request signal)) (t.mark (.request signal))

namespace Close

variable {R : Session → Session → Prop} {s t : Session}

theorem emit (hR : Close R) (h : R s t) (type : String) (data : Json) :
    R (s.emit type data) (t.emit type data) := by
  cases hs : s.sink with
  | discard =>
    have ht : t.sink = .discard := (hR.sink h).trans hs
    simpa only [Session.emit, hs, ht] using h
  | log severity =>
    have ht : t.sink = .log severity := (hR.sink h).trans hs
    simpa only [Session.emit, hs, ht] using hR.relog _ _ h
  | collect =>
    have ht : t.sink = .collect := (hR.sink h).trans hs
    simpa only [Session.emit, hs, ht, hR.locate data h] using hR.report _ hs h

theorem lasting (hR : Close R) : Lasting R where
  depth := hR.depth
  log _ _ _ := hR.relog _ _
  note := hR.note
  set := hR.set
  pend := hR.pend
  emit type data h := hR.emit h type data
  asked := hR.asked
  iterated := hR.iterated

theorem requestBreak (hR : Close R) (h : R s t) (signal : Signal) :
    R (s.requestBreak signal) (t.requestBreak signal) := by
  obtain ⟨lines, hs⟩ := s.exists_requestBreak_eq signal
  obtain ⟨lines', ht⟩ := t.exists_requestBreak_eq signal
  rw [hs, ht]
  exact hR.requested signal (hR.pend (some signal) (hR.relog lines lines' h))

theorem settle (hR : Close R) (h : R s t) (label : Option String) :
    (t.settle label).1 = (s.settle label).1 ∧ R (s.settle label).2 (t.settle label).2 :=
  hR.lasting.settle h (hR.pending h) label

end Close

end Session

end ValvePipeline
