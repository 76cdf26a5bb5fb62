import ValvePipeline.Proofs.Accounts

/-!
Probes: valves that only pass, log or record. The sessions of two runs, one with probes and one without
them, differ in the places of their valves, in their logs and in the entries of the probes. No step that the
engine takes for a valve tells the two sessions apart.
-/

set_option autoImplicit false
set_option relaxedAutoImplicit false

namespace ValvePipeline

def Valve.isProbe : Valve → Bool
  | .passThrough | .log _ _ | .record _ _ => true
  | _ => false

/-- A recording valve among the probes writes the entry, in whatever state it does so. -/
def ProbeEntry (probes : Valve → Prop) (entry : String) : Prop :=
  ∃ name counter attributes, probes (.record name counter) ∧
    entry = Valve.recordEntry name counter attributes

namespace Session

/-- The second session is one of a run with probes, beside one of the run without them. -/
structure Observed (probes : Valve → Prop) (s t : Session) : Prop where
  identity : t.identity = s.identity
  label : t.pipeline.label = s.pipeline.label
  attributes : t.attributes = s.attributes
  pending : t.pending = s.pending
  depth : t.depth = s.depth
  invoked : t.invoked = s.invoked
  sink : t.sink = s.sink
  events : t.transcript.events = s.transcript.events
  /-- Without the entries of probes the journal is that of the run without them. -/
  journal : Woven (ProbeEntry probes) s.transcript.journal.toList t.transcript.journal.toList
  asked : t.asked = s.asked

namespace Observed

variable {probes : Valve → Prop} {s t : Session}

theorem remark (h : s.Observed probes t) {m n : Mark}
    (hasked : s.asked ++ m.account.asked = t.asked ++ n.account.asked) :
    (s.mark m).Observed probes (t.mark n) :=
  { h with
    events := h.events
    journal := h.journal
    asked := by
      rw [asked_mark, asked_mark]
      exact hasked.symm }

theorem shallow (probes : Valve → Prop) : Shallow (Observed probes) where
  identity h := h.identity
  label h := h.label
  attributes h := h.attributes
  pending h := h.pending
  depth h := h.depth
  invoked h := h.invoked
  sink h := h.sink
  relog _ _ h := { h with
    events := h.events
    journal := h.journal
    asked := h.asked }
  note entry h := { h with
    events := h.events
    asked := h.asked
    journal := by
      simpa only [Session.note, Array.toList_push] using h.journal.append (.refl _ [entry]) }
  set key value h := { h with
    attributes := congrArg (·.set key value) h.attributes
    asked := h.asked }
  pend _ h := { h with
    pending := rfl
    asked := h.asked }
  report event _ h := { h with
    events := congrArg (·.push event) h.events
    journal := h.journal
    asked := h.asked }
  invoke h := { h with
    invoked := rfl
    asked := h.asked }
  rewalk hdepth h := { h with
    depth := hdepth
    asked := h.asked }
  mark hmn h := h.remark (by rw [hmn, h.asked])

/-! What only the run with the probes does. -/

theorem addLog (h : s.Observed probes t) (severity : Severity) (message : String)
    (fields : List (String × Json)) : s.Observed probes (t.log severity message fields) :=
  (shallow probes).relog s.transcript.log _ h

theorem addNote (h : s.Observed probes t) {entry : String} (hentry : ProbeEntry probes entry) :
    s.Observed probes (t.note entry) :=
  { h with
    events := h.events
    asked := h.asked
    journal := by
      simpa only [Session.note, Array.toList_push] using
        h.journal.more fun _ ha => List.mem_singleton.mp ha ▸ hentry }

theorem addMark (h : s.Observed probes t) {m : Mark} (hm : m.account.asked = []) :
    s.Observed probes (t.mark m) :=
  { h with
    events := h.events
    journal := h.journal
    asked := by rw [asked_mark, hm, List.append_nil, h.asked] }

theorem addEnterValve (h : s.Observed probes t) {g : Frame} {others : List Frame}
    (ht : t.frames = g :: others) (i : Nat) : s.Observed probes (t.enterValve g others i) := by
  have hdepth : t.frames.length = s.frames.length := h.depth
  rw [ht] at hdepth
  have begun : Observed probes { s with frames := s.frames }
      { t with frames := { g with cursor := some i, reached := some i } :: others } :=
    (shallow probes).rewalk hdepth h
  exact begun.addMark rfl

theorem addLeaveValve (h : s.Observed probes t) (i : Nat) (cursor : Option Nat)
    (failure : Option ValveFailure) : s.Observed probes (t.leaveValve i cursor failure) := by
  have hdepth : (t.leaveValve i cursor failure).frames.length = s.frames.length :=
    (t.length_leaveValve i cursor failure).trans h.depth
  have left : Observed probes { s with frames := s.frames }
      { t with frames := (t.leaveValve i cursor failure).frames } :=
    (shallow probes).rewalk hdepth h
  exact left.addMark rfl

end Observed

end Session

theorem Session.Observed.probe {probes : Valve → Prop} {s t : Session} (h : s.Observed probes t) {w : Valve}
    (hw : probes w) (hprobe : w.isProbe = true) (start : Starter) (steps : Nat) :
    ∃ u, s.Observed probes u ∧ u.frames = t.frames ∧
      (w.work start steps).run t = (Walk.proceed start).run u := by
  cases w with
  | passThrough => exact ⟨t, h, rfl, rfl⟩
  | log severity message => exact ⟨_, h.addLog .., rfl, rfl⟩
  | record name counter =>
    have entry : ProbeEntry probes (Valve.recordEntry name counter t.attributes) :=
      ⟨name, counter, t.attributes, hw, rfl⟩
    exact ⟨_, h.addNote entry, rfl, rfl⟩
  | _ => cases hprobe

end ValvePipeline
