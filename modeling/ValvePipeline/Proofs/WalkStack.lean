import ValvePipeline.Proofs.OwnWork

/-!
The stack of walks. Whatever happens inside a call on the engine, the call ends with the walks it
began with: the same pipelines and cursors in the same order. Only the innermost walk may have
started more of its valves.
-/

set_option autoImplicit false
set_option relaxedAutoImplicit false

namespace ValvePipeline

theorem drop_range_eq_cons {place n : Nat} (h : place < n) :
    (List.range n).drop place = place :: (List.range n).drop (place + 1) := by
  have hlength : place < (List.range n).length := by rwa [List.length_range]
  rw [List.drop_eq_getElem_cons hlength, List.getElem_range]

namespace Frame

def started (f : Frame) : Nat :=
  match f.reached with
  | none => 0
  | some i => i + 1

theorem hasStarted_eq_true_iff (f : Frame) (i : Nat) :
    f.hasStarted i = true ↔ i < f.started := by
  cases h : f.reached with
  | none => simp [hasStarted, started, h]
  | some place =>
    simp only [hasStarted, started, h, Option.any_some, decide_eq_true_eq]
    omega

theorem hasStarted_eq_false_iff (f : Frame) (i : Nat) :
    f.hasStarted i = false ↔ f.started ≤ i := by
  rw [← Bool.not_eq_true, hasStarted_eq_true_iff, Nat.not_lt]

end Frame

/-- The same walks, except that the innermost one may have started more of its valves. -/
inductive SameWalks : List Frame → List Frame → Prop
  | nil : SameWalks [] []
  | cons {f g : Frame} {outer : List Frame} : g.pipeline = f.pipeline → g.cursor = f.cursor →
    f.started ≤ g.started → SameWalks (f :: outer) (g :: outer)

namespace SameWalks

theorem refl : ∀ frames : List Frame, SameWalks frames frames
  | [] => .nil
  | _ :: _ => .cons rfl rfl (Nat.le_refl _)

theorem trans {a b c : List Frame} (hab : SameWalks a b) (hbc : SameWalks b c) :
    SameWalks a c := by
  cases hab with
  | nil => exact hbc
  | cons hp hc hs =>
    cases hbc with
    | cons hp' hc' hs' => exact .cons (hp'.trans hp) (hc'.trans hc) (Nat.le_trans hs hs')

theorem length_eq {a b : List Frame} (h : SameWalks a b) : b.length = a.length := by
  cases h <;> rfl

theorem cursor_eq {a b : List Frame} (h : SameWalks a b) :
    b.head?.bind (·.cursor) = a.head?.bind (·.cursor) := by
  cases h with
  | nil => rfl
  | cons _ hc _ => exact hc

theorem tail_eq {a b : List Frame} (h : SameWalks a b) : b.tail = a.tail := by
  cases h <;> rfl

theorem of_cons {f : Frame} {outer b : List Frame} (h : SameWalks (f :: outer) b) :
    ∃ g, b = g :: outer ∧ g.pipeline = f.pipeline ∧ g.cursor = f.cursor ∧
      f.started ≤ g.started := by
  cases h with
  | cons hp hc hs => exact ⟨_, rfl, hp, hc, hs⟩

end SameWalks

namespace Session

def trail (s : Session) : List Moment :=
  s.transcript.trail.toList

@[simp] theorem trail_mark (s : Session) (m : Mark) :
    (s.mark m).trail = s.trail ++ [⟨m, s.frames, s.pending⟩] :=
  Array.toList_push

@[simp] theorem frames_mark (s : Session) (m : Mark) : (s.mark m).frames = s.frames := rfl

theorem frames_emit (s : Session) (type : String) (data : Json) :
    (s.emit type data).frames = s.frames := by
  unfold emit
  split <;> rfl

theorem trail_emit (s : Session) (type : String) (data : Json) :
    (s.emit type data).trail = s.trail := by
  unfold emit
  split <;> rfl

theorem attributes_emit (s : Session) (type : String) (data : Json) :
    (s.emit type data).attributes = s.attributes := by
  unfold emit
  split <;> rfl

theorem journal_emit (s : Session) (type : String) (data : Json) :
    (s.emit type data).transcript.journal = s.transcript.journal := by
  unfold emit
  split <;> rfl

theorem frames_leaveValve (i : Nat) (cursor : Option Nat) (failure : Option ValveFailure)
    {s : Session} {f : Frame} {outer : List Frame} (h : s.frames = f :: outer) :
    (s.leaveValve i cursor failure).frames = { f with cursor } :: outer := by
  simp [leaveValve, h]

def Walks (kind : Pipeline → Prop) (s : Session) : Prop :=
  ∀ f ∈ s.frames, kind f.pipeline

namespace Walks

variable {kind : Pipeline → Prop} {s t : Session}

theorem of_eq (h : s.Walks kind) (hframes : t.frames = s.frames) : t.Walks kind :=
  fun f hf => h f (hframes ▸ hf)

theorem innermost (h : s.Walks kind) {frame : Frame} {outer : List Frame}
    (hframes : s.frames = frame :: outer) : kind frame.pipeline :=
  h frame (hframes ▸ List.mem_cons_self)

theorem enterPipeline (h : s.Walks kind) {p : Pipeline} (hp : kind p) :
    (s.enterPipeline p).Walks kind := by
  intro f hf
  rcases List.mem_cons.mp hf with rfl | hf
  · exact hp
  · exact h f hf

theorem leavePipeline (h : s.Walks kind) (failure : Option ValveFailure) :
    (s.leavePipeline failure).Walks kind :=
  fun f hf => h f (List.mem_of_mem_tail hf)

theorem enterValve (h : s.Walks kind) {frame : Frame} {outer : List Frame} {i : Nat}
    (hframes : s.frames = frame :: outer) : (s.enterValve frame outer i).Walks kind := by
  intro f hf
  have innermost : kind frame.pipeline := h.innermost hframes
  rcases List.mem_cons.mp hf with rfl | hf
  · exact innermost
  · exact h f (hframes ▸ List.mem_cons_of_mem _ hf)

theorem leaveValve (h : s.Walks kind) (i : Nat) (cursor : Option Nat)
    (failure : Option ValveFailure) : (s.leaveValve i cursor failure).Walks kind := by
  intro f hf
  cases hframes : s.frames with
  | nil => simp [Session.leaveValve, hframes] at hf
  | cons frame outer =>
    have innermost : kind frame.pipeline := h.innermost hframes
    rw [frames_leaveValve _ _ _ hframes] at hf
    rcases List.mem_cons.mp hf with rfl | hf
    · exact innermost
    · exact h f (hframes ▸ List.mem_cons_of_mem _ hf)

end Walks

theorem trail_enterPipeline (s : Session) (p : Pipeline) : (s.enterPipeline p).trail =
    s.trail ++ [⟨.enterPipeline p.label, { pipeline := p } :: s.frames, s.pending⟩] :=
  trail_mark _ _

theorem trail_leavePipeline (failure : Option ValveFailure) (s : Session) :
    (s.leavePipeline failure).trail =
      s.trail ++ [⟨.leavePipeline failure, s.frames.tail, s.pending⟩] :=
  trail_mark _ _

theorem trail_leaveValve (i : Nat) (cursor : Option Nat) (failure : Option ValveFailure)
    (s : Session) : (s.leaveValve i cursor failure).trail = s.trail ++
      [⟨.leaveValve i failure, (s.leaveValve i cursor failure).frames, s.pending⟩] :=
  trail_mark _ _

end Session

namespace Change

variable {s t : Session}

theorem frames_eq (h : Change s t) : t.frames = s.frames := by
  cases h with
  | emit type data => exact s.frames_emit type data
  | _ => rfl

theorem trail_eq (h : Change s t) :
    t.trail = s.trail ∨ ∃ m, m.isPlain = true ∧ t = s.mark m := by
  cases h with
  | emit type data => exact .inl (s.trail_emit type data)
  | mark m hm => exact .inr ⟨m, hm, rfl⟩
  | _ => exact .inl rfl

end Change

theorem SameWalks.of_eq {a b : List Frame} (h : b = a) : SameWalks a b :=
  h ▸ .refl b

namespace Conduct

/-- The walks at the end are the walks at the beginning, except that the innermost one may have
started more of its valves. -/
def balanced : Conduct where
  done s t := SameWalks s.frames t.frames
  cut _ _ := True

def steady : Conduct where
  done s t := t.frames = s.frames
  cut _ _ := True

theorem steady_continues : steady.Continues where
  refl _ := rfl
  trans h h' := Eq.trans h' h
  cut_refl _ := trivial
  cut_trans _ _ := trivial
  change h := h.frames_eq

private theorem balanced_valve {s t : Session} {frame : Frame} {outer : List Frame}
    (failure : Option ValveFailure) (hframes : s.frames = frame :: outer)
    (hnew : frame.hasStarted frame.next = false)
    (h : SameWalks (s.enterValve frame outer frame.next).frames t.frames) :
    SameWalks s.frames (t.leaveValve frame.next frame.cursor failure).frames := by
  obtain ⟨g, hg, hp, -, hs⟩ := SameWalks.of_cons h
  rw [hframes, Session.frames_leaveValve _ _ _ hg]
  refine .cons hp rfl ?_
  rw [Frame.hasStarted_eq_false_iff] at hnew
  exact Nat.le_trans (Nat.le_succ_of_le hnew) hs

theorem balanced_covers : balanced.Covers where
  refl s := .refl s.frames
  trans := .trans
  cut_refl _ := trivial
  cut_trans _ _ := trivial
  change h := .of_eq h.frames_eq
  walk _ _ h := .of_eq (SameWalks.tail_eq h)
  walk_cut _ _ := trivial
  valve failure _ hframes hnew h := balanced_valve failure hframes hnew h
  valve_cut _ _ _ _ := trivial

end Conduct

namespace Walk

variable {start : Starter}

/-- A walk takes off the frame that it has put on, so nothing of it is left. -/
theorem runPipeline_steady (hstart : ∀ v, (start v).KeepsTo .balanced) (p : Pipeline) :
    (runPipeline start p).KeepsTo .steady := by
  have hproceed := proceed_keepsTo Conduct.balanced_covers hstart
  intro s
  simp only [runPipeline, Run.run_bind, Run.run_update, Run.run_afterwards]
  cases h : (proceed start).run (s.enterPipeline p) with
  | answered a t => exact SameWalks.tail_eq (hproceed.answered h)
  | raised e t => exact SameWalks.tail_eq (hproceed.raised h)
  | exhausted t => trivial

end Walk

end ValvePipeline
