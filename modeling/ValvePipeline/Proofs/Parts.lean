import ValvePipeline.Proofs.Nesting

/-!
The blocks of a guarded valve, told apart by their place. Two of them may be the same pipeline, so what
a walk walks does not tell which block it is. The trail does: it tells which blocks of the running valve
have ended and in which way, and this decides whose turn it is.
-/

set_option autoImplicit false
set_option relaxedAutoImplicit false

namespace ValvePipeline

def Mark.yields : Mark → Bool
  | .enterValve _ | .leavePipeline _ => true
  | _ => false

namespace Trail

def noteEnd (depth : Nat) (ends : List Moment) (m : Moment) : List Moment :=
  if m.frames.length = depth then
    match m.mark with
    | .enterValve _ => []
    | .leavePipeline _ => ends ++ [m]
    | _ => ends
  else ends

/-- The moments at which blocks of the valve that runs in the innermost of so many walks have ended. -/
def ended (depth : Nat) (history : List Moment) : List Moment :=
  history.foldl (noteEnd depth) []

variable {depth : Nat} {history moments : List Moment} {m : Moment}

theorem ended_concat (depth : Nat) (history : List Moment) (m : Moment) :
    ended depth (history ++ [m]) = noteEnd depth (ended depth history) m :=
  List.foldl_append

theorem ended_enterValve {i : Nat} (hm : m.mark = .enterValve i) (hdepth : m.frames.length = depth)
    (history : List Moment) : ended depth (history ++ [m]) = [] := by
  rw [ended_concat, noteEnd, if_pos hdepth, hm]

theorem ended_leavePipeline {failure : Option ValveFailure} (hm : m.mark = .leavePipeline failure)
    (hdepth : m.frames.length = depth) (history : List Moment) :
    ended depth (history ++ [m]) = ended depth history ++ [m] := by
  rw [ended_concat, noteEnd, if_pos hdepth, hm]

theorem ended_concat_of_ne (hm : m.mark.yields = false) (history : List Moment) :
    ended depth (history ++ [m]) = ended depth history := by
  rw [ended_concat]
  obtain ⟨mark, frames, pending⟩ := m
  cases mark <;> simp_all [noteEnd, Mark.yields]

theorem ended_append_of_deeper (h : ∀ m ∈ moments, depth < m.frames.length) :
    ended depth (history ++ moments) = ended depth history := by
  induction moments generalizing history with
  | nil => rw [List.append_nil]
  | cons m moments ih =>
    obtain ⟨hm, hmoments⟩ := List.forall_mem_cons.mp h
    rw [List.append_cons, ih hmoments, ended_concat, noteEnd, if_neg (Nat.ne_of_gt hm)]

end Trail

theorem Grows.ended_eq {s t : Session} (h : Grows s t) {f : Frame} {outer : List Frame}
    (hframes : s.frames = f :: outer) :
    Trail.ended outer.length t.trail = Trail.ended outer.length s.trail := by
  obtain ⟨moments, htrail, hbeneath⟩ := h
  rw [hframes] at hbeneath
  rw [htrail]
  exact Trail.ended_append_of_deeper fun m hm => (hbeneath m hm).length_lt

namespace Session

variable {s t : Session}

/-- The running valve has just begun, or the last one of these blocks of it has just ended. -/
def AtTurn (s : Session) (ends : List Moment) : Prop :=
  Trail.ended s.frames.length s.trail = ends ∧
    ∃ earlier r, s.trail = earlier ++ [r] ∧ r.mark.yields = true ∧ r.frames = s.frames

def LeftBlock (s : Session) (ends : List Moment) (failure : Option ValveFailure) : Prop :=
  (∃ earlier, s.trail = earlier ++ [⟨.leavePipeline failure, s.frames, s.pending⟩]) ∧
    Trail.ended s.frames.length s.trail = ends ++ [⟨.leavePipeline failure, s.frames, s.pending⟩]

theorem LeftBlock.atTurn {ends : List Moment} {failure : Option ValveFailure}
    (h : s.LeftBlock ends failure) :
    s.AtTurn (ends ++ [⟨.leavePipeline failure, s.frames, s.pending⟩]) := by
  obtain ⟨⟨earlier, htrail⟩, hended⟩ := h
  exact ⟨hended, earlier, _, htrail, rfl, rfl⟩

theorem AtTurn.of_eq {ends : List Moment} (h : s.AtTurn ends) (htrail : t.trail = s.trail)
    (hframes : t.frames = s.frames) : t.AtTurn ends := by
  unfold AtTurn
  rw [htrail, hframes]
  exact h

theorem atTurn_enterValve (s : Session) (f : Frame) (outer : List Frame) (i : Nat) :
    (s.enterValve f outer i).AtTurn [] := by
  refine ⟨?_, _, _, trail_mark _ _, rfl, rfl⟩
  rw [show (s.enterValve f outer i).trail = _ from trail_mark _ _]
  exact Trail.ended_enterValve
    (m := ⟨.enterValve i, (s.enterValve f outer i).frames, s.pending⟩) rfl rfl _

theorem ended_inside {p : Pipeline} (h : Conduct.nested.done (s.enterPipeline p) t) :
    Trail.ended s.frames.length t.trail = Trail.ended s.frames.length s.trail := by
  rw [h.2.ended_eq rfl, s.trail_enterPipeline]
  exact Trail.ended_append_of_deeper (List.forall_mem_singleton.mpr (Nat.lt_succ_self _))

theorem leftBlock_leavePipeline {p : Pipeline} (failure : Option ValveFailure)
    (h : Conduct.nested.done (s.enterPipeline p) t) :
    (t.leavePipeline failure).LeftBlock (Trail.ended s.frames.length s.trail) failure := by
  have hframes : (t.leavePipeline failure).frames = s.frames := SameWalks.tail_eq h.1
  have hleave : (t.leavePipeline failure).trail =
      t.trail ++ [⟨.leavePipeline failure, (t.leavePipeline failure).frames, t.pending⟩] :=
    t.trail_leavePipeline failure
  refine ⟨⟨t.trail, hleave⟩, ?_⟩
  rw [← ended_inside h, hleave, hframes]
  exact Trail.ended_leavePipeline (m := ⟨.leavePipeline failure, s.frames, t.pending⟩) rfl rfl _

end Session

namespace Guarded

inductive Part where
  | first
  | second
  | last
  deriving DecidableEq

variable {tryBlock catchBlock finallyBlock : Option Pipeline}

def failure? : Except ValveFailure (Option Pipeline) → Option ValveFailure
  | .ok _ => none
  | .error failure => some failure

/-- With blocks that have ended so, only the last block is left. -/
inductive Over (tryBlock catchBlock : Option Pipeline) : List Moment → Prop
  | untried : tryBlock = none → Over tryBlock catchBlock []
  | tried {m : Moment} : tryBlock.isSome = true → m.mark = .leavePipeline none →
    Over tryBlock catchBlock [m]
  | failed {m : Moment} {failure : ValveFailure} : tryBlock.isSome = true → catchBlock = none →
    m.mark = .leavePipeline (some failure) → Over tryBlock catchBlock [m]
  | handled {m n : Moment} {failure : ValveFailure} : tryBlock.isSome = true →
    catchBlock.isSome = true → m.mark = .leavePipeline (some failure) → Over tryBlock catchBlock [m, n]

/-- It is the turn of a block when other blocks have ended so. The second one follows a failure of the
first one only. -/
inductive Turn (tryBlock catchBlock finallyBlock : Option Pipeline) :
    List Moment → Part → Pipeline → Prop
  | first {block : Pipeline} : tryBlock = some block →
    Turn tryBlock catchBlock finallyBlock [] .first block
  | second {m : Moment} {failure : ValveFailure} {block : Pipeline} : tryBlock.isSome = true →
    m.mark = .leavePipeline (some failure) → catchBlock = some block →
    Turn tryBlock catchBlock finallyBlock [m] .second block
  | last {ends : List Moment} {block : Pipeline} : Over tryBlock catchBlock ends →
    finallyBlock = some block → Turn tryBlock catchBlock finallyBlock ends .last block

/-- What has ended decides whose turn it is. -/
theorem Turn.unique {ends : List Moment} {a b : Part} {p q : Pipeline}
    (ha : Turn tryBlock catchBlock finallyBlock ends a p)
    (hb : Turn tryBlock catchBlock finallyBlock ends b q) : a = b ∧ p = q := by
  cases ha with
  | first hblock =>
    cases hb with
    | first hother => exact ⟨rfl, Option.some.inj (hblock.symm.trans hother)⟩
    | last hover _ =>
      cases hover with
      | untried hnone => cases hblock.symm.trans hnone
  | second htry hfailed hblock =>
    cases hb with
    | second _ _ hother => exact ⟨rfl, Option.some.inj (hblock.symm.trans hother)⟩
    | last hover _ =>
      cases hover with
      | tried _ hended => cases hfailed.symm.trans hended
      | failed _ hnone _ => cases hblock.symm.trans hnone
  | last hover hblock =>
    cases hb with
    | first hother =>
      cases hover with
      | untried hnone => cases hnone.symm.trans hother
    | second _ hfailed hother =>
      cases hover with
      | tried _ hended => cases hfailed.symm.trans hended
      | failed _ hnone _ => cases hnone.symm.trans hother
    | last _ hother => exact ⟨rfl, Option.some.inj (hblock.symm.trans hother)⟩

end Guarded

end ValvePipeline
