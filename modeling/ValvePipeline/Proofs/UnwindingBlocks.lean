import ValvePipeline.Proofs.Flat
import ValvePipeline.Proofs.Unwinding

/-!
Break requests inside the work of one valve. When the walks of a valve's blocks leave their scopes as
they should, so does the work of the valve: a signal that a block leaves meets its boundary, after the
finally block if there is one, and either stops there or stays pending for the walk around the valve.
-/

set_option autoImplicit false
set_option relaxedAutoImplicit false

namespace ValvePipeline

/-- What has become of a signal when these scopes were left: all of their boundaries have passed it on,
or the last one has absorbed it. -/
inductive Left (signal : Signal) : List Frame → Option Signal → Prop
  | passed {scopes : List Frame} : signal.Survives (labels scopes) →
    Left signal scopes (some (signal.residue scopes.length))
  | stopped {scopes : List Frame} {f : Frame} : signal.Survives (labels scopes) →
    (signal.residue scopes.length).atBoundary f.pipeline.label = .absorb →
    Left signal (scopes ++ [f]) none

/-- All scopes inside these walks were left, and what has become of the signal is what is pending. -/
def Open (walks : List Frame) (pending : Option Signal) : Fate := fun before m signal after =>
  ∃ scopes, m.frames = scopes ++ walks ∧ Left signal scopes pending ∧
    Unwinds before scopes walks after

/-- The walk of a block was left with this signal, which has not met the boundary of the block yet. So
many blocks of the valve around it had ended when the signal was requested. -/
def Leaving (ends : List Moment) (outer : List Frame) (block : Pipeline) (pending : Signal) : Fate :=
  fun before m signal after =>
    Trail.ended outer.length before = ends ∧
      ∃ scopes f sofar leave, m.frames = scopes ++ f :: outer ∧ f.pipeline = block ∧
        signal.Survives (labels scopes) ∧ pending = signal.residue scopes.length ∧
        Unwinds before scopes (f :: outer) sofar ∧ leave.map (·.mark) = f.leaving ∧
        after = sofar ++ leave

namespace Session

theorem trail_settle (s : Session) (label : Option String) :
    (s.settle label).2.trail = s.trail := by
  cases hpending : s.pending with
  | none => rw [settle_of_none hpending]
  | some signal =>
    cases hsignal : signal.atBoundary label with
    | absorb =>
      rw [settle_of_absorb hpending hsignal]
      exact trail_emit ..
    | propagate next =>
      rw [settle_of_propagate hpending hsignal]
      exact trail_emit ..

theorem frames_settle (s : Session) (label : Option String) :
    (s.settle label).2.frames = s.frames :=
  Conduct.steady_continues.settle s label

theorem pending_absorbBreak (s : Session) (signal : Signal) (label : Option String) :
    (s.absorbBreak signal label).pending = none := by
  unfold absorbBreak emit
  dsimp only
  split <;> rfl

end Session

namespace Leaving

variable {ends : List Moment} {outer : List Frame} {block : Pipeline} {pending : Signal}
  {before : List Moment} {m : Moment} {signal : Signal} {after : List Moment}

theorem settle (h : Leaving ends outer block pending before m signal after) {clear : List Moment}
    (hclear : Clears before outer block clear) {t : Session} (ht : t.pending = some pending) :
    Open outer (t.settle block.label).2.pending before m signal (after ++ clear) := by
  obtain ⟨-, scopes, f, sofar, leave, hm, rfl, hsurvives, rfl, hunwinds, hleave, rfl⟩ := h
  refine ⟨scopes ++ [f], by simpa using hm, ?_, .concat hunwinds hleave hclear⟩
  have hlength : (labels scopes).length = scopes.length := List.length_map _
  rw [← hlength] at ht
  cases hsignal : (signal.residue (labels scopes).length).atBoundary f.pipeline.label with
  | absorb =>
    rw [Session.settle_of_absorb ht hsignal, Session.pending_absorbBreak]
    exact .stopped hsurvives (hlength ▸ hsignal)
  | propagate next =>
    rw [Session.settle_of_propagate ht hsignal]
    obtain ⟨hnext, rfl⟩ := hsurvives.concat hsignal
    have hpassed : signal.Survives (labels (scopes ++ [f])) := by simpa [labels] using hnext
    have := Left.passed hpassed
    rwa [List.length_append, List.length_singleton, ← hlength] at this

theorem reachesBlock (h : Leaving ends outer block pending before m signal after) {last : Pipeline}
    {moments : List Moment} (howes : Owes before outer block last)
    (hunderway : Underway outer last moments) :
    ReachesBlock before m signal outer (after ++ moments) := by
  obtain ⟨-, scopes, f, sofar, leave, hm, rfl, hsurvives, -, hunwinds, hleave, rfl⟩ := h
  exact ⟨scopes, f, last, sofar, leave, moments, hm, hsurvives, hunwinds, hleave, howes,
    hunderway, rfl⟩

theorem spoiled (h : Leaving ends outer block pending before m signal after) {last : Pipeline}
    {moments : List Moment} (howes : Owes before outer block last)
    (hunderway : Underway outer last moments) {failure : Option ValveFailure}
    {left : Option Signal} (hbad : failure.isSome = true ∨ left.isSome = true) :
    Done before m signal (after ++ (moments ++ [⟨.leavePipeline failure, outer, left⟩])) :=
  .inr ⟨outer, _, failure, left, [], h.reachesBlock howes hunderway, by simp, hbad⟩

end Leaving

inductive Ending.Walked (block : Pipeline) (s : Session) : Ending ValveFailure WalkEnd → Prop
  | completed {t : Session} {inside : List Moment} :
    t.trail = s.trail ++ (inside ++ [⟨.leavePipeline none, s.frames, none⟩]) →
    t.frames = s.frames → t.pending = none → Underway s.frames block inside →
    Fates Done s.trail (inside ++ [⟨.leavePipeline none, s.frames, none⟩]) →
    Walked block s (.answered .completed t)
  | unwound {t : Session} {inside : List Moment} {pending : Signal} :
    t.trail = s.trail ++ (inside ++ [⟨.leavePipeline none, s.frames, some pending⟩]) →
    t.frames = s.frames → t.pending = some pending → Underway s.frames block inside →
    Fates (DoneOr (Leaving (Trail.ended s.frames.length s.trail) s.frames block pending)) s.trail
      (inside ++ [⟨.leavePipeline none, s.frames, some pending⟩]) →
    Walked block s (.answered .unwound t)
  | raised {t : Session} {inside : List Moment} {failure : ValveFailure} {left : Option Signal} :
    t.trail = s.trail ++ (inside ++ [⟨.leavePipeline (some failure), s.frames, left⟩]) →
    t.frames = s.frames → Underway s.frames block inside →
    Fates Done s.trail (inside ++ [⟨.leavePipeline (some failure), s.frames, left⟩]) →
    Walked block s (.raised failure t)
  | exhausted {t : Session} {inside : List Moment} :
    t.trail = s.trail ++ inside → Underway s.frames block inside →
    Fates (DoneOr CutShort) s.trail inside → Walked block s (.exhausted t)

theorem Underway.ended_left {walks : List Frame} {block : Pipeline} {inside : List Moment}
    (h : Underway walks block inside) {s t : Session} {failure : Option ValveFailure}
    {left : Option Signal}
    (htrail : t.trail = s.trail ++ (inside ++ [⟨.leavePipeline failure, walks, left⟩])) :
    Trail.ended walks.length t.trail =
      Trail.ended walks.length s.trail ++ [⟨.leavePipeline failure, walks, left⟩] := by
  calc
    _ = Trail.ended walks.length
          ((s.trail ++ inside) ++ [⟨.leavePipeline failure, walks, left⟩]) := by
      rw [htrail, List.append_assoc]
    _ = Trail.ended walks.length (s.trail ++ inside) ++ [⟨.leavePipeline failure, walks, left⟩] :=
      Trail.ended_leavePipeline (m := ⟨.leavePipeline failure, walks, left⟩) rfl rfl _
    _ = _ := by rw [h.ended_eq]

inductive Ending.Orderly {ε α : Type} (walks : List Frame) (s : Session) : Ending ε α → Prop
  | answered {a : α} {t : Session} {moments : List Moment} : t.trail = s.trail ++ moments →
    t.frames = walks → Fates (DoneOr (Open walks t.pending)) s.trail moments →
    Orderly walks s (.answered a t)
  | raised {e : ε} {t : Session} {moments : List Moment} : t.trail = s.trail ++ moments →
    Fates Done s.trail moments → Orderly walks s (.raised e t)
  | exhausted {t : Session} {moments : List Moment} : t.trail = s.trail ++ moments →
    Fates (DoneOr CutShort) s.trail moments → Orderly walks s (.exhausted t)

namespace Ending.Orderly

variable {ε α : Type} {walks : List Frame} {s t : Session}

theorem quiet {a : α} (htrail : t.trail = s.trail) (hframes : t.frames = walks) :
    Orderly walks s (.answered a t : Ending ε α) :=
  .answered (htrail.trans (List.append_nil _).symm) hframes .nil

theorem prepend {before : List Moment} (htrail : t.trail = s.trail ++ before)
    (hdone : Fates Done s.trail before) {ending : Ending ε α} (h : ending.Orderly walks t) :
    ending.Orderly walks s := by
  have whole {u : Session} {moments : List Moment} (hu : u.trail = t.trail ++ moments) :
      u.trail = s.trail ++ (before ++ moments) := by rw [hu, htrail, List.append_assoc]
  cases h with
  | answered ht hframes hfates =>
    exact .answered (whole ht) hframes (hdone.done_append_or (htrail ▸ hfates))
  | raised ht hfates => exact .raised (whole ht) (hdone.done_append (htrail ▸ hfates))
  | exhausted ht hfates => exact .exhausted (whole ht) (hdone.done_append_or (htrail ▸ hfates))

theorem after_mark {m : Moment} (htrail : t.trail = s.trail ++ [m])
    (hm : ∀ signal, m.mark ≠ .request signal) {ending : Ending ε α} (h : ending.Orderly walks t) :
    ending.Orderly walks s :=
  prepend htrail (.single hm) h

end Ending.Orderly

namespace Session

theorem trail_noteAll (s : Session) (entries : List String) :
    (s.noteAll entries).trail = s.trail := by
  induction entries generalizing s with
  | nil => rfl
  | cons entry entries ih => exact ih (s.note entry)

theorem frames_ask (s : Session) (condition : Condition) :
    (s.ask condition).2.frames = s.frames :=
  Conduct.steady_continues.ask s condition

theorem pending_ask (s : Session) (condition : Condition) :
    (s.ask condition).2.pending = s.pending := by
  have notes (entries : List String) (t : Session) : (t.noteAll entries).pending = t.pending := by
    induction entries generalizing t with
    | nil => rfl
    | cons entry entries ih => exact ih (t.note entry)
  exact notes _ s

theorem trail_ask (s : Session) (condition : Condition) :
    ∃ answer frames pending, (s.ask condition).2.trail =
      s.trail ++ [⟨.ask condition s.attributes answer, frames, pending⟩] :=
  ⟨_, _, _, (trail_mark _ _).trans (by rw [trail_noteAll])⟩

theorem pending_emit (s : Session) (type : String) (data : Json) :
    (s.emit type data).pending = s.pending := by
  unfold emit
  split <;> rfl

theorem trail_begin (s : Session) (config : LoopConfig) (count : Nat) :
    ∃ frames pending, (Loop.begin config count s).trail =
      s.trail ++ [⟨.iterate count, frames, pending⟩] :=
  ⟨_, _, (trail_mark _ _).trans (by rw [trail_emit]; rfl)⟩

theorem pending_begin (s : Session) (config : LoopConfig) (count : Nat) :
    (Loop.begin config count s).pending = s.pending :=
  pending_emit ..

theorem trail_requestBreak (s : Session) (signal : Signal) :
    (s.requestBreak signal).trail =
      s.trail ++ [⟨.request signal, s.frames, some signal⟩] := by
  cases signal with
  | label name =>
    simp only [requestBreak]
    split <;> exact Array.toList_push
  | level count => exact Array.toList_push
  | exit => exact Array.toList_push

theorem settle_ne_completed {s : Session} {signal : Signal} (h : s.pending = some signal)
    (label : Option String) : (s.settle label).1 ≠ .completed := by
  cases hsignal : signal.atBoundary label with
  | absorb => rw [settle_of_absorb h hsignal]; nofun
  | propagate next => rw [settle_of_propagate h hsignal]; nofun

end Session

def Walker.Orderly (walk : Walker) (block : Pipeline) : Prop :=
  ∀ s : Session, s.pending = none → ((walk block).run s).Walked block s

inductive Ending.Bounded (walks : List Frame) (s : Session) :
    Ending ValveFailure Settlement → Prop
  | completed {t : Session} {moments : List Moment} : t.trail = s.trail ++ moments →
    t.frames = walks → t.pending = none → Fates Done s.trail moments →
    Bounded walks s (.answered .completed t)
  | met {settlement : Settlement} {t : Session} {moments : List Moment} :
    settlement ≠ .completed → t.trail = s.trail ++ moments → t.frames = walks →
    Fates (DoneOr (Open walks t.pending)) s.trail moments →
    Bounded walks s (.answered settlement t)
  | raised {failure : ValveFailure} {t : Session} {moments : List Moment} :
    t.trail = s.trail ++ moments → Fates Done s.trail moments → Bounded walks s (.raised failure t)
  | exhausted {t : Session} {moments : List Moment} : t.trail = s.trail ++ moments →
    Fates (DoneOr CutShort) s.trail moments → Bounded walks s (.exhausted t)

theorem Fates.settle {ends : List Moment} {outer : List Frame} {block : Pipeline} {signal : Signal}
    {history moments : List Moment}
    (h : Fates (DoneOr (Leaving ends outer block signal)) history moments)
    (howes : ∀ before, Trail.ended outer.length before = ends → OwesNothing before outer block)
    {t : Session} (ht : t.pending = some signal) :
    Fates (DoneOr (Open outer (t.settle block.label).2.pending)) history moments := by
  refine h.mono fun before m sig after hfate => ?_
  rcases hfate with hdone | hleaving
  · exact .inl hdone
  · have hopen := hleaving.settle (.nothing (howes before hleaving.1)) ht
    rw [List.append_nil] at hopen
    exact .inr hopen

theorem Walk.runBoundary_bounded {walk : Walker} {block : Pipeline} (hwalk : walk.Orderly block)
    {walks : List Frame} (howes : ∀ before, OwesNothing before walks block) {s : Session}
    (hpending : s.pending = none) (hwalks : s.frames = walks) :
    ((runBoundary walk block).run s).Bounded walks s := by
  subst hwalks
  have walked := hwalk s hpending
  rw [runBoundary, Run.run_bind]
  generalize (walk block).run s = ending at walked ⊢
  cases walked with
  | @completed t inside htrail hframes ht _ hfates =>
    show Ending.Bounded _ s (.answered (t.settle block.label).1 (t.settle block.label).2)
    rw [Session.settle_of_none ht]
    exact .completed htrail hframes ht hfates
  | @unwound t inside signal htrail hframes ht _ hfates =>
    exact .met (Session.settle_ne_completed ht _) ((t.trail_settle _).trans htrail)
      ((t.frames_settle _).trans hframes) (hfates.settle (fun before _ => howes before) ht)
  | raised htrail _ _ hfates => exact .raised htrail hfates
  | exhausted htrail _ hfates => exact .exhausted htrail hfates

namespace Flat

variable {walk : Walker} {walks : List Frame} {s : Session}

theorem ask_orderly {ε α : Type} {condition : Condition} {f : Bool → Run ε α}
    (hpending : s.pending = none) (hwalks : s.frames = walks)
    (h : ∀ answer t, t.pending = none → t.frames = walks → ((f answer).run t).Orderly walks t) :
    ((Run.act (·.ask condition) >>= f).run s).Orderly walks s := by
  obtain ⟨answer, frames, pending, htrail⟩ := s.trail_ask condition
  exact .after_mark htrail nofun
    (h _ _ ((s.pending_ask condition).trans hpending) ((s.frames_ask condition).trans hwalks))

theorem block_orderly {block : Pipeline} (hwalk : walk.Orderly block)
    (howes : ∀ before, OwesNothing before walks block) (hpending : s.pending = none) (hwalks : s.frames = walks) :
    ((Flat.block walk block).run s).Orderly walks s := by
  have bounded := Walk.runBoundary_bounded hwalk howes hpending hwalks
  rw [Flat.block, Run.run_bind]
  generalize (Walk.runBoundary walk block).run s = ending at bounded ⊢
  cases bounded with
  | completed htrail hframes _ hfates =>
    exact .answered htrail hframes hfates.done_or
  | met _ htrail hframes hfates => exact .answered htrail hframes hfates
  | raised htrail hfates => exact .raised htrail hfates
  | exhausted htrail hfates => exact .exhausted htrail hfates

theorem asks_orderly {condition : Option Condition} {f : Bool → Run ValveFailure Unit}
    (hpending : s.pending = none) (hwalks : s.frames = walks)
    (h : ∀ more t, t.pending = none → t.frames = walks → ((f more).run t).Orderly walks t) :
    ((Loop.asksForMore condition >>= f).run s).Orderly walks s := by
  cases condition with
  | none => exact h true s hpending hwalks
  | some condition => exact ask_orderly hpending hwalks h

theorem iterate_orderly {body : Pipeline} (hwalk : walk.Orderly body)
    (howes : ∀ before, OwesNothing before walks body) (condition : Option Condition) (config : LoopConfig)
    (steps count : Nat) (hpending : s.pending = none) (hwalks : s.frames = walks) :
    ((iterate walk condition body config steps count).run s).Orderly walks s := by
  induction steps generalizing count s with
  | zero => exact .exhausted (List.append_nil _).symm .nil
  | succ steps ih =>
    refine asks_orderly hpending hwalks fun more t ht hframes => ?_
    cases more with
    | false => exact .quiet rfl hframes
    | true =>
      rw [if_pos rfl]
      split
      · exact .raised (List.append_nil _).symm .nil
      · obtain ⟨frames, pending, htrail⟩ := t.trail_begin config count
        refine .after_mark htrail nofun ?_
        have bounded := Walk.runBoundary_bounded hwalk howes
          ((t.pending_begin config count).trans ht)
          ((Conduct.steady_continues.begin config trivial count t).trans hframes)
        simp only [Run.run_bind, Run.run_update]
        generalize (Walk.runBoundary walk body).run (Loop.begin config count t) = ending
          at bounded ⊢
        cases bounded with
        | completed htrail hframes hpending hfates =>
          exact .prepend htrail hfates (ih (count + 1) hpending hframes)
        | @met settlement u moments hne htrail hframes hfates =>
          cases settlement with
          | completed => exact absurd rfl hne
          | absorbed => exact .answered htrail hframes hfates
          | propagated => exact .answered htrail hframes hfates
        | raised htrail hfates => exact .raised htrail hfates
        | exhausted htrail hfates => exact .exhausted htrail hfates

end Flat

inductive Ending.Tried {ε : Type} (tryBlock catchBlock : Option Pipeline) (walks : List Frame)
    (s : Session) : Ending ε (Except ValveFailure (Option Pipeline)) → Prop
  | completed {t : Session} {moments : List Moment} : t.trail = s.trail ++ moments →
    t.frames = walks → t.pending = none → Fates Done s.trail moments →
    Guarded.Over tryBlock catchBlock (Trail.ended walks.length t.trail) →
    Tried tryBlock catchBlock walks s (.answered (.ok none) t)
  | unwound {block : Pipeline} {part : Guarded.Part} {ends : List Moment} {t : Session}
    {signal : Signal} {moments : List Moment} : t.trail = s.trail ++ moments → t.frames = walks →
    t.pending = some signal →
    (∀ last, Guarded.Turn tryBlock catchBlock last ends part block) → part ≠ .last →
    Fates (DoneOr (Leaving ends walks block signal)) s.trail moments →
    Guarded.Over tryBlock catchBlock (Trail.ended walks.length t.trail) →
    Tried tryBlock catchBlock walks s (.answered (.ok (some block)) t)
  | failed {failure : ValveFailure} {t : Session} {moments : List Moment} :
    t.trail = s.trail ++ moments → t.frames = walks → Fates Done s.trail moments →
    Guarded.Over tryBlock catchBlock (Trail.ended walks.length t.trail) →
    Tried tryBlock catchBlock walks s (.answered (.error failure) t)
  | exhausted {t : Session} {moments : List Moment} : t.trail = s.trail ++ moments →
    Fates (DoneOr CutShort) s.trail moments → Tried tryBlock catchBlock walks s (.exhausted t)

inductive Ending.Ran {ε : Type} (walks : List Frame) (block : Pipeline) (s : Session) :
    Ending ε (Except ValveFailure (Option Pipeline)) → Prop
  | completed {t : Session} {moments : List Moment} : t.trail = s.trail ++ moments →
    t.frames = walks → t.pending = none → Fates Done s.trail moments →
    Trail.ended walks.length t.trail =
      Trail.ended walks.length s.trail ++ [⟨.leavePipeline none, walks, none⟩] →
    Ran walks block s (.answered (.ok none) t)
  | unwound {t : Session} {signal : Signal} {moments : List Moment} :
    t.trail = s.trail ++ moments → t.frames = walks → t.pending = some signal →
    Fates (DoneOr (Leaving (Trail.ended walks.length s.trail) walks block signal)) s.trail
      moments →
    Trail.ended walks.length t.trail =
      Trail.ended walks.length s.trail ++ [⟨.leavePipeline none, walks, some signal⟩] →
    Ran walks block s (.answered (.ok (some block)) t)
  | failed {failure : ValveFailure} {left : Option Signal} {t : Session} {moments : List Moment} :
    t.trail = s.trail ++ moments → t.frames = walks → Fates Done s.trail moments →
    Trail.ended walks.length t.trail =
      Trail.ended walks.length s.trail ++ [⟨.leavePipeline (some failure), walks, left⟩] →
    Ran walks block s (.answered (.error failure) t)
  | exhausted {t : Session} {moments : List Moment} : t.trail = s.trail ++ moments →
    Fates (DoneOr CutShort) s.trail moments → Ran walks block s (.exhausted t)

namespace Guarded

variable {ε : Type} {walk : Walker} {walks : List Frame} {s : Session}

theorem runBlock_ran {block : Pipeline} (hwalk : walk.Orderly block) (hpending : s.pending = none)
    (hwalks : s.frames = walks) :
    ((runBlock walk block : Run ε (Except ValveFailure (Option Pipeline))).run s).Ran walks block
      s := by
  subst hwalks
  have walked := hwalk s hpending
  rw [runBlock, Run.run_bind, Run.run_attempt]
  generalize (walk block).run s = ending at walked ⊢
  cases walked with
  | completed htrail hframes ht hunderway hfates =>
    exact .completed htrail hframes ht hfates (hunderway.ended_left htrail)
  | unwound htrail hframes ht hunderway hfates =>
    exact .unwound htrail hframes ht hfates (hunderway.ended_left htrail)
  | raised htrail hframes hunderway hfates =>
    exact .failed htrail hframes hfates (hunderway.ended_left htrail)
  | exhausted htrail _ hfates => exact .exhausted htrail hfates

theorem catching_trail (config : CatchConfig) (failure : ValveFailure) (s : Session) :
    (catching config failure s).trail = s.trail :=
  Session.trail_emit ..

theorem catching_pending (config : CatchConfig) (failure : ValveFailure) (s : Session) :
    (catching config failure s).pending = none :=
  Session.pending_emit ..

/-- The second block runs after a failure of the first one, and what becomes of its requests is what
becomes of them in the valve. -/
private theorem handler_tried {block handler : Pipeline} {m : Moment} {failure : ValveFailure}
    {t : Session} {moments : List Moment} (htrail : t.trail = s.trail ++ moments)
    (hfates : Fates Done s.trail moments) (hended : Trail.ended walks.length t.trail = [m])
    (hm : m.mark = .leavePipeline (some failure))
    {ending : Ending ε (Except ValveFailure (Option Pipeline))}
    (h : ending.Ran walks handler t) : ending.Tried (some block) (some handler) walks s := by
  have whole {u : Session} {more : List Moment} (hu : u.trail = t.trail ++ more) :
      u.trail = s.trail ++ (moments ++ more) := by rw [hu, htrail, List.append_assoc]
  have handled {u : Session} {n : Moment}
      (hu : Trail.ended walks.length u.trail = Trail.ended walks.length t.trail ++ [n]) :
      Over (some block) (some handler) (Trail.ended walks.length u.trail) := by
    rw [hu, hended]
    exact .handled rfl rfl hm
  cases h with
  | completed hu hframes hpending hlater hends =>
    exact .completed (whole hu) hframes hpending (hfates.done_append (htrail ▸ hlater))
      (handled hends)
  | unwound hu hframes hpending hlater hends =>
    rw [hended] at hlater
    exact .unwound (whole hu) hframes hpending (fun _ => .second rfl hm rfl) (by decide)
      (hfates.done_append_or (htrail ▸ hlater)) (handled hends)
  | failed hu hframes hlater hends =>
    exact .failed (whole hu) hframes (hfates.done_append (htrail ▸ hlater)) (handled hends)
  | exhausted hu hlater => exact .exhausted (whole hu) (hfates.done_append_or (htrail ▸ hlater))

theorem runProtected_tried {tryBlock catchBlock : Option Pipeline}
    (htry : ∀ p ∈ tryBlock, walk.Orderly p) (hcatch : ∀ p ∈ catchBlock, walk.Orderly p)
    (config : CatchConfig) (hpending : s.pending = none) (hwalks : s.frames = walks)
    (hbegun : Trail.ended walks.length s.trail = []) :
    ((runProtected walk tryBlock catchBlock config :
      Run ε (Except ValveFailure (Option Pipeline))).run s).Tried tryBlock catchBlock walks s := by
  cases tryBlock with
  | none =>
    exact .completed (List.append_nil _).symm hwalks hpending .nil (hbegun ▸ .untried rfl)
  | some block =>
    have ran := runBlock_ran (ε := ε) (htry block rfl) hpending hwalks
    rw [runProtected, Run.run_bind]
    generalize (runBlock walk block : Run ε _).run s = ending at ran ⊢
    cases ran with
    | completed htrail hframes ht hfates hends =>
      rw [hbegun] at hends
      exact .completed htrail hframes ht hfates (hends ▸ .tried rfl rfl)
    | unwound htrail hframes ht hfates hends =>
      rw [hbegun] at hends hfates
      exact .unwound htrail hframes ht (fun _ => .first rfl) (by decide) hfates
        (hends ▸ .tried rfl rfl)
    | exhausted htrail hfates => exact .exhausted htrail hfates
    | @failed failure left t moments htrail hframes hfates hends =>
      rw [hbegun] at hends
      cases catchBlock with
      | none => exact .failed htrail hframes hfates (hends ▸ .failed rfl rfl rfl)
      | some handler =>
        have hcaught := catching_trail config failure t
        have handled := runBlock_ran (ε := ε) (s := catching config failure t)
          (hcatch handler rfl) (catching_pending config failure t)
          ((Conduct.steady_continues.catching config trivial failure t).trans hframes)
        exact handler_tried (hcaught.trans htrail) hfates
          ((congrArg (Trail.ended walks.length) hcaught).trans hends) rfl handled

end Guarded

namespace Flat

variable {walk : Walker} {walks : List Frame} {s : Session}

private theorem runLast_orderly {last : Pipeline} (hwalk : walk.Orderly last)
    (howes : ∀ before, Trail.ended walks.length before = Trail.ended walks.length s.trail →
      OwesNothing before walks last)
    (hpending : s.pending = none) (hwalks : s.frames = walks)
    (conclude : Run ValveFailure Unit)
    (hconclude : ∀ t : Session, t.pending = none → t.frames = walks →
      (conclude.run t).Orderly walks t) :
    ((runLast walk last conclude).run s).Orderly walks s := by
  subst hwalks
  have walked := hwalk s hpending
  rw [runLast, Run.run_bind]
  generalize (walk last).run s = ending at walked ⊢
  cases walked with
  | @completed t inside htrail hframes ht _ hfates =>
    exact .prepend htrail hfates (hconclude t ht hframes)
  | @unwound t inside signal htrail hframes ht _ hfates =>
    exact .answered ((t.trail_settle _).trans htrail) ((t.frames_settle _).trans hframes)
      (hfates.settle howes ht)
  | raised htrail _ _ hfates => exact .raised htrail hfates
  | exhausted htrail _ hfates => exact .exhausted htrail hfates

/-- A signal waits for the last block, and is settled with the label of its own block afterwards. -/
private theorem waiting_orderly {block last : Pipeline} (hwalk : walk.Orderly last)
    {ends : List Moment}
    (howes : ∀ before, Trail.ended walks.length before = ends → Owes before walks block last)
    {signal : Signal} {t : Session} {moments : List Moment}
    (hlast : ∀ before, Trail.ended walks.length before = Trail.ended walks.length t.trail →
      OwesNothing before walks last)
    (htrail : t.trail = s.trail ++ moments) (hframes : t.frames = walks)
    (hfates : Fates (DoneOr (Leaving ends walks block signal)) s.trail moments)
    (hpending : t.pending = none) :
    ((runLast walk last (conclude (.ok (some block)) (some signal))).run t).Orderly walks s := by
  subst hframes
  have walked := hwalk t hpending
  rw [runLast, Run.run_bind]
  generalize (walk last).run t = ending at walked ⊢
  have whole {u : Session} {more : List Moment} (hu : u.trail = t.trail ++ more) :
      u.trail = s.trail ++ (moments ++ more) := by rw [hu, htrail, List.append_assoc]
  cases walked with
  | @completed u inside hu hwalks _ hunderway hdone =>
    refine .answered (whole ((Session.trail_settle _ _).trans hu))
      ((Session.frames_settle _ _).trans hwalks) (hfates.or_append ?_ (htrail ▸ hdone).done_or)
    intro before m sig after hleaving
    exact .inr (hleaving.settle (t := { u with pending := some signal })
      (.block (howes before hleaving.1) hunderway) rfl)
  | @unwound u inside next hu hwalks hnext hunderway hleft =>
    refine .answered (whole ((Session.trail_settle _ _).trans hu))
      ((Session.frames_settle _ _).trans hwalks)
      (hfates.or_append ?_ (htrail ▸ hleft.settle hlast hnext))
    intro before m sig after hleaving
    exact .inl (hleaving.spoiled (howes before hleaving.1) hunderway (.inr rfl))
  | raised hu _ hunderway hdone =>
    refine .raised (whole hu) (hfates.or_append_done ?_ (htrail ▸ hdone))
    intro before m sig after hleaving
    exact hleaving.spoiled (howes before hleaving.1) hunderway (.inl rfl)
  | exhausted hu hunderway hcut =>
    refine .exhausted (whole hu) (hfates.or_append ?_ (htrail ▸ hcut))
    intro before m sig after hleaving
    exact .inr ⟨t.frames, hleaving.reachesBlock (howes before hleaving.1) hunderway⟩

theorem guarded_orderly {tryBlock catchBlock finallyBlock : Option Pipeline} {config : CatchConfig}
    (htry : ∀ p ∈ tryBlock, walk.Orderly p) (hcatch : ∀ p ∈ catchBlock, walk.Orderly p)
    (hfinally : ∀ p ∈ finallyBlock, walk.Orderly p)
    (hhost : walks.head?.bind Frame.valve? =
      some (.guarded tryBlock catchBlock finallyBlock config))
    (hpending : s.pending = none) (hwalks : s.frames = walks)
    (hbegun : Trail.ended walks.length s.trail = []) :
    ((guarded walk tryBlock catchBlock finallyBlock config).run s).Orderly walks s := by
  have tried := Guarded.runProtected_tried (ε := ValveFailure) htry hcatch config hpending hwalks
    hbegun
  simp only [guarded, Run.run_bind, Run.run_act]
  generalize (Guarded.runProtected walk tryBlock catchBlock config).run s = ending at tried ⊢
  cases finallyBlock with
  | none =>
    have howes (block : Pipeline) (before : List Moment) : OwesNothing before walks block := by
      intro _ _ b _ h
      cases hhost.symm.trans h
    cases tried with
    | @completed t moments htrail hframes ht hfates _ =>
      show Ending.Orderly walks s ((conclude (.ok none) t.pending).run t.dropBreak)
      rw [ht]
      exact .answered htrail hframes hfates.done_or
    | @unwound block part ends t signal moments htrail hframes ht _ _ hfates _ =>
      show Ending.Orderly walks s ((conclude (.ok (some block)) t.pending).run t.dropBreak)
      rw [ht]
      exact .answered ((Session.trail_settle _ _).trans htrail)
        ((Session.frames_settle _ _).trans hframes)
        (hfates.settle (t := { t with pending := some signal }) (fun before _ => howes block before)
          rfl)
    | failed htrail _ hfates _ => exact .raised htrail hfates
    | exhausted htrail hfates => exact .exhausted htrail hfates
  | some last =>
    have hlast := hfinally last rfl
    -- when the first two blocks are over, a request is made in the last one
    have hnothing {t : Session}
        (hover : Guarded.Over tryBlock catchBlock (Trail.ended walks.length t.trail))
        (before : List Moment)
        (hended : Trail.ended walks.length before = Trail.ended walks.length t.trail) :
        OwesNothing before walks last := by
      intro _ _ b _ h
      cases hhost.symm.trans h
      exact .last (hended ▸ hover) rfl
    cases tried with
    | @completed t moments htrail hframes ht hfates hover =>
      refine .prepend (t := t.dropBreak) htrail hfates
        (runLast_orderly (s := t.dropBreak) hlast (hnothing hover) rfl hframes
          (conclude (.ok none) t.pending) fun u _ hu => ?_)
      rw [ht]
      exact .quiet rfl hu
    | @unwound block part ends t signal moments htrail hframes ht hturn hpart hfates hover =>
      dsimp only
      rw [ht]
      have howes (before : List Moment) (hended : Trail.ended walks.length before = ends) :
          Owes before walks block last :=
        ⟨tryBlock, catchBlock, config, part, hhost, hended ▸ hturn _, hpart⟩
      exact waiting_orderly (t := t.dropBreak) hlast howes (hnothing hover) htrail hframes hfates rfl
    | @failed failure t moments htrail hframes hfates hover =>
      exact .prepend (t := t.dropBreak) htrail hfates
        (runLast_orderly (s := t.dropBreak) hlast (hnothing hover) rfl hframes
          (conclude (.error failure) t.pending) fun _ _ _ =>
            .raised (List.append_nil _).symm .nil)
    | exhausted htrail hfates => exact .exhausted htrail hfates

theorem request_orderly (signal : Signal) (hwalks : s.frames = walks) :
    ((Run.update (·.requestBreak signal) : Run ValveFailure Unit).run s).Orderly walks s := by
  subst hwalks
  refine .answered (s.trail_requestBreak signal)
    (Conduct.steady_continues.request s signal) ?_
  intro before m after other split hm
  obtain ⟨rfl, rfl⟩ : m = ⟨.request signal, s.frames, some signal⟩ ∧ after = [] := by
    rcases List.append_eq_singleton_iff.mp split.symm with ⟨-, h⟩ | ⟨-, h⟩
    · exact List.cons.inj h
    · cases h
  obtain rfl := Mark.request.inj hm
  have hpassed : Left signal [] (some (signal.residue 0)) := .passed signal.survives_nil
  rw [Signal.residue_zero] at hpassed
  exact .inr ⟨[], rfl, hpassed, .nil⟩

theorem breakWhen_orderly (wanted : Bool) (signal : Signal) (hwalks : s.frames = walks) :
    ((breakWhen wanted signal).run s).Orderly walks s := by
  cases wanted with
  | true => exact request_orderly signal hwalks
  | false => exact .quiet rfl hwalks

theorem select_orderly {f : Option Pipeline → Run ValveFailure Unit} {branches : List Branch}
    {otherwise : Option Pipeline} (hpending : s.pending = none) (hwalks : s.frames = walks)
    (hnone : ∀ t : Session, t.frames = walks → ((f none).run t).Orderly walks t)
    (hsome : ∀ p ∈ branches.map (·.block) ++ otherwise.toList, ∀ t : Session, t.pending = none →
      t.frames = walks → ((f (some p)).run t).Orderly walks t) :
    ((Valve.work.select branches otherwise >>= f).run s).Orderly walks s := by
  induction branches generalizing s with
  | nil =>
    cases otherwise with
    | none => exact hnone s hwalks
    | some p => exact hsome p List.mem_cons_self s hpending hwalks
  | cons branch branches ih =>
    simp only [Valve.work.select, bind_assoc]
    refine ask_orderly hpending hwalks fun answer t ht hframes => ?_
    cases answer with
    | true => exact hsome branch.block List.mem_cons_self t ht hframes
    | false => exact ih ht hframes fun p hp => hsome p (List.mem_cons_of_mem _ hp)

/-- The own work of a valve is orderly when the walks of its blocks are. -/
theorem own_orderly {v : Valve} (hwalk : ∀ p ∈ v.children, walk.Orderly p) (steps : Nat)
    (hhost : walks.head?.bind Frame.valve? = some v) (hpending : s.pending = none)
    (hwalks : s.frames = walks) (hbegun : Trail.ended walks.length s.trail = []) :
    ((work.own walk steps v).run s).Orderly walks s := by
  have howes (h : ∀ tryBlock catchBlock block config,
      v ≠ .guarded tryBlock catchBlock (some block) config) (scope : Pipeline)
      (before : List Moment) : OwesNothing before walks scope := by
    intro tryBlock catchBlock block config hguarded
    exact absurd (Option.some.inj (hhost.symm.trans hguarded)) (h _ _ _ _)
  cases v with
  | passThrough => exact .quiet rfl hwalks
  | setAttribute key value => exact .quiet rfl hwalks
  | log severity message => exact .quiet rfl hwalks
  | record name counter => exact .quiet rfl hwalks
  | failing name message => exact .raised (List.append_nil _).symm .nil
  | scripted name script => exact .quiet rfl hwalks
  | breakWith signal => exact request_orderly signal hwalks
  | exit => exact request_orderly .exit hwalks
  | breakIf condition signal =>
    exact ask_orderly hpending hwalks fun answer t _ ht => breakWhen_orderly answer signal ht
  | breakUnless condition signal =>
    exact ask_orderly hpending hwalks fun answer t _ ht => breakWhen_orderly (!answer) signal ht
  | loop body config =>
    exact iterate_orderly (hwalk body List.mem_cons_self) (howes nofun body) none config steps 0
      hpending hwalks
  | whileLoop condition body config =>
    exact iterate_orderly (hwalk body List.mem_cons_self) (howes nofun body) (some condition)
      config steps 0 hpending hwalks
  | ifThen condition p =>
    refine ask_orderly hpending hwalks fun answer t ht hframes => ?_
    cases answer with
    | true => exact block_orderly (hwalk p List.mem_cons_self) (howes nofun p) ht hframes
    | false => exact .quiet rfl hframes
  | choose branches otherwise =>
    exact select_orderly hpending hwalks (fun _ ht => .quiet rfl ht) fun p hp t ht hframes =>
      block_orderly (hwalk p hp) (howes nofun p) ht hframes
  | sub p => exact block_orderly (hwalk p List.mem_cons_self) (howes nofun p) hpending hwalks
  | guarded tryBlock catchBlock finallyBlock config =>
    refine guarded_orderly (fun p hp => hwalk p ?_) (fun p hp => hwalk p ?_)
      (fun p hp => hwalk p ?_) hhost hpending hwalks hbegun
    · simp [Valve.children, Option.mem_def.mp hp]
    · simp [Valve.children, Option.mem_def.mp hp]
    · simp [Valve.children, Option.mem_def.mp hp]

end Flat

end ValvePipeline
