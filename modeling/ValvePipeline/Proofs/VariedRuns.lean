import ValvePipeline.Proofs.Channels
import ValvePipeline.Proofs.Variation

/-!
Runs of two pipelines that vary. Begun in sessions beside each other, with the same allowance of steps,
the two runs stay beside each other and end in the same way, until a valve of the first one ends with an
excused failure.
-/

set_option autoImplicit false
set_option relaxedAutoImplicit false

namespace ValvePipeline

/-- A valve of the run has ended with an excused failure. -/
def Variation.Strayed (x : Variation) (s : Session) : Prop :=
  ∃ m ∈ s.trail, ∃ i failure, m.mark = .leaveValve i (some failure) ∧ x.excused failure

structure Session.Fresh (x : Variation) (scopes : List (Option String)) (s t : Session) : Prop
    extends Session.Beside x scopes s t where
  idle : s.pending = none

/-- How two computations end that began beside each other: in the same way, unless the first one raises
something excused, or strays. -/
inductive Ending.Beside {ε α β : Type} (x : Variation) (excused : ε → Prop)
    (scopes : List (Option String)) (post : α → β → Session → Session → Prop) :
    Ending ε α → Ending ε β → Prop
  | answered {a : α} {b : β} {s t : Session} : post a b s t →
    Beside x excused scopes post (.answered a s) (.answered b t)
  | raised {e : ε} {s t : Session} : s.Fresh x scopes t →
    Beside x excused scopes post (.raised e s) (.raised e t)
  | exhausted {inner : List (Option String)} {s t : Session} : s.Beside x inner t →
    Beside x excused scopes post (.exhausted s) (.exhausted t)
  | failed {e : ε} {s : Session} {ending : Ending ε β} : excused e →
    Beside x excused scopes post (.raised e s) ending
  | strayed {ending : Ending ε α} {ending' : Ending ε β} : x.Strayed ending.session →
    Beside x excused scopes post ending ending'

namespace Variation.Strayed

variable {x : Variation} {s t : Session}

theorem of_grows (h : x.Strayed s) (hgrows : Grows s t) : x.Strayed t := by
  obtain ⟨m, hm, hstrayed⟩ := h
  obtain ⟨moments, htrail, -⟩ := hgrows
  exact ⟨m, htrail ▸ List.mem_append_left moments hm, hstrayed⟩

theorem of_trail_eq (h : x.Strayed s) (htrail : t.trail = s.trail) : x.Strayed t := by
  rwa [Strayed, htrail]

theorem of_concat (h : x.Strayed s) {m : Moment} (htrail : t.trail = s.trail ++ [m]) :
    x.Strayed t := by
  obtain ⟨r, hr, hstrayed⟩ := h
  exact ⟨r, htrail ▸ List.mem_append_left [m] hr, hstrayed⟩

theorem of_keepsTo {ε α : Type} {f : Run ε α} (h : x.Strayed s) (hf : f.KeepsTo .nested) :
    x.Strayed (f.run s).session := by
  have kept := hf s
  generalize f.run s = ending at kept ⊢
  cases ending with
  | answered a t => exact h.of_grows kept.2
  | raised e t => exact h.of_grows kept.2
  | exhausted t => exact h.of_grows kept

end Variation.Strayed

namespace Ending.Beside

variable {ε δ α β α' β' : Type} {x : Variation} {excused : ε → Prop}
  {scopes : List (Option String)} {s t : Session}

theorem bind {post : α → β → Session → Session → Prop} {post' : α' → β' → Session → Session → Prop}
    {y : Run ε α} {z : Run ε β} {f : α → Run ε α'} {g : β → Run ε β'}
    (h : (y.run s).Beside x excused scopes post (z.run t)) (hf : ∀ a, (f a).KeepsTo .nested)
    (hfg : ∀ a b s' t', post a b s' t' →
      ((f a).run s').Beside x excused scopes post' ((g b).run t')) :
    ((y >>= f).run s).Beside x excused scopes post' ((z >>= g).run t) := by
  rw [Run.run_bind, Run.run_bind]
  generalize y.run s = ending, z.run t = ending' at h ⊢
  cases h with
  | answered h => exact hfg _ _ _ _ h
  | raised h => exact .raised h
  | exhausted h => exact .exhausted h
  | failed h => exact .failed h
  | strayed h =>
    cases ending with
    | answered a u => exact .strayed (h.of_keepsTo (hf a))
    | raised e u => exact .strayed h
    | exhausted u => exact .strayed h

end Ending.Beside

def InStepAfter {α : Type} (x : Variation) (scopes : List (Option String)) (a b : α)
    (s t : Session) : Prop :=
  b = a ∧ s.InStep x scopes t

namespace Session

variable {x : Variation} {scopes : List (Option String)} {s t : Session}

theorem Beside.idle_iff (h : s.Beside x scopes t) : t.pending = none ↔ s.pending = none := by
  have := h.pending
  cases hs : s.pending <;> cases ht : t.pending <;> simp_all

theorem Fresh.signals (h : s.Fresh x scopes t) (inner : List (Option String)) :
    Option.Rel (x.signals inner) s.pending t.pending := by
  rw [h.idle, h.toBeside.idle_iff.mpr h.idle]
  exact .none

theorem Fresh.inStep (h : s.Fresh x scopes t) : s.InStep x scopes t :=
  ⟨h.toBeside, h.signals scopes⟩

theorem Beside.of_cons (h : s.Beside x scopes t) {f : Frame} {outer : List Frame}
    (hs : s.frames = f :: outer) : ∃ g others, t.frames = g :: others ∧
      f.pipeline.Varies x (labels outer) g.pipeline ∧ g.cursor = f.cursor ∧ g.next = f.next ∧
      g.hasStarted = f.hasStarted ∧ f.pipeline.label :: labels outer = scopes := by
  have hframes := h.frames
  have hscopes := h.scopes_eq
  rw [hs] at hframes hscopes
  generalize ht : t.frames = frames at hframes
  cases hframes with
  | @cons _ g _ others hpipeline hcursor hreached _ =>
    refine ⟨g, others, rfl, hpipeline, hcursor, ?_, ?_, hscopes⟩
    · rw [Frame.next, Frame.next, hcursor]
    · funext i
      rw [Frame.hasStarted, Frame.hasStarted, hreached]

end Session

structure Starter.GoesAlong (x : Variation) (start : Starter) : Prop where
  keeps (v : Valve) : (start v).KeepsTo .nested
  along {scopes : List (Option String)} {v w : Valve} {s t : Session} : v.Varies x scopes w →
    s.Fresh x scopes t → ((start v).run s).Beside x x.excused scopes (InStepAfter x scopes)
      ((start w).run t)

namespace Walk

variable {x : Variation} {start : Starter} {scopes : List (Option String)} {s t : Session}

theorem proceed_beside {ε : ValveFailure → Prop} (hstart : start.GoesAlong x)
    (h : s.InStep x scopes t) :
    ((proceed start).run s).Beside x ε scopes (InStepAfter x scopes) ((proceed start).run t) := by
  have proceeding := proceed_proceeding start s
  generalize (proceed start).run s = ending at proceeding ⊢
  cases proceeding with
  | waits hpending =>
    rw [run_proceed_of_pending start (h.pending.trans hpending)]
    exact .answered ⟨rfl, h⟩
  | outside hpending hframes =>
    have hnil : t.frames = [] := by
      have := h.frames.length_eq
      rw [hframes] at this
      exact List.length_eq_zero_iff.mp this
    rw [run_proceed_of_nil start (h.idle_iff.mpr hpending) hnil]
    exact .answered ⟨rfl, h.log .., h.signals⟩
  | again hpending hframes hnew =>
    obtain ⟨g, others, ht, -, -, hnext, hstarted, -⟩ := h.of_cons hframes
    rw [run_proceed_of_started start (h.idle_iff.mpr hpending) ht (by rw [hstarted, hnext, hnew])]
    exact .answered ⟨rfl, h.log .., h.signals⟩
  | ends hpending hframes hnew hvalve =>
    obtain ⟨g, others, ht, hpipeline, -, hnext, hstarted, -⟩ := h.of_cons hframes
    rw [run_proceed_of_end start (h.idle_iff.mpr hpending) ht (by rw [hstarted, hnext, hnew])
      (hnext ▸ hpipeline.getElem?_eq_none hvalve)]
    exact .answered ⟨rfl, h⟩
  | @starts f outer v hpending hframes hnew hvalve =>
    obtain ⟨g, others, ht, hpipeline, hcursor, hnext, hstarted, rfl⟩ := h.of_cons hframes
    obtain ⟨w, hw, hvaries⟩ := hpipeline.getElem?_eq_some hvalve
    rw [run_proceed_of_valve start (h.idle_iff.mpr hpending) ht (by rw [hstarted, hnext, hnew])
      (hnext ▸ hw), hnext, hcursor, Run.run_afterwards, Run.run_afterwards]
    have along := hstart.along hvaries ⟨h.enterValve hframes ht f.next, hpending⟩
    generalize (start v).run (s.enterValve f outer f.next) = ending,
      (start w).run (t.enterValve g others f.next) = ending' at along ⊢
    cases along with
    | answered hpost => exact .answered ⟨hpost.1, hpost.2.leaveValve .., hpost.2.signals⟩
    | raised hpost => exact .raised ⟨hpost.leaveValve .., hpost.idle⟩
    | exhausted hpost => exact .exhausted hpost
    | @failed e u _ hexcused =>
      have hmem : ⟨.leaveValve f.next (some e),
          (u.leaveValve f.next f.cursor (some e)).frames, u.pending⟩ ∈
            (u.leaveValve f.next f.cursor (some e)).trail := by
        rw [Session.trail_leaveValve]
        exact List.mem_append_right _ List.mem_cons_self
      exact .strayed ⟨_, hmem, f.next, e, rfl, hexcused⟩
    | strayed hstrayed =>
      cases ending with
      | answered a u => exact .strayed (hstrayed.of_concat (Session.trail_leaveValve ..))
      | raised e u => exact .strayed (hstrayed.of_concat (Session.trail_leaveValve ..))
      | exhausted u => exact .strayed hstrayed

structure EndedAlike (x : Variation) (scopes : List (Option String)) (label : Option String)
    (a b : WalkEnd) (s t : Session) : Prop extends Session.Beside x scopes s t where
  same : b = a
  signals : Option.Rel (x.signals (label :: scopes)) s.pending t.pending
  idle : a = .completed → s.pending = none

theorem runPipeline_beside {ε : ValveFailure → Prop} (hstart : start.GoesAlong x)
    {p q : Pipeline} (hpq : p.Varies x scopes q) (h : s.Fresh x scopes t) :
    ((runPipeline start p).run s).Beside x ε scopes (EndedAlike x scopes p.label)
      ((runPipeline start q).run t) := by
  have entered : (s.enterPipeline p).Fresh x (p.label :: scopes) (t.enterPipeline q) :=
    ⟨h.enterPipeline hpq, h.idle⟩
  have along := proceed_beside (ε := ε) hstart entered.inStep
  simp only [runPipeline, Run.run_bind, Run.run_update, Run.run_afterwards, Run.run_read]
  generalize (proceed start).run (s.enterPipeline p) = ending,
    (proceed start).run (t.enterPipeline q) = ending' at along ⊢
  cases along with
  | @answered _ _ u v hpost =>
    have hkept : (u.leavePipeline none).pending = u.pending := rfl
    have hkept' : (v.leavePipeline none).pending = v.pending := rfl
    refine .answered ⟨hpost.2.leavePipeline none, ?_, hpost.2.signals, fun hcompleted => ?_⟩
    · rw [hkept, hkept', hpost.2.pending]
    · rw [hkept] at hcompleted ⊢
      cases hu : u.pending with
      | none => rfl
      | some signal => simp [hu] at hcompleted
  | raised hpost => exact .raised ⟨hpost.leavePipeline _, hpost.idle⟩
  | exhausted hpost => exact .exhausted hpost
  | failed hexcused => exact .failed hexcused
  | strayed hstrayed =>
    cases ending with
    | answered a u => exact .strayed (hstrayed.of_concat (Session.trail_leavePipeline ..))
    | raised e u => exact .strayed (hstrayed.of_concat (Session.trail_leavePipeline ..))
    | exhausted u => exact .strayed hstrayed

structure SettledAlike (x : Variation) (scopes : List (Option String)) (a b : Settlement)
    (s t : Session) : Prop extends Session.InStep x scopes s t where
  same : b = a
  idle : a ≠ .propagated → s.pending = none

theorem settle_beside {ε : Type} {excused : ε → Prop} (hx : x.Lawful) {label : Option String}
    (h : s.Beside x scopes t)
    (hsignals : Option.Rel (x.signals (label :: scopes)) s.pending t.pending) :
    ((settle label : Run ε Settlement).run s).Beside x excused scopes (SettledAlike x scopes)
      ((settle label : Run ε Settlement).run t) := by
  obtain ⟨hsame, hstep⟩ := h.settle hx hsignals
  exact .answered ⟨hstep, hsame, Session.pending_settle⟩

theorem runBoundary_beside {ε : ValveFailure → Prop} (hx : x.Lawful) (hstart : start.GoesAlong x)
    {p q : Pipeline} (hpq : p.Varies x scopes q) (h : s.Fresh x scopes t) :
    ((runBoundary (runPipeline start) p).run s).Beside x ε scopes (SettledAlike x scopes)
      ((runBoundary (runPipeline start) q).run t) := by
  refine (runPipeline_beside hstart hpq h).bind
    (fun _ => settle_keepsTo Conduct.nested_covers.toContinues p.label) fun _ _ u v hended => ?_
  rw [hpq.label_eq]
  exact settle_beside hx hended.toBeside hended.signals

theorem resumeAfter_beside {ε : ValveFailure → Prop} (hstart : start.GoesAlong x)
    {a b : Settlement} (h : SettledAlike x scopes a b s t) :
    ((resumeAfter start a).run s).Beside x ε scopes (InStepAfter x scopes)
      ((resumeAfter start b).run t) := by
  obtain ⟨hstep, rfl, -⟩ := h
  unfold resumeAfter
  split
  · exact proceed_beside hstart hstep
  · exact .answered ⟨rfl, hstep⟩

theorem settle_resume_beside {ε : ValveFailure → Prop} (hx : x.Lawful)
    (hstart : start.GoesAlong x) {label : Option String} (h : s.Beside x scopes t)
    (hsignals : Option.Rel (x.signals (label :: scopes)) s.pending t.pending) :
    ((settle label >>= resumeAfter start).run s).Beside x ε scopes (InStepAfter x scopes)
      ((settle label >>= resumeAfter start).run t) :=
  (settle_beside hx h hsignals).bind (resumeAfter_keepsTo Conduct.nested_covers hstart.keeps)
    fun _ _ _ _ hsettled => resumeAfter_beside hstart hsettled

theorem runBlock_beside {ε : ValveFailure → Prop} (hx : x.Lawful) (hstart : start.GoesAlong x)
    {p q : Pipeline} (hpq : p.Varies x scopes q) (h : s.Fresh x scopes t) :
    ((runBlock start p).run s).Beside x ε scopes (InStepAfter x scopes)
      ((runBlock start q).run t) :=
  (runBoundary_beside hx hstart hpq h).bind
    (resumeAfter_keepsTo Conduct.nested_covers hstart.keeps)
    fun _ _ _ _ hsettled => resumeAfter_beside hstart hsettled

end Walk

section Engine

open Conduct (nested_covers)

variable {x : Variation} {start : Starter} {scopes : List (Option String)} {s t : Session}

theorem Session.Fresh.ask (h : s.Fresh x scopes t) (condition : Condition) :
    (t.ask condition).1 = (s.ask condition).1 ∧
      (s.ask condition).2.Fresh x scopes (t.ask condition).2 :=
  ⟨(h.toBeside.ask condition).1, (h.toBeside.ask condition).2,
    (s.pending_ask condition).trans h.idle⟩

theorem ask_beside {ε α β : Type} {excused : ε → Prop} {post : α → β → Session → Session → Prop}
    {condition : Condition} {f : Bool → Run ε α} {g : Bool → Run ε β} (h : s.Fresh x scopes t)
    (hfg : ∀ answer s' t', s'.Fresh x scopes t' →
      ((f answer).run s').Beside x excused scopes post ((g answer).run t')) :
    ((Run.act (·.ask condition) >>= f).run s).Beside x excused scopes post
      ((Run.act (·.ask condition) >>= g).run t) := by
  obtain ⟨hanswer, hasked⟩ := h.ask condition
  show Ending.Beside x excused scopes post ((f (s.ask condition).1).run (s.ask condition).2)
    ((g (t.ask condition).1).run (t.ask condition).2)
  rw [hanswer]
  exact hfg _ _ _ hasked

theorem update_beside {ε α β : Type} {excused : ε → Prop}
    {post : α → β → Session → Session → Prop} {change change' : Session → Session}
    {f : Unit → Run ε α} {g : Unit → Run ε β}
    (h : ((f ()).run (change s)).Beside x excused scopes post ((g ()).run (change' t))) :
    ((Run.update change >>= f).run s).Beside x excused scopes post
      ((Run.update change' >>= g).run t) :=
  h

namespace Loop

theorem asks_beside {ε α β : Type} {excused : ε → Prop}
    {post : α → β → Session → Session → Prop} {condition : Option Condition}
    {f : Bool → Run ε α} {g : Bool → Run ε β} (h : s.Fresh x scopes t)
    (hfg : ∀ more s' t', s'.Fresh x scopes t' →
      ((f more).run s').Beside x excused scopes post ((g more).run t')) :
    ((asksForMore condition >>= f).run s).Beside x excused scopes post
      ((asksForMore condition >>= g).run t) := by
  cases condition with
  | none => exact hfg true s t h
  | some condition => exact ask_beside h hfg

/-- Iterations of both loops go on together. When the first loop has come to its bound the second one
has too, or the failure is excused. -/
theorem iterate_beside (hx : x.Lawful) (hstart : start.GoesAlong x)
    (condition : Option Condition) {p q : Pipeline} (hpq : p.Varies x scopes q)
    {c d : LoopConfig} (hcd : x.loops c d) (steps count : Nat) (h : s.Fresh x scopes t) :
    ((iterate start condition p c steps count).run s).Beside x x.excused scopes
      (InStepAfter x scopes) ((iterate start condition q d steps count).run t) := by
  induction steps generalizing count s t with
  | zero => exact .exhausted h.toBeside
  | succ steps ih =>
    refine asks_beside h fun more s' t' h' => ?_
    cases more with
    | false => exact Walk.proceed_beside hstart ⟨h'.log .., h'.signals scopes⟩
    | true =>
      rw [if_pos rfl, if_pos rfl]
      cases hc : isSpent c count with
      | true =>
        rw [if_pos rfl]
        rcases hx.spent hcd with rfl | ⟨hexcused, -⟩
        · rw [hc, if_pos rfl]
          exact .raised ⟨h'.log .., h'.idle⟩
        · exact .failed hexcused
      | false =>
        have hd : isSpent d count = false := by
          rcases hx.spent hcd with rfl | ⟨-, hsooner⟩
          · exact hc
          · rw [← Bool.not_eq_true] at hc ⊢
            exact fun hd => hc (hsooner count hd)
        rw [hd, if_neg Bool.false_ne_true, if_neg Bool.false_ne_true]
        have begun : (begin c count s').Fresh x scopes (begin d count t') :=
          ⟨h'.begin hx hcd count, (s'.pending_begin c count).trans h'.idle⟩
        refine update_beside (.bind (Walk.runBoundary_beside hx hstart hpq begun) ?_ ?_)
        · intro settlement
          cases settlement with
          | completed => exact iterate_keepsTo nested_covers hstart.keeps condition p c _ _
          | absorbed => exact Walk.proceed_keepsTo nested_covers hstart.keeps
          | propagated => exact nested_covers.pure ()
        · rintro _ settlement u v ⟨hstep, rfl, hidle⟩
          cases settlement with
          | completed => exact ih (count + 1) ⟨hstep.toBeside, hidle nofun⟩
          | absorbed => exact Walk.proceed_beside hstart hstep
          | propagated => exact .answered ⟨rfl, hstep⟩

end Loop

namespace Guarded

/-- What waits for the last blocks of two guarded valves: the same failure, or signals that stand for each
other inside of the blocks that have left them. -/
inductive WaitAlike (x : Variation) (scopes : List (Option String)) :
    Except ValveFailure (Option Pipeline) → Except ValveFailure (Option Pipeline) →
      Option Signal → Option Signal → Prop
  | failure {e : ValveFailure} {a b : Option Signal} : WaitAlike x scopes (.error e) (.error e) a b
  | nothing : WaitAlike x scopes (.ok none) (.ok none) none none
  | signal {p q : Pipeline} {a b : Option Signal} : q.label = p.label →
    Option.Rel (x.signals (p.label :: scopes)) a b →
    WaitAlike x scopes (.ok (some p)) (.ok (some q)) a b

structure TriedAlike (x : Variation) (scopes : List (Option String))
    (a b : Except ValveFailure (Option Pipeline)) (s t : Session) : Prop
    extends Session.Beside x scopes s t where
  waits : WaitAlike x scopes a b s.pending t.pending

theorem runBlock_beside {ε : Type} {excused : ε → Prop} (hstart : start.GoesAlong x)
    {p q : Pipeline} (hpq : p.Varies x scopes q) (h : s.Fresh x scopes t) :
    ((runBlock (Walk.runPipeline start) p : Run ε _).run s).Beside x excused scopes
      (TriedAlike x scopes) ((runBlock (Walk.runPipeline start) q : Run ε _).run t) := by
  have walked := Walk.runPipeline_beside (ε := fun _ => False) hstart hpq h
  simp only [runBlock, Run.run_bind, Run.run_attempt]
  generalize (Walk.runPipeline start p).run s = ending,
    (Walk.runPipeline start q).run t = ending' at walked ⊢
  cases walked with
  | @answered a b u v hended =>
    obtain ⟨hbeside, rfl, hsignals, hidle⟩ := hended
    cases b with
    | completed =>
      have hu := hidle rfl
      refine .answered ⟨hbeside, ?_⟩
      rw [hu, hbeside.idle_iff.mpr hu]
      exact .nothing
    | unwound => exact .answered ⟨hbeside, .signal hpq.label_eq hsignals⟩
  | raised hfresh => exact .answered ⟨hfresh.toBeside, .failure⟩
  | exhausted hbeside => exact .exhausted hbeside
  | failed hexcused => exact hexcused.elim
  | strayed hstrayed =>
    cases ending with
    | answered ended u => cases ended <;> exact .strayed hstrayed
    | raised e u => exact .strayed hstrayed
    | exhausted u => exact .strayed hstrayed

theorem runProtected_beside {ε : Type} {excused : ε → Prop} (hstart : start.GoesAlong x)
    {tryBlock tryOther catchBlock catchOther : Option Pipeline}
    (htry : Option.Rel (Pipeline.Varies x scopes) tryBlock tryOther)
    (hcatch : Option.Rel (Pipeline.Varies x scopes) catchBlock catchOther)
    (config : CatchConfig) (h : s.Fresh x scopes t) :
    ((runProtected (Walk.runPipeline start) tryBlock catchBlock config : Run ε _).run s).Beside
      x excused scopes (TriedAlike x scopes)
      ((runProtected (Walk.runPipeline start) tryOther catchOther config : Run ε _).run t) := by
  have hkeeps := Walk.runPipeline_keepsTo nested_covers hstart.keeps
  cases htry with
  | none =>
    refine .answered ⟨h.toBeside, ?_⟩
    rw [h.idle, h.toBeside.idle_iff.mpr h.idle]
    exact .nothing
  | some hpq =>
    refine (runBlock_beside hstart hpq h).bind (fun ending => ?_) fun ending ending' u v htried => ?_
    · cases ending with
      | ok origin => exact nested_covers.pure _
      | error failure =>
        cases catchBlock with
        | none => exact nested_covers.pure _
        | some handler =>
          exact nested_covers.bind (Conduct.Continues.update
            (nested_covers.catching config trivial failure)) fun _ =>
              runBlock_keepsTo nested_covers.toAllows (hkeeps handler)
    · have hwaits := htried.waits
      generalize u.pending = a, v.pending = b at hwaits
      cases hwaits with
      | nothing => exact .answered htried
      | signal _ _ => exact .answered htried
      | @failure e _ _ =>
        cases hcatch with
        | none => exact .answered htried
        | some hhandler =>
          have hcaught : (catching config e u).Fresh x scopes (catching config e v) :=
            ⟨(Session.Beside.lasting x scopes).catching htried.toBeside config e, catching_pending config e u⟩
          exact update_beside (runBlock_beside hstart hhandler hcaught)

theorem conclude_beside {ε : ValveFailure → Prop} (hx : x.Lawful) (hstart : start.GoesAlong x)
    {ending ending' : Except ValveFailure (Option Pipeline)} {a b : Option Signal}
    (hwaits : WaitAlike x scopes ending ending' a b) (h : s.Fresh x scopes t) :
    ((conclude start ending a).run s).Beside x ε scopes (InStepAfter x scopes)
      ((conclude start ending' b).run t) := by
  cases hwaits with
  | failure => exact .raised h
  | nothing => exact Walk.proceed_beside hstart h.inStep
  | @signal p q _ _ hlabel hsignals =>
    cases hsignals with
    | none => exact Walk.proceed_beside hstart h.inStep
    | @some a b hab =>
      simp only [conclude, Option.bind_some, hlabel]
      exact update_beside (Walk.settle_resume_beside hx hstart
        (Session.Beside.pend h.toBeside (show (some b).isSome = (some a).isSome from rfl))
        (.some hab))

theorem run_beside {ε : ValveFailure → Prop} (hx : x.Lawful) (hstart : start.GoesAlong x)
    {tryBlock tryOther catchBlock catchOther finallyBlock finallyOther : Option Pipeline}
    (htry : Option.Rel (Pipeline.Varies x scopes) tryBlock tryOther)
    (hcatch : Option.Rel (Pipeline.Varies x scopes) catchBlock catchOther)
    (hfinally : Option.Rel (Pipeline.Varies x scopes) finallyBlock finallyOther)
    (config : CatchConfig) (h : s.Fresh x scopes t) :
    ((run start tryBlock catchBlock finallyBlock config).run s).Beside x ε scopes
      (InStepAfter x scopes) ((run start tryOther catchOther finallyOther config).run t) := by
  have hkeeps := Walk.runPipeline_keepsTo nested_covers hstart.keeps
  have hsettles (label : Option String) :
      (Walk.settle label >>= Walk.resumeAfter start).KeepsTo .nested :=
    nested_covers.bind (Walk.settle_keepsTo nested_covers.toContinues label)
      (Walk.resumeAfter_keepsTo nested_covers hstart.keeps)
  refine (runProtected_beside hstart htry hcatch config h).bind (fun ending => ?_)
    fun ending ending' u v htried => ?_
  · refine nested_covers.bind (Conduct.Continues.act fun s => nested_covers.change (.pend none))
      fun waiting => ?_
    cases finallyBlock with
    | none => exact conclude_keepsTo nested_covers hstart.keeps ending waiting
    | some block =>
      refine nested_covers.bind (hkeeps block) fun ended => ?_
      cases ended with
      | completed => exact conclude_keepsTo nested_covers hstart.keeps ending waiting
      | unwound => exact hsettles block.label
  · have hdropped : u.dropBreak.Fresh x scopes v.dropBreak := ⟨htried.toBeside.pend rfl, rfl⟩
    cases hfinally with
    | none => exact conclude_beside hx hstart htried.waits hdropped
    | @some last _ hvaries =>
      refine Ending.Beside.bind (s := u.dropBreak) (t := v.dropBreak)
        (Walk.runPipeline_beside hstart hvaries hdropped) (fun ended => ?_)
        fun ended ended' s' t' hended => ?_
      · cases ended with
        | completed => exact conclude_keepsTo nested_covers hstart.keeps ending _
        | unwound => exact hsettles last.label
      · obtain ⟨hbeside, rfl, hsignals, hidle⟩ := hended
        cases ended' with
        | completed => exact conclude_beside hx hstart htried.waits ⟨hbeside, hidle rfl⟩
        | unwound =>
          dsimp only
          rw [hvaries.label_eq]
          exact Walk.settle_resume_beside hx hstart hbeside hsignals

end Guarded

namespace Valve

theorem request_beside {ε : ValveFailure → Prop} (hx : x.Lawful) {a b : Signal}
    (hab : x.signals scopes a b) (h : s.Fresh x scopes t) :
    ((Run.update (·.requestBreak a) : Run ValveFailure Unit).run s).Beside x ε scopes
      (InStepAfter x scopes) ((Run.update (·.requestBreak b) : Run ValveFailure Unit).run t) :=
  .answered ⟨rfl, h.requestBreak hx hab, .some hab⟩

theorem breakWhen_beside {ε : ValveFailure → Prop} (hx : x.Lawful) (hstart : start.GoesAlong x)
    (wanted : Bool) {a b : Signal} (hab : x.signals scopes a b) (h : s.Fresh x scopes t) :
    ((breakWhen start wanted a).run s).Beside x ε scopes (InStepAfter x scopes)
      ((breakWhen start wanted b).run t) := by
  cases wanted with
  | true => exact request_beside hx hab h
  | false => exact Walk.proceed_beside hstart h.inStep

structure TakenAlike (x : Variation) (scopes : List (Option String)) (a b : Option Pipeline)
    (s t : Session) : Prop extends Session.Fresh x scopes s t where
  blocks : Option.Rel (Pipeline.Varies x scopes) a b

theorem select_beside {ε : ValveFailure → Prop} {bs cs : List Branch}
    {last other : Option Pipeline} (hsame : cs.map (·.condition) = bs.map (·.condition))
    (hblocks : ∀ pair ∈ bs.zip cs, pair.1.block.Varies x scopes pair.2.block)
    (hlast : Option.Rel (Pipeline.Varies x scopes) last other) (h : s.Fresh x scopes t) :
    ((work.select bs last).run s).Beside x ε scopes (TakenAlike x scopes)
      ((work.select cs other).run t) := by
  induction bs generalizing cs s t with
  | nil =>
    obtain rfl : cs = [] := List.map_eq_nil_iff.mp hsame
    exact .answered ⟨h, hlast⟩
  | cons branch bs ih =>
    obtain ⟨other', cs, rfl⟩ : ∃ c cs', cs = c :: cs' := by
      cases cs with
      | nil => cases hsame
      | cons c cs => exact ⟨c, cs, rfl⟩
    obtain ⟨hcondition, hrest⟩ := List.cons.inj hsame
    simp only [work.select]
    rw [show other'.condition = branch.condition from hcondition]
    refine ask_beside h fun answer s' t' h' => ?_
    cases answer with
    | true => exact .answered ⟨h', .some (hblocks _ List.mem_cons_self)⟩
    | false => exact ih hrest (fun pair hp => hblocks pair (List.mem_cons_of_mem _ hp)) h'

theorem choice_beside {ε : ValveFailure → Prop} (hx : x.Lawful) (hstart : start.GoesAlong x)
    {bs cs : List Branch} {last other : Option Pipeline}
    (hsame : cs.map (·.condition) = bs.map (·.condition))
    (hblocks : ∀ pair ∈ bs.zip cs, pair.1.block.Varies x scopes pair.2.block)
    (hlast : Option.Rel (Pipeline.Varies x scopes) last other) (steps : Nat)
    (h : s.Fresh x scopes t) :
    (((Valve.choose bs last).work start steps).run s).Beside x ε scopes (InStepAfter x scopes)
      (((Valve.choose cs other).work start steps).run t) := by
  refine (select_beside hsame hblocks hlast h).bind (fun chosen => ?_)
    fun chosen chosen' u v htaken => ?_
  · cases chosen with
    | none => exact Walk.proceed_keepsTo nested_covers hstart.keeps
    | some block => exact Walk.runBlock_keepsTo nested_covers hstart.keeps block
  · obtain ⟨hfresh, hblocks⟩ := htaken
    cases hblocks with
    | none => exact Walk.proceed_beside hstart hfresh.inStep
    | some hvaries => exact Walk.runBlock_beside hx hstart hvaries hfresh

theorem work_plain_beside {ε : ValveFailure → Prop} (hx : x.Lawful) (hstart : start.GoesAlong x)
    (steps : Nat) {v : Valve} (hv : v.isPlain = true) (h : s.Fresh x scopes t) :
    ((v.work start steps).run s).Beside x ε scopes (InStepAfter x scopes)
      ((v.work start steps).run t) := by
  have goOn {s' t' : Session} (h' : s'.Fresh x scopes t') :
      ((Walk.proceed start).run s').Beside x ε scopes (InStepAfter x scopes)
        ((Walk.proceed start).run t') :=
    Walk.proceed_beside hstart h'.inStep
  cases v with
  | passThrough => exact goOn h
  | setAttribute key value => exact update_beside (goOn ⟨h.setAttribute .., h.idle⟩)
  | log severity message =>
    refine update_beside (goOn ⟨?_, h.idle⟩)
    rw [h.attributes]
    exact h.log ..
  | record name counter =>
    refine update_beside (goOn ⟨?_, h.idle⟩)
    rw [h.attributes]
    exact h.note _
  | failing name message => exact .raised h
  | exit => exact request_beside hx (hx.exit scopes) h
  | _ => cases hv

theorem work_beside (hx : x.Lawful) (hstart : start.GoesAlong x) (steps : Nat) {v w : Valve}
    (hvw : v.Varies x scopes w) (h : s.Fresh x scopes t) :
    ((v.work start steps).run s).Beside x x.excused scopes (InStepAfter x scopes)
      ((w.work start steps).run t) := by
  cases hvw with
  | plain hv => exact work_plain_beside hx hstart steps hv h
  | breakWith hab => exact request_beside hx hab h
  | breakIf hab => exact ask_beside h fun answer _ _ h' => breakWhen_beside hx hstart answer hab h'
  | breakUnless hab =>
    exact ask_beside h fun answer _ _ h' => breakWhen_beside hx hstart (!answer) hab h'
  | loop hpq hcd => exact Loop.iterate_beside hx hstart none hpq hcd steps 0 h
  | whileLoop hpq hcd => exact Loop.iterate_beside hx hstart (some _) hpq hcd steps 0 h
  | ifThen hpq =>
    refine ask_beside h fun answer s' t' h' => ?_
    cases answer with
    | true => exact Walk.runBlock_beside hx hstart hpq h'
    | false => exact Walk.proceed_beside hstart h'.inStep
  | choose hsame hblocks hthere hlast =>
    exact choice_beside hx hstart hsame hblocks (Pipeline.Varies.blocks hthere hlast) steps h
  | sub hpq => exact Walk.runBlock_beside hx hstart hpq h
  | guarded htry htryBlock hcatch hcatchBlock hlast hlastBlock =>
    have tries := Pipeline.Varies.blocks htry htryBlock
    have catches := Pipeline.Varies.blocks hcatch hcatchBlock
    have lasts := Pipeline.Varies.blocks hlast hlastBlock
    exact Guarded.run_beside hx hstart tries catches lasts _ h

theorem run_goesAlong (hx : x.Lawful) (steps : Nat) : Starter.GoesAlong x (run steps) := by
  induction steps with
  | zero => exact ⟨fun _ => nested_covers.outOfSteps, fun _ h => .exhausted h.toBeside⟩
  | succ steps ih =>
    exact ⟨run_keepsTo nested_covers (steps + 1), fun hvw h => work_beside hx ih steps hvw h⟩

end Valve

end Engine

namespace Walk

inductive ReportAlike (x : Variation) (label : Option String) :
    Except RunFailure Outcome → Except RunFailure Outcome → Prop
  | failure (e : RunFailure) : ReportAlike x label (.error e) (.error e)
  | completed : ReportAlike x label (.ok .completed) (.ok .completed)
  | unwound {a b : Signal} : x.signals [label] a b →
    ReportAlike x label (.ok (.unwound a)) (.ok (.unwound b))

structure LeftAlike (x : Variation) (label : Option String) (a b : Except RunFailure Outcome)
    (s t : Session) : Prop extends Session.Beside x [] s t where
  report : ReportAlike x label a b
  signals : Option.Rel (x.signals [label]) s.pending t.pending

theorem invoke_beside {x : Variation} (hx : x.Lawful) {s t : Session} (h : s.Fresh x [] t)
    (steps : Nat) :
    (s.invoke steps).Beside x (fun _ => False) [] (LeftAlike x s.pipeline.label)
      (t.invoke steps) := by
  cases hinvoked : s.invoked with
  | true =>
    have ht : t.invoked = true := h.invoked.trans hinvoked
    simp only [Session.invoke, invoke, Run.run_bind, Run.run_read, id_eq, hinvoked, ht, if_true,
      h.identity]
    exact .answered ⟨h.toBeside, .failure _, h.signals _⟩
  | false =>
    have ht : t.invoked = false := h.invoked.trans hinvoked
    have launched : Session.Fresh x [] (launched s) (launched t) :=
      ⟨h.invoke.emit rfl, (launched_pending s).trans h.idle⟩
    have walked := runPipeline_beside (ε := fun _ => False) (Valve.run_goesAlong hx steps)
      h.pipeline launched
    unfold Walk.launched at walked
    simp only [Session.invoke, invoke, Run.run_bind, Run.run_read, id_eq, hinvoked, ht,
      Bool.false_eq_true, if_false, Run.run_update, Run.run_attempt]
    generalize (runPipeline (Valve.run steps) s.pipeline).run _ = ending,
      (runPipeline (Valve.run steps) t.pipeline).run _ = ending' at walked ⊢
    cases walked with
    | @answered a b u v hended =>
      obtain ⟨hbeside, rfl, hsignals, hidle⟩ := hended
      cases b with
      | completed =>
        refine .answered ⟨hbeside.emit rfl, .completed, ?_⟩
        rw [Session.pending_emit, Session.pending_emit]
        exact hsignals
      | unwound =>
        simp only [Run.run_bind, Run.run_read, Run.run_update, Run.run_pure]
        have hkept := hsignals
        generalize u.pending = a, v.pending = b at hsignals
        cases hsignals with
        | none =>
          refine .answered ⟨(hbeside.log ..).emit rfl, .completed, ?_⟩
          rw [Session.pending_emit, Session.pending_emit]
          exact hkept
        | @some a b hab =>
          refine .answered ⟨(hbeside.log ..).emit (Json.masked_ofFields ?_), .unwound hab, ?_⟩
          · rcases hx.shown hab with rfl | hall
            · rfl
            · simp [Json.maskField, hall "invocation.unwound" (by decide)]
          · rw [Session.pending_emit, Session.pending_emit]
            exact hkept
    | @raised e u v hfresh =>
      simp only [Run.run_bind, Run.run_update, Run.run_pure, h.displayName_eq]
      refine .answered ⟨(hfresh.log ..).emit rfl, .failure _, ?_⟩
      rw [Session.pending_emit, Session.pending_emit]
      exact hfresh.signals _
    | exhausted hbeside => exact .exhausted hbeside
    | failed hexcused => exact hexcused.elim
    | strayed hstrayed =>
      cases ending with
      | answered ended u =>
        cases ended with
        | completed => exact .strayed (hstrayed.of_trail_eq (Session.trail_emit ..))
        | unwound => exact .strayed (hstrayed.of_trail_eq (Session.trail_emit ..))
      | raised e u => exact .strayed (hstrayed.of_trail_eq (Session.trail_emit ..))
      | exhausted u => exact .strayed hstrayed

end Walk

theorem Session.Fresh.start {x : Variation} {p q : Pipeline} (h : p.Varies x [] q) (sink : Sink)
    (identity : Identity) (attributes : Attributes) :
    Session.Fresh x [] { Session.start p sink identity with attributes }
      { Session.start q sink identity with attributes } where
  identity := rfl
  pipeline := h
  attributes := rfl
  pending := rfl
  frames := .nil
  scopes_eq := rfl
  invoked := rfl
  sink := rfl
  journal := rfl
  events := rfl
  logged := rfl
  trail := .nil
  idle := rfl

end ValvePipeline
