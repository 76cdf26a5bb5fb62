import ValvePipeline.Proofs.UnwindingLaw

/-!
Signals and failures. In a run of built-in valves no signal is pending where a walk or a valve ends with
a failure, so at every moment the run stops for at most one of the two reasons. The invariant along the
trail also tells when the blocks of a guarded valve begin: the second one never after a signal.
-/

set_option autoImplicit false
set_option relaxedAutoImplicit false

namespace ValvePipeline

namespace Mark

def failure? : Mark → Option ValveFailure
  | .leavePipeline failure => failure
  | .leaveValve _ failure => failure
  | _ => none

def opens : Mark → Bool
  | .enterPipeline _ => true
  | m => m.begins

end Mark

/-- No signal is pending if something began here, or ended with a failure. -/
def Moment.Clear (m : Moment) : Prop :=
  m.mark.opens = true ∨ m.mark.failure?.isSome = true → m.pending = none

/-- If a block of a guarded valve begins at this moment, it is its turn after the moments before it, and
the last of them yields to it in the walks around the block. -/
def InTurn (history : List Moment) (m : Moment) : Prop :=
  ∀ label f outer tryBlock catchBlock finallyBlock config, m.mark = .enterPipeline label →
    m.frames = f :: outer →
    outer.head?.bind Frame.valve? = some (.guarded tryBlock catchBlock finallyBlock config) →
    (∃ earlier r, history = earlier ++ [r] ∧ r.mark.yields = true ∧ r.frames = outer) ∧
      ∃ part, Guarded.Turn tryBlock catchBlock finallyBlock (Trail.ended outer.length history) part
        f.pipeline

theorem InTurn.of_ne {history : List Moment} {m : Moment} (h : ∀ label, m.mark ≠ .enterPipeline label) :
    InTurn history m :=
  fun label _ _ _ _ _ _ hm => absurd hm (h label)

def InTurns (base moments : List Moment) : Prop :=
  ∀ earlier m later, moments = earlier ++ m :: later → earlier ≠ [] → InTurn (base ++ earlier) m

theorem InTurns.concat {base moments : List Moment} {m : Moment} (h : InTurns base moments)
    (hm : moments ≠ [] → InTurn (base ++ moments) m) : InTurns base (moments ++ [m]) := by
  intro earlier r later split hne
  rcases List.eq_nil_or_concat later with rfl | ⟨later, last, rfl⟩
  · obtain ⟨rfl, hr⟩ := List.append_inj' split rfl
    obtain rfl := List.singleton_inj.mp hr
    exact hm hne
  · rw [List.concat_eq_append, ← List.cons_append, ← List.append_assoc] at split
    exact h earlier r later (List.append_inj' split rfl).1 hne

namespace Session

/-- What the trail tells since some earlier point: blocks began in their turn, and neither a beginning
nor a failure met a pending signal. -/
def ClearSince (base : List Moment) (s : Session) : Prop :=
  ∃ moments, s.trail = base ++ moments ∧ InTurns base moments ∧ ∀ m ∈ moments, m.Clear

structure Clear (base : List Moment) (walks : List Frame) (s : Session) : Prop where
  since : s.ClearSince base
  frames : s.frames = walks
  pending : s.pending = none

/-- The block may begin now, or the trail does. -/
def Admits (base : List Moment) (s : Session) (block : Pipeline) : Prop :=
  s.trail ≠ base →
    InTurn s.trail ⟨.enterPipeline block.label, { pipeline := block } :: s.frames, none⟩

variable {base : List Moment} {walks : List Frame} {s t : Session} {block : Pipeline}

theorem ClearSince.refl (s : Session) : s.ClearSince s.trail :=
  ⟨[], (List.append_nil _).symm, by intro earlier m later h; simp at h, nofun⟩

theorem ClearSince.of_trail_eq (h : s.ClearSince base) (htrail : t.trail = s.trail) :
    t.ClearSince base := by
  obtain ⟨moments, hmoments, hturns, hclear⟩ := h
  exact ⟨moments, htrail.trans hmoments, hturns, hclear⟩

theorem ClearSince.concat {m : Moment} (h : s.ClearSince base) (htrail : t.trail = s.trail ++ [m])
    (hm : m.Clear) (hturn : s.trail ≠ base → InTurn s.trail m) : t.ClearSince base := by
  obtain ⟨moments, hmoments, hturns, hclear⟩ := h
  refine ⟨moments ++ [m], by rw [htrail, hmoments, List.append_assoc], ?_, ?_⟩
  · refine hturns.concat fun hne => hmoments ▸ hturn fun h => hne ?_
    simpa [h] using hmoments
  · intro r hr
    rcases List.mem_append.mp hr with hr | hr
    · exact hclear r hr
    · exact List.mem_singleton.mp hr ▸ hm

theorem ClearSince.mark {m : Moment} (h : s.ClearSince base) (htrail : t.trail = s.trail ++ [m])
    (hm : m.Clear) (hmark : ∀ label, m.mark ≠ .enterPipeline label) : t.ClearSince base :=
  h.concat htrail hm fun _ => .of_ne hmark

theorem ClearSince.plain {m : Moment} (h : s.ClearSince base) (htrail : t.trail = s.trail ++ [m])
    (hopens : m.mark.opens = false) (hfailure : m.mark.failure? = none) : t.ClearSince base := by
  refine h.mark htrail (fun hm => ?_) fun label hlabel => ?_
  · simp [hopens, hfailure] at hm
  · rw [hlabel] at hopens
    cases hopens

theorem Admits.of_host {v : Valve} (hhost : s.frames.head?.bind Frame.valve? = some v)
    (hv : ∀ tryBlock catchBlock finallyBlock config,
      v ≠ .guarded tryBlock catchBlock finallyBlock config) : s.Admits base block := by
  intro _ label f outer tryBlock catchBlock finallyBlock config _ hframes hguarded
  obtain ⟨-, rfl⟩ := List.cons.inj hframes
  exact absurd (Option.some.inj (hhost.symm.trans hguarded)) (hv _ _ _ _)

/-- In a guarded valve the blocks that have ended decide whether a block may begin. -/
theorem AtTurn.admits {ends : List Moment} (h : s.AtTurn ends)
    {tryBlock catchBlock finallyBlock : Option Pipeline} {config : CatchConfig}
    (hhost : s.frames.head?.bind Frame.valve? =
      some (.guarded tryBlock catchBlock finallyBlock config)) {part : Guarded.Part}
    (hturn : Guarded.Turn tryBlock catchBlock finallyBlock ends part block) :
    s.Admits base block := by
  obtain ⟨rfl, hlast⟩ := h
  intro _ label f outer _ _ _ _ _ hframes hguarded
  obtain ⟨rfl, rfl⟩ := List.cons.inj hframes
  cases hhost.symm.trans hguarded
  exact ⟨hlast, part, hturn⟩

end Session

inductive Ending.Clear {ε α : Type} (base : List Moment) (kept : α → Session → Prop) :
    Ending ε α → Prop
  | answered {a : α} {t : Session} : t.ClearSince base → kept a t → Clear base kept (.answered a t)
  | raised {e : ε} {t : Session} : t.ClearSince base → t.pending = none →
    Clear base kept (.raised e t)
  | exhausted {t : Session} : t.ClearSince base → Clear base kept (.exhausted t)

/-- How the walk of a block should end in these walks, after blocks that have ended before it: completed
without a pending signal, unwound with one, or with a failure and without one. -/
inductive Ending.ClearWalk (base : List Moment) (walks : List Frame) (ends : List Moment) :
    Ending ValveFailure WalkEnd → Prop
  | completed {t : Session} : t.Clear base walks → t.LeftBlock ends none →
    ClearWalk base walks ends (.answered .completed t)
  | unwound {t : Session} {signal : Signal} : t.ClearSince base → t.frames = walks →
    t.pending = some signal → t.LeftBlock ends none →
    ClearWalk base walks ends (.answered .unwound t)
  | raised {failure : ValveFailure} {t : Session} : t.Clear base walks →
    t.LeftBlock ends (some failure) → ClearWalk base walks ends (.raised failure t)
  | exhausted {t : Session} : t.ClearSince base → ClearWalk base walks ends (.exhausted t)

def Walker.Clear (walk : Walker) (block : Pipeline) : Prop :=
  ∀ (base : List Moment) (s : Session), s.Clear base s.frames → s.Admits base block →
    ((walk block).run s).ClearWalk base s.frames (Trail.ended s.frames.length s.trail)

namespace Session

variable {base : List Moment} {walks : List Frame} {s : Session}

theorem Clear.ask (h : s.Clear base walks) (condition : Condition) :
    (s.ask condition).2.Clear base walks := by
  obtain ⟨answer, frames, pending, htrail⟩ := s.trail_ask condition
  exact ⟨h.since.plain htrail rfl rfl, (s.frames_ask condition).trans h.frames,
    (s.pending_ask condition).trans h.pending⟩

theorem Clear.begin (h : s.Clear base walks) (config : LoopConfig) (count : Nat) :
    (Loop.begin config count s).Clear base walks := by
  have hpending : (Loop.begin config count s).pending = none :=
    (s.pending_begin config count).trans h.pending
  have hframes : (Loop.begin config count s).frames = walks :=
    (Conduct.steady_continues.begin config trivial count s).trans h.frames
  have htrail : (Loop.begin config count s).trail = s.trail ++
      [⟨.iterate count, (Loop.begin config count s).frames,
        (Loop.begin config count s).pending⟩] :=
    (trail_mark _ _).trans (by rw [trail_emit]; rfl)
  exact ⟨h.since.mark htrail (fun _ => hpending) nofun, hframes, hpending⟩

theorem Clear.catching (h : s.Clear base walks) (config : CatchConfig) (failure : ValveFailure) :
    (Guarded.catching config failure s).Clear base walks :=
  ⟨h.since.of_trail_eq (Guarded.catching_trail config failure s),
    (Conduct.steady_continues.catching config trivial failure s).trans h.frames,
    Guarded.catching_pending config failure s⟩

theorem ClearSince.settle (h : s.ClearSince base) (label : Option String) :
    (s.settle label).2.ClearSince base :=
  h.of_trail_eq (s.trail_settle label)

theorem pending_settle {label : Option String} (h : (s.settle label).1 ≠ .propagated) :
    (s.settle label).2.pending = none := by
  cases hpending : s.pending with
  | none => rwa [settle_of_none hpending]
  | some signal =>
    cases hsignal : signal.atBoundary label with
    | absorb => rw [settle_of_absorb hpending hsignal, pending_absorbBreak]
    | propagate next => exact absurd (by rw [settle_of_propagate hpending hsignal]) h

theorem Admits.of_eq {block : Pipeline} (h : s.Admits base block) {t : Session}
    (htrail : t.trail = s.trail) (hframes : t.frames = s.frames) : t.Admits base block := by
  unfold Admits
  rw [htrail, hframes]
  exact h

end Session

namespace Ending.Clear

variable {ε α β : Type} {base : List Moment}

theorem bind {kept : α → Session → Prop} {kept' : β → Session → Prop} {x : Run ε α}
    {f : α → Run ε β} {s : Session} (hx : (x.run s).Clear base kept)
    (hf : ∀ a t, t.ClearSince base → kept a t → ((f a).run t).Clear base kept') :
    ((x >>= f).run s).Clear base kept' := by
  rw [Run.run_bind]
  generalize x.run s = ending at hx ⊢
  cases hx with
  | answered hsince hkept => exact hf _ _ hsince hkept
  | raised hsince hpending => exact .raised hsince hpending
  | exhausted hsince => exact .exhausted hsince

theorem mono {kept kept' : α → Session → Prop} {ending : Ending ε α}
    (h : ending.Clear base kept) (hkept : ∀ a t, kept a t → kept' a t) :
    ending.Clear base kept' := by
  cases h with
  | answered hsince h => exact .answered hsince (hkept _ _ h)
  | raised hsince hpending => exact .raised hsince hpending
  | exhausted hsince => exact .exhausted hsince

end Ending.Clear

theorem Walk.runBoundary_clear {walk : Walker} {block : Pipeline} (hwalk : walk.Clear block)
    {base : List Moment} {walks : List Frame} {s : Session} (hs : s.Clear base walks)
    (hadmits : s.Admits base block) :
    ((runBoundary walk block).run s).Clear base fun settlement t =>
      t.frames = walks ∧ (settlement ≠ .propagated → t.pending = none) := by
  obtain ⟨hsince, rfl, hpending⟩ := hs
  have walked := hwalk base s ⟨hsince, rfl, hpending⟩ hadmits
  have settled (t : Session) (hsince : t.ClearSince base) (hframes : t.frames = s.frames) :
      ((settle block.label : Run ValveFailure Settlement).run t).Clear base fun settlement t =>
        t.frames = s.frames ∧ (settlement ≠ .propagated → t.pending = none) :=
    .answered (hsince.settle _) ⟨(t.frames_settle _).trans hframes, Session.pending_settle⟩
  rw [runBoundary, Run.run_bind]
  generalize (walk block).run s = ending at walked ⊢
  cases walked with
  | completed ht _ => exact settled _ ht.since ht.frames
  | unwound hsince hframes _ _ => exact settled _ hsince hframes
  | raised ht _ => exact .raised ht.since ht.pending
  | exhausted hsince => exact .exhausted hsince

namespace Flat

variable {base : List Moment} {walks : List Frame} {walk : Walker} {s : Session}

theorem ask_clear {ε α : Type} {condition : Condition} {f : Bool → Run ε α}
    {kept : α → Session → Prop} (hs : s.Clear base walks)
    (h : ∀ answer t, t.Clear base walks → ((f answer).run t).Clear base kept) :
    ((Run.act (·.ask condition) >>= f).run s).Clear base kept :=
  h _ _ (hs.ask condition)

theorem asks_clear {α : Type} {condition : Option Condition} {f : Bool → Run ValveFailure α}
    {kept : α → Session → Prop} (hs : s.Clear base walks)
    (h : ∀ more t, t.Clear base walks → ((f more).run t).Clear base kept) :
    ((Loop.asksForMore condition >>= f).run s).Clear base kept := by
  cases condition with
  | none => exact h true s hs
  | some condition => exact ask_clear hs h

variable (walks) in
def Back (_ : Unit) (t : Session) : Prop :=
  t.frames = walks

theorem quiet_clear {t : Session} (hs : s.Clear base walks) (htrail : t.trail = s.trail)
    (hframes : t.frames = s.frames) :
    (Ending.answered () t : Ending ValveFailure Unit).Clear base (Back walks) :=
  .answered (hs.since.of_trail_eq htrail) (hframes.trans hs.frames)

theorem block_clear {block : Pipeline} (hwalk : walk.Clear block) (hs : s.Clear base walks)
    (hadmits : s.Admits base block) : ((Flat.block walk block).run s).Clear base (Back walks) :=
  (Walk.runBoundary_clear hwalk hs hadmits).bind fun _ _ hsince hkept => .answered hsince hkept.1

theorem iterate_clear {body : Pipeline} (hwalk : walk.Clear body)
    (hadmits : ∀ t : Session, t.frames = walks → t.Admits base body)
    (condition : Option Condition) (config : LoopConfig) (steps count : Nat)
    (hs : s.Clear base walks) :
    ((iterate walk condition body config steps count).run s).Clear base (Back walks) := by
  induction steps generalizing count s with
  | zero => exact .exhausted hs.since
  | succ steps ih =>
    refine asks_clear hs fun more t ht => ?_
    cases more with
    | false => exact quiet_clear ht rfl rfl
    | true =>
      rw [if_pos rfl]
      split
      · exact .raised (ht.since.of_trail_eq rfl) ht.pending
      · have hbegun := ht.begin config count
        refine (Walk.runBoundary_clear hwalk hbegun (hadmits _ hbegun.frames)).bind
          fun settlement u hsince hu => ?_
        cases settlement with
        | completed => exact ih (count + 1) ⟨hsince, hu.1, hu.2 nofun⟩
        | absorbed => exact .answered hsince hu.1
        | propagated => exact .answered hsince hu.1

theorem request_clear (signal : Signal) (hs : s.Clear base walks) :
    ((Run.update (·.requestBreak signal) : Run ValveFailure Unit).run s).Clear base (Back walks) :=
  .answered (hs.since.plain (s.trail_requestBreak signal) rfl rfl)
    ((Conduct.steady_continues.request s signal).trans hs.frames)

theorem breakWhen_clear (wanted : Bool) (signal : Signal) (hs : s.Clear base walks) :
    ((breakWhen wanted signal).run s).Clear base (Back walks) := by
  cases wanted with
  | true => exact request_clear signal hs
  | false => exact quiet_clear hs rfl rfl

theorem select_clear {f : Option Pipeline → Run ValveFailure Unit} {branches : List Branch}
    {otherwise : Option Pipeline} (hs : s.Clear base walks)
    (hnone : ∀ t : Session, t.Clear base walks → ((f none).run t).Clear base (Back walks))
    (hsome : ∀ p ∈ branches.map (·.block) ++ otherwise.toList, ∀ t : Session,
      t.Clear base walks → ((f (some p)).run t).Clear base (Back walks)) :
    ((Valve.work.select branches otherwise >>= f).run s).Clear base (Back walks) := by
  induction branches generalizing s with
  | nil =>
    cases otherwise with
    | none => exact hnone s hs
    | some p => exact hsome p List.mem_cons_self s hs
  | cons branch branches ih =>
    simp only [Valve.work.select, bind_assoc]
    refine ask_clear hs fun answer t ht => ?_
    cases answer with
    | true => exact hsome branch.block List.mem_cons_self t ht
    | false => exact ih ht fun p hp => hsome p (List.mem_cons_of_mem _ hp)

end Flat

namespace Guarded

variable {ε : Type} {base : List Moment} {walks : List Frame} {walk : Walker} {s : Session}
  {tryBlock catchBlock finallyBlock : Option Pipeline} {config : CatchConfig}

variable (walks) in
def BlockEnded (ends : List Moment) (ending : Except ValveFailure (Option Pipeline)) (t : Session) :
    Prop :=
  t.frames = walks ∧ ((failure? ending).isSome = true → t.pending = none) ∧
    t.LeftBlock ends (failure? ending)

variable (base walks finallyBlock) in
def Tried (_ : Except ValveFailure (Option Pipeline)) (t : Session) : Prop :=
  t.frames = walks ∧ ∀ last, finallyBlock = some last → t.Admits base last

theorem BlockEnded.tried {ends : List Moment} {ending : Except ValveFailure (Option Pipeline)}
    {t : Session} (hhost : walks.head?.bind Frame.valve? =
      some (.guarded tryBlock catchBlock finallyBlock config))
    (h : BlockEnded walks ends ending t)
    (hover : ∀ r : Moment, r.mark = .leavePipeline (failure? ending) →
      Over tryBlock catchBlock (ends ++ [r])) : Tried base walks finallyBlock ending t := by
  obtain ⟨hframes, -, hleft⟩ := h
  exact ⟨hframes, fun last hlast =>
    hleft.atTurn.admits (hframes ▸ hhost) (.last (hover _ rfl) hlast)⟩

theorem runBlock_clear {block : Pipeline} (hwalk : walk.Clear block) (hs : s.Clear base walks)
    (hadmits : s.Admits base block) :
    ((runBlock walk block : Run ε (Except ValveFailure (Option Pipeline))).run s).Clear base
      (BlockEnded walks (Trail.ended walks.length s.trail)) := by
  obtain ⟨hsince, rfl, hpending⟩ := hs
  have walked := hwalk base s ⟨hsince, rfl, hpending⟩ hadmits
  rw [runBlock, Run.run_bind, Run.run_attempt]
  generalize (walk block).run s = ending at walked ⊢
  cases walked with
  | completed ht hleft =>
    exact .answered ht.since ⟨ht.frames, fun hfailed => absurd hfailed Bool.false_ne_true, hleft⟩
  | unwound hsince hframes _ hleft =>
    exact .answered hsince ⟨hframes, fun hfailed => absurd hfailed Bool.false_ne_true, hleft⟩
  | raised ht hleft => exact .answered ht.since ⟨ht.frames, fun _ => ht.pending, hleft⟩
  | exhausted hsince => exact .exhausted hsince

/-- The second block begins after a failure of the first one, and after nothing else. -/
theorem runProtected_clear (htry : ∀ p ∈ tryBlock, walk.Clear p)
    (hcatch : ∀ p ∈ catchBlock, walk.Clear p)
    (hhost : walks.head?.bind Frame.valve? =
      some (.guarded tryBlock catchBlock finallyBlock config))
    (hs : s.Clear base walks) (hturn : s.AtTurn []) :
    ((runProtected walk tryBlock catchBlock config :
      Run ε (Except ValveFailure (Option Pipeline))).run s).Clear base
      (Tried base walks finallyBlock) := by
  have hhere : s.frames.head?.bind Frame.valve? =
      some (.guarded tryBlock catchBlock finallyBlock config) := hs.frames ▸ hhost
  have hbegun : Trail.ended walks.length s.trail = [] := hs.frames ▸ hturn.1
  cases tryBlock with
  | none =>
    exact .answered hs.since
      ⟨hs.frames, fun last h => hturn.admits hhere (.last (.untried rfl) h)⟩
  | some block =>
    have ran := runBlock_clear (ε := ε) (htry block rfl) hs (hturn.admits hhere (.first rfl))
    rw [hbegun] at ran
    refine ran.bind fun ending t hsince ht => ?_
    cases ending with
    | ok origin => exact .answered hsince (ht.tried hhost fun r hr => .tried rfl hr)
    | error failure =>
      cases catchBlock with
      | none => exact .answered hsince (ht.tried hhost fun r hr => .failed rfl rfl hr)
      | some handler =>
        obtain ⟨hframes, hpending, hleft⟩ := ht
        have hfailed : t.Clear base walks := ⟨hsince, hframes, hpending rfl⟩
        have hcaught := hfailed.catching config failure
        have hsecond := hleft.atTurn.of_eq (catching_trail config failure t)
          (hcaught.frames.trans hfailed.frames.symm)
        have handled := runBlock_clear (ε := ε) (hcatch handler rfl) hcaught
          (hsecond.admits (hcaught.frames ▸ hhost) (.second rfl rfl rfl))
        rw [← hcaught.frames, hsecond.1, hcaught.frames] at handled
        exact handled.mono fun ending u hu => hu.tried hhost fun n _ => .handled rfl rfl rfl

end Guarded

namespace Flat

variable {base : List Moment} {walks : List Frame} {walk : Walker} {s : Session}

theorem settle_clear (origin : Option Pipeline) (hsince : s.ClearSince base)
    (hframes : s.frames = walks) : ((settle origin).run s).Clear base (Back walks) :=
  .answered (hsince.settle _) ((s.frames_settle _).trans hframes)

theorem conclude_clear (ending : Except ValveFailure (Option Pipeline)) (waiting : Option Signal)
    (hs : s.Clear base walks) : ((conclude ending waiting).run s).Clear base (Back walks) := by
  cases ending with
  | error failure => exact .raised hs.since hs.pending
  | ok origin =>
    cases waiting with
    | none => exact quiet_clear hs rfl rfl
    | some signal =>
      exact settle_clear (s := { s with pending := some signal }) origin
        (hs.since.of_trail_eq rfl) hs.frames

theorem guarded_clear {tryBlock catchBlock finallyBlock : Option Pipeline} {config : CatchConfig}
    (htry : ∀ p ∈ tryBlock, walk.Clear p) (hcatch : ∀ p ∈ catchBlock, walk.Clear p)
    (hfinally : ∀ p ∈ finallyBlock, walk.Clear p)
    (hhost : walks.head?.bind Frame.valve? =
      some (.guarded tryBlock catchBlock finallyBlock config))
    (hs : s.Clear base walks) (hturn : s.AtTurn []) :
    ((guarded walk tryBlock catchBlock finallyBlock config).run s).Clear base (Back walks) := by
  refine (Guarded.runProtected_clear htry hcatch hhost hs hturn).bind fun ending t hsince ht => ?_
  -- what waits is set aside, so the last block begins without a signal
  have hdropped : t.dropBreak.Clear base walks := ⟨hsince.of_trail_eq rfl, ht.1, rfl⟩
  cases finallyBlock with
  | none => exact conclude_clear ending t.pending hdropped
  | some last =>
    have walked := hfinally last rfl base t.dropBreak
      ⟨hdropped.since, rfl, rfl⟩ ((ht.2 last rfl).of_eq rfl rfl)
    show ((runLast walk last (conclude ending t.pending)).run t.dropBreak).Clear base (Back walks)
    rw [runLast, Run.run_bind]
    generalize (walk last).run t.dropBreak = ended at walked ⊢
    cases walked with
    | completed hu _ =>
      exact conclude_clear ending t.pending ⟨hu.since, hu.frames.trans ht.1, hu.pending⟩
    | unwound hsince hframes _ _ =>
      exact settle_clear (some last) hsince (hframes.trans ht.1)
    | raised hu _ => exact .raised hu.since hu.pending
    | exhausted hsince => exact .exhausted hsince

theorem own_clear {v : Valve} (hwalk : ∀ p ∈ v.children, walk.Clear p) (steps : Nat)
    (hhost : walks.head?.bind Frame.valve? = some v) (hs : s.Clear base walks)
    (hturn : s.AtTurn []) :
    ((work.own walk steps v).run s).Clear base (Back walks) := by
  have hadmits (h : ∀ tryBlock catchBlock finallyBlock config,
      v ≠ .guarded tryBlock catchBlock finallyBlock config) (p : Pipeline) (t : Session)
      (ht : t.frames = walks) : t.Admits base p :=
    .of_host (ht ▸ hhost) h
  cases v with
  | passThrough => exact quiet_clear hs rfl rfl
  | setAttribute key value => exact quiet_clear hs rfl rfl
  | log severity message => exact quiet_clear hs rfl rfl
  | record name counter => exact quiet_clear hs rfl rfl
  | failing name message => exact .raised hs.since hs.pending
  | scripted name script => exact quiet_clear hs rfl rfl
  | breakWith signal => exact request_clear signal hs
  | exit => exact request_clear .exit hs
  | breakIf condition signal =>
    exact ask_clear hs fun answer t ht => breakWhen_clear answer signal ht
  | breakUnless condition signal =>
    exact ask_clear hs fun answer t ht => breakWhen_clear (!answer) signal ht
  | loop body config =>
    exact iterate_clear (hwalk body List.mem_cons_self) (hadmits nofun body) none config steps 0 hs
  | whileLoop condition body config =>
    exact iterate_clear (hwalk body List.mem_cons_self) (hadmits nofun body) (some condition)
      config steps 0 hs
  | ifThen condition p =>
    refine ask_clear hs fun answer t ht => ?_
    cases answer with
    | true => exact block_clear (hwalk p List.mem_cons_self) ht (hadmits nofun p t ht.frames)
    | false => exact quiet_clear ht rfl rfl
  | choose branches otherwise =>
    exact select_clear hs (fun t ht => quiet_clear ht rfl rfl) fun p hp t ht =>
      block_clear (hwalk p hp) ht (hadmits nofun p t ht.frames)
  | sub p => exact block_clear (hwalk p List.mem_cons_self) hs (hadmits nofun p s hs.frames)
  | guarded tryBlock catchBlock finallyBlock config =>
    refine guarded_clear (fun p hp => hwalk p ?_) (fun p hp => hwalk p ?_)
      (fun p hp => hwalk p ?_) hhost hs hturn
    · simp [Valve.children, Option.mem_def.mp hp]
    · simp [Valve.children, Option.mem_def.mp hp]
    · simp [Valve.children, Option.mem_def.mp hp]

end Flat

/-- With this allowance of steps a valve that begins in a walk of built-in valves ends clear. -/
def Valve.Clears (steps : Nat) : Prop :=
  ∀ (base : List Moment) (s : Session) (f : Frame) (outer : List Frame) (i : Nat) (v : Valve),
    s.ClearSince base → s.pending = none → f.pipeline.BuiltIn → f.pipeline.valves[i]? = some v →
    ((Valve.run steps v).run (s.enterValve f outer i)).Clear base fun _ _ => True

namespace Valve.Clears

variable {steps : Nat} {base : List Moment} {s : Session}

theorem proceed (h : Clears steps) (hsince : s.ClearSince base)
    (hbuilt : ∀ f outer, s.frames = f :: outer → f.pipeline.BuiltIn) :
    ((Walk.proceed (Valve.run steps)).run s).Clear base fun _ _ => True := by
  have proceeding := Walk.proceed_proceeding (Valve.run steps) s
  generalize (Walk.proceed (Valve.run steps)).run s = ending at proceeding ⊢
  cases proceeding with
  | waits _ => exact .answered hsince trivial
  | outside _ _ => exact .answered (hsince.of_trail_eq rfl) trivial
  | again _ _ _ => exact .answered (hsince.of_trail_eq rfl) trivial
  | ends _ _ _ _ => exact .answered hsince trivial
  | @starts f outer v hpending hframes _ hvalve =>
    have valved := h base s f outer f.next v hsince hpending (hbuilt f outer hframes) hvalve
    rw [Run.run_afterwards]
    generalize (Valve.run steps v).run (s.enterValve f outer f.next) = ending at valved ⊢
    cases valved with
    | answered ht _ => exact .answered (ht.plain (Session.trail_leaveValve ..) rfl rfl) trivial
    | raised ht hpending =>
      refine .raised (ht.mark (Session.trail_leaveValve ..) (fun _ => hpending) nofun) hpending
    | exhausted ht => exact .exhausted ht

theorem runPipeline (h : Clears steps) {p : Pipeline} (hp : p.BuiltIn) :
    Walker.Clear (Walk.runPipeline (Valve.run steps)) p := by
  intro base s hs hadmits
  have hpending : (s.enterPipeline p).pending = none := hs.pending
  have entered : (s.enterPipeline p).ClearSince base := by
    refine hs.since.concat (s.trail_enterPipeline p) (fun _ => hs.pending) fun hne => ?_
    rw [hs.pending]
    exact hadmits hne
  have proceeded := h.proceed entered fun f outer hframes => (List.cons.inj hframes).1 ▸ hp
  have nested := Walk.proceed_keepsTo Conduct.nested_covers
    (Valve.run_keepsTo Conduct.nested_covers steps) (s.enterPipeline p)
  simp only [Walk.runPipeline, Run.run_bind, Run.run_update, Run.run_afterwards, Run.run_read]
  generalize (Walk.proceed (Valve.run steps)).run (s.enterPipeline p) = ending
    at proceeded nested ⊢
  cases proceeded with
  | @answered _ t hsince _ =>
    have hframes : t.frames.tail = s.frames := SameWalks.tail_eq nested.1
    have hleft := hsince.plain (t.trail_leavePipeline none) rfl rfl
    have hturn := Session.leftBlock_leavePipeline none nested
    have hkept : (t.leavePipeline none).pending = t.pending := rfl
    dsimp only
    rw [hkept]
    cases ht : t.pending with
    | none => exact .completed ⟨hleft, hframes, ht⟩ hturn
    | some signal => exact .unwound hleft hframes ht hturn
  | @raised failure t hsince ht =>
    have hframes : t.frames.tail = s.frames := SameWalks.tail_eq nested.1
    have hleft := hsince.mark (t.trail_leavePipeline (some failure)) (fun _ => ht) nofun
    exact .raised ⟨hleft, hframes, ht⟩ (Session.leftBlock_leavePipeline (some failure) nested)
  | exhausted hsince => exact .exhausted hsince

theorem all (steps : Nat) : Clears steps := by
  induction steps with
  | zero =>
    intro base s f outer i v hsince hpending _ _
    exact .exhausted (hsince.mark (Session.trail_mark _ _) (fun _ => hpending) nofun)
  | succ steps ih =>
    intro base s f outer i v hsince hpending hbuilt hvalve
    obtain ⟨hvalves⟩ := hbuilt
    obtain ⟨hscript, hchildren⟩ := hvalves v (List.mem_of_getElem? hvalve)
    have entered : (s.enterValve f outer i).Clear base
        ({ f with cursor := some i, reached := some i } :: outer) :=
      ⟨hsince.mark (Session.trail_mark _ _) (fun _ => hpending) nofun, rfl, hpending⟩
    have hturn : (s.enterValve f outer i).AtTurn [] := s.atTurn_enterValve f outer i
    have hhost : List.head? ({ f with cursor := some i, reached := some i } :: outer) >>=
        Frame.valve? = some v := hvalve
    rw [show Valve.run (steps + 1) v = v.work (Valve.run steps) steps from rfl,
      Valve.work_eq_own _ steps hscript]
    refine (Flat.own_clear (fun p hp => ih.runPipeline (hchildren p hp)) steps hhost entered
      hturn).bind fun _ t ht hback => ih.proceed ht fun g rest hframes => ?_
    obtain ⟨rfl, -⟩ := List.cons.inj (hframes.symm.trans hback)
    exact .intro hvalves

end Valve.Clears

/-- A walk ends in one of three ways, unless it is cut off. -/
inductive Ending.Parted : Ending ValveFailure WalkEnd → Prop
  | completed {t : Session} : t.pending = none → Parted (.answered .completed t)
  | unwound {t : Session} {signal : Signal} : t.pending = some signal →
    Parted (.answered .unwound t)
  | raised {failure : ValveFailure} {t : Session} : t.pending = none → Parted (.raised failure t)
  | exhausted {t : Session} : Parted (.exhausted t)

theorem Ending.ClearWalk.parted {base ends : List Moment} {walks : List Frame}
    {ending : Ending ValveFailure WalkEnd} (h : ending.ClearWalk base walks ends) : ending.Parted := by
  cases h with
  | completed ht _ => exact .completed ht.pending
  | unwound _ _ ht _ => exact .unwound ht
  | raised ht _ => exact .raised ht.pending
  | exhausted _ => exact .exhausted

theorem Ending.Clear.pending_of_raised {ε α : Type} {base : List Moment}
    {kept : α → Session → Prop} {ending : Ending ε α} (h : ending.Clear base kept) {e : ε}
    {t : Session} (ht : ending = .raised e t) : t.pending = none := by
  cases h with
  | raised _ hpending =>
    obtain ⟨-, rfl⟩ := Ending.raised.inj ht
    exact hpending
  | _ => cases ht

theorem Session.admits_trail (s : Session) (block : Pipeline) : s.Admits s.trail block :=
  fun hne => absurd rfl hne

namespace Walk

/-- The result of a run tells which signal is pending. -/
def Reports : Except RunFailure Outcome → Option Signal → Prop
  | .ok (.unwound signal), pending => pending = some signal
  | _, pending => pending = none

theorem invoke_clear {ε : Type} {walk : Walker} {base : List Moment} {s : Session}
    (hs : s.Clear base s.frames) (hwalk : walk.Clear s.pipeline)
    (hadmits : s.Admits base s.pipeline) :
    ((invoke walk : Run ε (Except RunFailure Outcome)).run s).Clear base
      fun result t => Reports result t.pending := by
  cases hinvoked : s.invoked with
  | true =>
    simp only [invoke, Run.run_bind, Run.run_read, id_eq, hinvoked, if_true]
    exact .answered hs.since hs.pending
  | false =>
    have launched : (launched s).Clear base (launched s).frames :=
      ⟨hs.since.of_trail_eq (launched_trail s), rfl, (launched_pending s).trans hs.pending⟩
    have walked := hwalk base _ launched
      (hadmits.of_eq (launched_trail s) (launched_frames s))
    unfold Walk.launched at walked
    simp only [invoke, Run.run_bind, Run.run_read, id_eq, hinvoked, Bool.false_eq_true,
      if_false, Run.run_update, Run.run_attempt]
    generalize (walk s.pipeline).run _ = ending at walked ⊢
    cases walked with
    | completed ht _ =>
      exact .answered (ht.since.of_trail_eq (Session.trail_emit ..))
        ((Session.pending_emit ..).trans ht.pending)
    | @unwound t signal hsince _ ht _ =>
      simp only [Run.run_bind, Run.run_read, Run.run_update, Run.run_pure, ht]
      exact .answered (hsince.of_trail_eq (Session.trail_emit ..))
        ((Session.pending_emit ..).trans ht)
    | raised ht _ =>
      exact .answered (ht.since.of_trail_eq (Session.trail_emit ..))
        ((Session.pending_emit ..).trans ht.pending)
    | exhausted hsince => exact .exhausted hsince

/-- Signals and failures are apart. In a run of built-in valves that begins without a pending signal,
none is pending at any moment where a valve, a walk or an iteration begins, or where a valve or a walk
ends with a failure; the blocks of guarded valves begin in their turn, told by the blocks that have ended, so
what handles a failure follows one; and the result tells what is pending at the end. The same holds of each call, wherever it is made:
a valve that begins without a pending signal, the rest of a walk, a walk and a boundary raise nothing
while a signal is pending, and a walk ends in one of three ways. -/
theorem channels {s : Session} (hbuilt : s.pipeline.BuiltIn) (hpending : s.pending = none)
    (steps : Nat) :
    ((∃ moments, (s.invoke steps).session.trail = s.trail ++ moments ∧ InTurns s.trail moments ∧
        ∀ m ∈ moments, m.Clear) ∧
      ∀ result t, s.invoke steps = .answered result t → Reports result t.pending) ∧
    ∀ u : Session,
      (∀ f outer i v, u.pending = none → f.pipeline.BuiltIn → f.pipeline.valves[i]? = some v →
        ∀ failure t, (Valve.run steps v).run (u.enterValve f outer i) = .raised failure t →
          t.pending = none) ∧
      ((∀ f outer, u.frames = f :: outer → f.pipeline.BuiltIn) →
        ∀ failure t, (proceed (Valve.run steps)).run u = .raised failure t → t.pending = none) ∧
      ∀ p : Pipeline, p.BuiltIn → u.pending = none →
        ((runPipeline (Valve.run steps) p).run u).Parted ∧
        ∀ failure t, (runBoundary (runPipeline (Valve.run steps)) p).run u = .raised failure t →
          t.pending = none := by
  have clears := Valve.Clears.all steps
  refine ⟨?_, fun u => ⟨?_, ?_, ?_⟩⟩
  · have ended : (s.invoke steps).Clear s.trail fun result t => Reports result t.pending :=
      invoke_clear ⟨.refl s, rfl, hpending⟩ (clears.runPipeline hbuilt) (s.admits_trail s.pipeline)
    generalize s.invoke steps = ending at ended ⊢
    cases ended with
    | @answered result t hsince hreports =>
      refine ⟨hsince, fun result' t' h => ?_⟩
      obtain ⟨rfl, rfl⟩ := Ending.answered.inj h
      exact hreports
    | raised hsince _ =>
      refine ⟨hsince, fun result t h => ?_⟩
      cases h
    | exhausted hsince =>
      refine ⟨hsince, fun result t h => ?_⟩
      cases h
  · intro f outer i v hu hf hvalve failure t ht
    exact (clears u.trail u f outer i v (.refl u) hu hf hvalve).pending_of_raised ht
  · intro hframes failure t ht
    exact (clears.proceed (.refl u) hframes).pending_of_raised ht
  · intro p hp hu
    have hclear := clears.runPipeline hp
    have here : u.Clear u.trail u.frames := ⟨.refl u, rfl, hu⟩
    refine ⟨(hclear _ u here (u.admits_trail p)).parted, fun failure t ht => ?_⟩
    exact (runBoundary_clear hclear here (u.admits_trail p)).pending_of_raised ht

private def failedScope : Pipeline :=
  ⟨none, [.failing "first" "no"]⟩

private def handlingScope : Pipeline :=
  ⟨none, [.breakWith (.level 1)]⟩

private def handledFailure : Pipeline :=
  ⟨none, [.guarded (some failedScope) (some handlingScope) none {}]⟩

private def handledRun : Ending Empty (Except RunFailure Outcome) :=
  (Session.start handledFailure .discard {}).invoke 5

private theorem handledFailure_builtIn : handledFailure.BuiltIn := by
  have single {v : Valve} (hv : v.BuiltIn) : Pipeline.BuiltIn ⟨none, [v]⟩ := by
    refine .intro fun w hw => ?_
    obtain rfl : w = v := List.mem_singleton.mp hw
    exact hv
  have failing : failedScope.BuiltIn := by
    refine single (.of_leaf (fun name script h => ?_) rfl)
    cases h
  have handling : handlingScope.BuiltIn := by
    refine single (.of_leaf (fun name script h => ?_) rfl)
    cases h
  refine single (.intro (fun name script h => ?_) fun p hp => ?_)
  · cases h
  · simp only [Valve.children, Option.toList, List.append_nil, List.singleton_append,
      List.mem_cons, List.not_mem_nil, or_false] at hp
    rcases hp with rfl | rfl
    · exact failing
    · exact handling

theorem channels_of_handledFailure :
    (∃ moments, handledRun.session.trail = [] ++ moments ∧ InTurns [] moments ∧
      ∀ m ∈ moments, m.Clear) ∧
    handledRun.session.trail[5].mark =
      .leavePipeline (some (.failed "first" { message := "no" })) ∧
    handledRun.session.trail[6].frames.map (·.pipeline) = [handlingScope, handledFailure] ∧
    ∃ t, handledRun = .answered (.ok (.unwound (.level 0))) t ∧
      Reports (.ok (.unwound (.level 0))) t.pending := by
  have law := channels (s := Session.start handledFailure .discard {}) handledFailure_builtIn rfl 5
  have ended : handledRun = .answered (.ok (.unwound (.level 0))) handledRun.session := rfl
  exact ⟨law.1.1, rfl, rfl, _, ended, law.1.2 _ _ ended⟩

end Walk

end ValvePipeline
