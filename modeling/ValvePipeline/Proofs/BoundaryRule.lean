import ValvePipeline.Proofs.Channels
import ValvePipeline.Proofs.ExchangedRuns

/-!
One boundary rule. A valve that runs a block once may stand for any other one that runs the same block,
whatever pipelines are around them: what the block leaves meets the same boundary, and the run goes on in
the same way. A loop settles what leaves its body as these valves do.
-/

set_option autoImplicit false
set_option relaxedAutoImplicit false

namespace ValvePipeline

open Conduct (nested_covers)

namespace Valve

/-- The block that a valve runs when it begins with these attributes. -/
def block? (attributes : Attributes) : Valve → Option Pipeline
  | .ifThen condition block => if condition.holds attributes then some block else none
  | .choose branches otherwise =>
    ((branches.find? (·.condition.holds attributes)).map (·.block)).or otherwise
  | .sub block => some block
  | .guarded tryBlock _ _ _ => tryBlock
  | _ => none

def catches : Valve → Bool
  | .guarded _ (some _) _ _ => true
  | _ => false

/-- The valve may run the block, once, and does nothing else but ask some conditions before it and handle
its failure after it. -/
inductive Surrounds (asides : Condition → Prop) (block : Pipeline) : Valve → Prop
  | sub : Surrounds asides block (.sub block)
  | ifThen {condition : Condition} : asides condition →
    Surrounds asides block (.ifThen condition block)
  | branch {branches : List Branch} {otherwise : Option Pipeline} :
    (∀ b ∈ branches, asides b.condition) → (∃ b ∈ branches, b.block = block) →
    Surrounds asides block (.choose branches otherwise)
  | otherwise {branches : List Branch} : (∀ b ∈ branches, asides b.condition) →
    Surrounds asides block (.choose branches (some block))
  | guarded {catchBlock finallyBlock : Option Pipeline} {config : CatchConfig} :
    (∀ last ∈ finallyBlock, last.valves = []) →
    Surrounds asides block (.guarded (some block) catchBlock finallyBlock config)

end Valve

/-- In the same turn of the two runs a sub-pipeline valve has begun in the first one and another valve
around its block in the second one. -/
structure Trail.Exchanges (asides : Condition → Prop) (block : Pipeline) (w : Valve)
    (first second : List Moment) : Prop where
  turn : (begun second).length = (begun first).length
  first : (begun first).getLast? = some (.sub block)
  second : (begun second).getLast? = some w
  surrounds : w.Surrounds asides block

/-- Some valve of the second run that stands for a sub-pipeline valve does not run its block, as the
condition that it asks first tells, or handles a failure of it. -/
def Trail.Strays (asides : Condition → Prop) (a b : List Moment) : Prop :=
  ∃ first second block w, Exchanges asides block w first second ∧ first <+: a ∧
    ∃ m : Moment, m.valve? = some w ∧
      ((second ++ [m] <+: b ∧ ∃ condition attributes answer,
          m.mark = .ask condition attributes answer ∧ w.block? attributes ≠ some block) ∨
        (second <+: b ∧ m ∈ b ∧ w.catches = true ∧ ∃ failure, m.mark = .leavePipeline (some failure)))

theorem Trail.Strays.exists_moment {asides : Condition → Prop} {a b : List Moment}
    (h : Strays asides a b) : ∃ m ∈ b, ∃ block w, w.Surrounds asides block ∧ m.valve? = some w ∧
      ((∃ condition attributes answer, m.mark = .ask condition attributes answer ∧
          w.block? attributes ≠ some block) ∨
        (w.catches = true ∧ ∃ failure, m.mark = .leavePipeline (some failure))) := by
  obtain ⟨first, second, block, w, hplaced, -, m, hm, ⟨hsecond, hasks⟩ | ⟨-, hmem, hcatches⟩⟩ := h
  · exact ⟨m, hsecond.subset List.mem_concat_self, block, w, hplaced.surrounds, hm, .inl hasks⟩
  · exact ⟨m, hmem, block, w, hplaced.surrounds, hm, .inr hcatches⟩

/-- Sub-pipeline valves are exchanged for other valves around their blocks, which ask these conditions. -/
def Exchange.boundaries (asides : Condition → Prop) : Exchange where
  swaps v w := ∃ block, v = .sub block ∧ block.BuiltIn ∧ w.Surrounds asides block
  halts _ _ := False
  entries entry := ∃ condition, asides condition ∧ ∃ attributes, entry ∈ (condition.eval attributes).2
  events _ := False
  lines _ := False
  strayed := Trail.Strays asides
  lasting := by
    rintro a a' b b' ⟨first, second, block, w, hplaced, hfirst, m, hm, hstrays⟩ ha hb
    refine ⟨first, second, block, w, hplaced, hfirst.trans ha, m, hm, ?_⟩
    rcases hstrays with ⟨hsecond, hasks⟩ | ⟨hsecond, hmem, hcatches⟩
    · exact .inl ⟨hsecond.trans hb, hasks⟩
    · exact .inr ⟨hsecond.trans hb, hb.subset hmem, hcatches⟩

theorem Exchange.boundaries_lawful (asides : Condition → Prop) : (boundaries asides).Lawful where
  breaks := nofun
  overruled h := by
    obtain ⟨_, _, hhalts⟩ := h.exists_halts
    exact hhalts.elim

namespace Session

theorem noteAll_eq (s : Session) (entries : List String) :
    (s.noteAll entries).frames = s.frames ∧ (s.noteAll entries).pending = s.pending := by
  induction entries generalizing s with
  | nil => exact ⟨rfl, rfl⟩
  | cons entry entries ih => exact ih (s.note entry)

theorem attributes_ask (s : Session) (condition : Condition) :
    (s.ask condition).2.attributes = s.attributes :=
  s.attributes_noteAll (condition.eval s.attributes).2

theorem trail_ask_eq (s : Session) (condition : Condition) :
    (s.ask condition).2.trail = s.trail ++
      [⟨.ask condition s.attributes (condition.holds s.attributes), s.frames, s.pending⟩] := by
  obtain ⟨hframes, hpending⟩ := s.noteAll_eq (condition.eval s.attributes).2
  show ((s.noteAll (condition.eval s.attributes).2).mark _).trail = _
  rw [trail_mark, trail_noteAll, hframes, hpending]
  rfl

theorem Agrees.addAsk {x : Exchange} {scopes : List Bool} {s t : Session}
    (h : s.Agrees x scopes t) {condition : Condition}
    (hentries : ∀ entry ∈ (condition.eval t.attributes).2, x.entries entry) :
    s.Agrees x scopes (t.ask condition).2 :=
  ⟨h.toCorresponds.addAsk hentries, (t.pending_ask condition).trans h.pending⟩

end Session

section Swapped

variable {asides : Condition → Prop} {scopes : List Bool} {block : Pipeline} {w : Valve}
  {s t : Session}

theorem Session.Starting.exchanges
    (h : s.Starting (.boundaries asides) scopes (.sub block) w t) (hw : w.Surrounds asides block) :
    Trail.Exchanges asides block w s.trail t.trail :=
  ⟨h.begun, h.first.last, h.second.last, hw⟩

theorem Session.Starting.strays_of_ask
    (h : s.Starting (.boundaries asides) scopes (.sub block) w t) (hw : w.Surrounds asides block)
    (hother : w.block? t.attributes ≠ some block) (condition : Condition) :
    Trail.Strays asides s.trail (t.ask condition).2.trail := by
  refine ⟨s.trail, t.trail, block, w, h.exchanges hw, List.prefix_rfl,
    ⟨.ask condition t.attributes (condition.holds t.attributes), t.frames, t.pending⟩,
    h.second.running, .inl ⟨⟨[], ?_⟩, condition, t.attributes, _, rfl, hother⟩⟩
  rw [List.append_nil, t.trail_ask_eq]

theorem entries_of_aside {condition : Condition} (h : asides condition) (attributes : Attributes) :
    ∀ entry ∈ (condition.eval attributes).2, (Exchange.boundaries asides).entries entry :=
  fun _ hentry => ⟨condition, h, attributes, hentry⟩

namespace Valve

theorem run_select {x : Exchange} (branches : List Branch) (otherwise : Option Pipeline)
    (t : Session) : ∃ u, (work.select branches otherwise).run t =
        .answered ((Valve.choose branches otherwise).block? t.attributes) u ∧
      ∀ (scopes : List Bool) (s : Session),
        (∀ b ∈ branches, ∀ entry ∈ (b.condition.eval t.attributes).2, x.entries entry) →
        s.Agrees x scopes t → s.Agrees x scopes u := by
  induction branches generalizing t with
  | nil => exact ⟨t, rfl, fun _ _ _ h => h⟩
  | cons branch branches ih =>
    have hanswer : (t.ask branch.condition).1 = branch.condition.holds t.attributes := rfl
    simp only [work.select, Run.run_bind, Run.run_act, hanswer]
    cases hholds : branch.condition.holds t.attributes with
    | true =>
      refine ⟨(t.ask branch.condition).2, ?_, fun scopes s hentries h =>
        h.addAsk (hentries branch List.mem_cons_self)⟩
      simp [block?, hholds]
    | false =>
      obtain ⟨u, hu, hagrees⟩ := ih (t.ask branch.condition).2
      rw [t.attributes_ask] at hu hagrees
      refine ⟨u, ?_, fun scopes s hentries h => hagrees scopes s
        (fun b hb => hentries b (List.mem_cons_of_mem branch hb))
        (h.addAsk (hentries branch List.mem_cons_self))⟩
      simpa [block?, hholds] using hu

theorem choose_grows {start : Starter} (hstart : ∀ v, (start v).KeepsTo .nested) (steps : Nat)
    (branch : Branch) (branches : List Branch) (otherwise : Option Pipeline) (t : Session) :
    (t.ask branch.condition).2.trail <+:
      (((Valve.choose (branch :: branches) otherwise).work start steps).run t).session.trail := by
  have taken := runTaken_keepsTo nested_covers hstart
  have selected := Run.trail_grows_bind
    (Run.act (·.ask branch.condition) : Run ValveFailure Bool)
    (f := fun answer => if answer then return some branch.block else work.select branches otherwise)
    (fun answer => by
      cases answer with
      | true => exact nested_covers.pure _
      | false => exact select_keepsTo nested_covers branches otherwise) t
  exact selected.trans (Run.trail_grows_bind (work.select (branch :: branches) otherwise) taken t)

end Valve

namespace Guarded

def handle (start : Starter) (block : Pipeline) (catchBlock finallyBlock : Option Pipeline)
    (config : CatchConfig) (ended : Except ValveFailure WalkEnd) : Run ValveFailure Unit :=
  match ended, catchBlock with
  | .ok .completed, _ => finish start finallyBlock (.ok none)
  | .ok .unwound, _ => finish start finallyBlock (.ok (some block))
  | .error failure, none => finish start finallyBlock (.error failure)
  | .error failure, some handler => do
    Run.update (catching config failure)
    finish start finallyBlock (← runBlock (Walk.runPipeline start) handler)

theorem run_eq_handle (start : Starter) (block : Pipeline) (catchBlock finallyBlock : Option Pipeline)
    (config : CatchConfig) : run start (some block) catchBlock finallyBlock config =
      Run.attempt (Walk.runPipeline start block) >>=
        handle start block catchBlock finallyBlock config := by
  rw [run_eq_finish, runProtected, runBlock, bind_assoc, bind_assoc]
  congr 1
  funext ended
  rcases ended with failure | ended
  · cases catchBlock with
    | none => rfl
    | some handler => rfl
  · cases ended <;> rfl

theorem handle_keepsTo {start : Starter} (hstart : ∀ v, (start v).KeepsTo .nested)
    (block : Pipeline) (catchBlock finallyBlock : Option Pipeline) (config : CatchConfig)
    (ended : Except ValveFailure WalkEnd) :
    (handle start block catchBlock finallyBlock config ended).KeepsTo .nested := by
  have finishes := finish_keepsTo nested_covers hstart finallyBlock
  rcases ended with failure | ended
  · cases catchBlock with
    | none => exact finishes _
    | some handler =>
      have catches := nested_covers.catching config trivial failure
      exact nested_covers.bind (Conduct.Continues.update catches) fun _ =>
        nested_covers.bind (runBlock_keepsTo nested_covers.toAllows
          (Walk.runPipeline_keepsTo nested_covers hstart handler)) finishes
  · cases ended <;> exact finishes _

theorem run_empty {x : Exchange} (start : Starter) {last : Pipeline} (hlast : last.valves = [])
    {t : Session} (ht : t.pending = none) : ∃ u,
      (Walk.runPipeline start last).run t = .answered .completed u ∧ u.pending = none ∧
        ∀ scopes s, Session.Corresponds x scopes s t → Session.Corresponds x scopes s u := by
  have hended : (Walk.proceed start).run (t.enterPipeline last) =
      .answered () (t.enterPipeline last) :=
    Walk.run_proceed_of_end start ht rfl rfl (by simp [Frame.next, hlast])
  refine ⟨(t.enterPipeline last).leavePipeline none, ?_, ht, fun scopes s h => ?_⟩
  · have hpending : ((t.enterPipeline last).leavePipeline none).pending = none := ht
    simp [Walk.runPipeline, hended, hpending]
  · refine { h with begun := ?_ }
    rw [Session.trail_leavePipeline, Trail.begun_concat_of_none rfl, Session.trail_enterPipeline,
      Trail.begun_concat_of_none rfl]
    exact h.begun

theorem finish_of_empty {x : Exchange} (start : Starter) {finallyBlock : Option Pipeline}
    (hlast : ∀ last ∈ finallyBlock, last.valves = [])
    (ending : Except ValveFailure (Option Pipeline)) (t : Session) : ∃ u,
      (finish start finallyBlock ending).run t = (conclude start ending t.pending).run u ∧
        u.pending = none ∧
        ∀ scopes s, Session.Corresponds x scopes s t → Session.Corresponds x scopes s u := by
  have dropped (scopes : List Bool) (s : Session) (h : s.Corresponds x scopes t) :
      s.Corresponds x scopes t.dropBreak :=
    { h with }
  cases finallyBlock with
  | none => exact ⟨t.dropBreak, rfl, rfl, dropped⟩
  | some last =>
    obtain ⟨u, hu, hidle, hcorresponds⟩ :=
      run_empty (x := x) start (hlast last rfl) (t := t.dropBreak) rfl
    refine ⟨u, ?_, hidle, fun scopes s h => hcorresponds scopes s (dropped scopes s h)⟩
    simp [finish, hu]

theorem settled_corresponds {start : Starter} (hstart : start.Exchanges (.boundaries asides))
    {finallyBlock : Option Pipeline} (hlast : ∀ last ∈ finallyBlock, last.valves = [])
    {origin : Option Pipeline} (h : s.Agrees (.boundaries asides) scopes t)
    (horigin : t.pending = none ∨ origin = some block) :
    ((Walk.settle block.label >>= Walk.resumeAfter start).run s).Corresponds (.boundaries asides)
      scopes (fun _ _ => Session.Tallies (.boundaries asides) scopes)
      ((finish start finallyBlock (.ok origin)).run t) := by
  obtain ⟨u, hu, hidle, hcorresponds⟩ := finish_of_empty start hlast (.ok origin) t
  have hsu := hcorresponds scopes s h.toCorresponds
  rw [hu]
  cases ht : t.pending with
  | none =>
    have hs : s.pending = none := h.pending ▸ ht
    simp only [Run.run_bind, Walk.settle, Run.run_act, Session.settle_of_none hs]
    exact (Walk.proceed_corresponds hstart).ends ⟨hsu, hidle.trans hs.symm⟩
  | some signal =>
    obtain rfl : origin = some block := horigin.resolve_left (by simp [ht])
    have hagrees : s.Agrees (.boundaries asides) scopes { u with pending := some signal } :=
      ⟨{ hsu with }, (h.pending ▸ ht : s.pending = some signal).symm⟩
    exact (Walk.settle_resume_corresponds hstart block.label).ends hagrees

end Guarded

theorem Walk.runBlock_eq_attempt (start : Starter) (block : Pipeline) :
    runBlock start block = Run.attempt (runPipeline start block) >>= fun
      | .ok _ => settle block.label >>= resumeAfter start
      | .error failure => Run.raise failure := by
  ext s
  simp only [runBlock, runBoundary, Run.run_bind, Run.run_attempt]
  cases (runPipeline start block).run s <;> rfl

theorem Walk.left_of_failed {steps : Nat} (hblock : block.BuiltIn) (ht : t.pending = none)
    {failure : ValveFailure} {u : Session}
    (hu : (runPipeline (Valve.run steps) block).run t = .raised failure u) :
    u.pending = none ∧ ∃ m ∈ u.trail, m.valve? = t.valve? ∧
      m.mark = .leavePipeline (some failure) := by
  have clear := (Valve.Clears.all steps).runPipeline hblock t.trail t ⟨.refl t, rfl, ht⟩
    (t.admits_trail block)
  rw [hu] at clear
  cases clear with
  | raised hclear hleft =>
    obtain ⟨⟨before, htrail⟩, -⟩ := hleft
    refine ⟨hclear.pending, _, htrail ▸ List.mem_concat_self, ?_, rfl⟩
    rw [Moment.valve?, hclear.frames, Session.valve?]

/-- A guarded valve with no more than an empty last block does what a sub-pipeline valve does, unless it
handles a failure. -/
theorem Guarded.around_corresponds {steps : Nat} (hblock : block.BuiltIn)
    {catchBlock finallyBlock : Option Pipeline} {config : CatchConfig}
    (hlast : ∀ last ∈ finallyBlock, last.valves = [])
    (hstart : Starter.Exchanges (.boundaries asides) (Valve.run steps))
    (h : s.Starting (.boundaries asides) scopes (.sub block)
      (.guarded (some block) catchBlock finallyBlock config) t) :
    ((Walk.runBlock (Valve.run steps) block).run s).Corresponds (.boundaries asides) scopes
      (fun _ _ => Session.Tallies (.boundaries asides) scopes)
      ((run (Valve.run steps) (some block) catchBlock finallyBlock config).run t) := by
  have ht : t.pending = none := h.pending.trans h.idle
  have hkeeps := Walk.runPipeline_keepsTo nested_covers hstart.keeps block
  have failed (ended : Except ValveFailure WalkEnd) (v : Session)
      (hv : (Run.attempt (Walk.runPipeline (Valve.run steps) block) : Run ValveFailure _).run t =
        .answered ended v) : t.trail <+: v.trail ∧ ∀ failure, ended = .error failure →
          v.pending = none ∧ ∃ m ∈ v.trail, m.valve? = t.valve? ∧
            m.mark = .leavePipeline (some failure) := by
    refine ⟨hkeeps.attempt.grows_of_answered hv, ?_⟩
    rintro failure rfl
    have hraised : (Walk.runPipeline (Valve.run steps) block).run t = .raised failure v := by
      rw [Run.run_attempt] at hv
      split at hv
      · cases hv
      · obtain ⟨hsame, rfl⟩ := Ending.answered.inj hv
        cases hsame
        assumption
      · cases hv
    exact Walk.left_of_failed hblock ht hraised
  have walked := ((((Walk.runPipeline_corresponds hstart (block.exchanged_self _)).attempt
    (δ := ValveFailure)).ends h.toAgrees).ensuring failed).ensuring_first
      fun _ _ hu => hkeeps.attempt.grows_of_answered hu
  rw [Walk.runBlock_eq_attempt, run_eq_handle]
  refine walked.bind (fun ended => ?_)
    (handle_keepsTo hstart.keeps block catchBlock finallyBlock config) ?_
  · cases ended with
    | ok ended =>
      exact Walk.settle_resume_keepsTo nested_covers hstart.keeps block.label
    | error failure => exact nested_covers.raise failure
  · rintro ended ended' u v ⟨⟨hended, hsecond, hfailed⟩, hfirst⟩
    cases hended with
    | @ok a b _ _ hwalked =>
      cases hwalked with
      | same hsame hidle hagrees =>
        subst hsame
        cases b with
        | completed =>
          exact settled_corresponds hstart hlast hagrees (.inl (hagrees.pending.trans (hidle rfl)))
        | unwound => exact settled_corresponds hstart hlast hagrees (.inr rfl)
      | halted hmay _ _ _ => cases hmay
    | @error failure _ _ hagrees =>
      obtain ⟨hidle, m, hm, hvalve, hmark⟩ := hfailed failure rfl
      cases catchBlock with
      | none =>
        obtain ⟨w, hw, hw', hcorresponds⟩ :=
          finish_of_empty (Valve.run steps) hlast (.error failure) v
        have hraised := hcorresponds scopes u hagrees.toCorresponds
        show Ending.Corresponds _ _ _ _ ((finish _ finallyBlock (.error failure)).run v)
        rw [hw]
        exact .raised ⟨hraised, (hw'.trans hidle.symm).trans hagrees.pending⟩
      | some handler =>
        refine .of_strayed ?_ (nested_covers.raise failure)
          (handle_keepsTo hstart.keeps block _ finallyBlock config _)
        refine ⟨s.trail, t.trail, block, _, h.exchanges (.guarded hlast), hfirst, m,
          hvalve.trans h.second.running, .inr ⟨hsecond, hm, rfl, failure, hmark⟩⟩

theorem Valve.choose_around_corresponds {steps : Nat} {branches : List Branch}
    {otherwise : Option Pipeline} (hasides : ∀ b ∈ branches, asides b.condition)
    (hw : (Valve.choose branches otherwise).Surrounds asides block)
    (hempty : branches = [] → otherwise = some block)
    (hstart : Starter.Exchanges (.boundaries asides) (Valve.run steps))
    (h : s.Starting (.boundaries asides) scopes (.sub block) (.choose branches otherwise) t) :
    ((Walk.runBlock (Valve.run steps) block).run s).Corresponds (.boundaries asides) scopes
      (fun _ _ => Session.Tallies (.boundaries asides) scopes)
      (((Valve.choose branches otherwise).work (Valve.run steps) steps).run t) := by
  by_cases htaken : (Valve.choose branches otherwise).block? t.attributes = some block
  · obtain ⟨u, hu, hagrees⟩ := run_select (x := .boundaries asides) branches otherwise t
    have hsu := hagrees scopes s
      (fun b hb => entries_of_aside (hasides b hb) t.attributes) h.toAgrees
    simp only [work, Run.run_bind, hu, htaken]
    exact (Walk.runBlock_corresponds (Exchange.boundaries_lawful asides).breaks hstart
      (.intro (block.exchanged_self _))).ends hsu
  · cases branches with
    | nil => exact absurd (hempty rfl) htaken
    | cons branch branches =>
      refine .strayed ((Exchange.boundaries asides).lasting
        (h.strays_of_ask hw htaken branch.condition) ?_
        (choose_grows hstart.keeps steps branch branches otherwise t))
      exact (Walk.runBlock_keepsTo nested_covers hstart.keeps block).trail_grows s

theorem Exchange.boundaries_holds (asides : Condition → Prop) (steps : Nat) :
    (boundaries asides).Holds steps where
  halted h := h.elim
  swapped := by
    rintro scopes v w s t ⟨block, rfl, hblock, hw⟩ hstart h
    have runs : (Walk.runBlock (Valve.run steps) block).Corresponds (.boundaries asides) scopes
        (Session.Agrees (.boundaries asides) scopes)
        (fun _ _ => Session.Tallies (.boundaries asides) scopes)
        (Walk.runBlock (Valve.run steps) block) :=
      Walk.runBlock_corresponds (boundaries_lawful asides).breaks hstart
        (.intro (block.exchanged_self _))
    cases hw with
    | sub => exact runs.ends h.toAgrees
    | @ifThen condition haside =>
      show ((Walk.runBlock (Valve.run steps) block).run s).Corresponds _ scopes _
        ((if condition.holds t.attributes then Walk.runBlock (Valve.run steps) block
          else Walk.proceed (Valve.run steps)).run (t.ask condition).2)
      cases hholds : condition.holds t.attributes with
      | true => exact runs.ends (h.toAgrees.addAsk (entries_of_aside haside t.attributes))
      | false =>
        have hother : (Valve.ifThen condition block).block? t.attributes ≠ some block := by
          simp [Valve.block?, hholds]
        exact .of_strayed (h.strays_of_ask (.ifThen haside) hother condition) runs.keeps
          (Walk.proceed_keepsTo nested_covers hstart.keeps)
    | @branch branches otherwise hasides hbranch =>
      refine Valve.choose_around_corresponds hasides (.branch hasides hbranch) (fun hempty => ?_)
        hstart h
      obtain ⟨b, hb, -⟩ := hbranch
      rw [hempty] at hb
      cases hb
    | otherwise hasides =>
      exact Valve.choose_around_corresponds hasides (.otherwise hasides) (fun _ => rfl) hstart h
    | guarded hlast => exact Guarded.around_corresponds hblock hlast hstart h

end Swapped

namespace Loop

/-- A first walk of the body that leaves a signal is settled as that of a sub-pipeline valve is. -/
theorem iterate_eq_runBlock {start : Starter} {condition : Option Condition} {body : Pipeline}
    {config : LoopConfig} {s u t : Session}
    (hasks : (asksForMore condition : Run ValveFailure Bool).run s = .answered true u)
    (hwalk : (Walk.runPipeline start body).run (begin config 0 u) = .answered .unwound t)
    (steps : Nat) : (iterate start condition body config (steps + 1) 0).run s =
      (Walk.runBlock start body).run (begin config 0 u) := by
  have hspent : isSpent config 0 = false := by
    simp only [isSpent, LoopConfig.isBounded, Bool.and_eq_false_imp, decide_eq_true_eq,
      decide_eq_false_iff_not]
    omega
  obtain ⟨signal, hsignal⟩ := Option.isSome_iff_exists.mp ((Walk.unwound_iff hwalk).mp rfl)
  rw [run_iterate_of_more body steps hasks hspent]
  simp only [Walk.runBlock, Walk.runBoundary, Run.run_bind, hwalk, Walk.settle, Run.run_act]
  cases hdecision : signal.atBoundary body.label with
  | absorb => rw [Session.settle_of_absorb hsignal hdecision]; rfl
  | propagate next => rw [Session.settle_of_propagate hsignal hdecision]; rfl

end Loop

/-- The sessions in which two whole runs end: the same, but for entries of conditions. -/
structure Session.EndsLike (entries : String → Prop) (s t : Session) : Prop where
  attributes : t.attributes = s.attributes
  pending : t.pending = s.pending
  events : t.transcript.events = s.transcript.events
  log : t.transcript.log = s.transcript.log
  journal : ∃ journal, Woven entries journal s.transcript.journal.toList ∧
    Woven entries journal t.transcript.journal.toList

inductive Ending.EndsLike (entries : String → Prop) : Ending Empty (Except RunFailure Outcome) →
    Ending Empty (Except RunFailure Outcome) → Prop
  | answered {result : Except RunFailure Outcome} {s t : Session} : s.EndsLike entries t →
    EndsLike entries (.answered result s) (.answered result t)
  | exhausted {s t : Session} : EndsLike entries (.exhausted s) (.exhausted t)

theorem Session.Agrees.endsLike {asides : Condition → Prop} {scopes scopes' : List Bool}
    {s t u : Session} (ht : s.Agrees (.boundaries asides) scopes t)
    (hu : s.Agrees (.boundaries asides) scopes' u) :
    t.EndsLike (Exchange.boundaries asides).entries u where
  attributes := hu.attributes.trans ht.attributes.symm
  pending := hu.pending.trans ht.pending.symm
  events := Array.toList_inj.mp ((hu.events.eq_of_none fun _ => id).trans
    (ht.events.eq_of_none fun _ => id).symm)
  log := Array.toList_inj.mp ((hu.logged.eq_of_none fun _ => id).trans
    (ht.logged.eq_of_none fun _ => id).symm)
  journal := ⟨s.transcript.journal.toList, ht.journal, hu.journal⟩

theorem Ending.Corresponds.endsLike {asides : Condition → Prop} {scopes scopes' : List Bool}
    {base first second : Ending Empty (Except RunFailure Outcome)}
    (h : base.Corresponds (.boundaries asides) scopes (Same (.boundaries asides) scopes) first)
    (h' : base.Corresponds (.boundaries asides) scopes' (Same (.boundaries asides) scopes') second) :
    Trail.Strays asides base.session.trail first.session.trail ∨
      Trail.Strays asides base.session.trail second.session.trail ∨
      first.EndsLike (Exchange.boundaries asides).entries second := by
  cases h with
  | strayed hstrayed => exact .inl hstrayed
  | @raised e _ _ _ => exact e.elim
  | exhausted _ =>
    cases h' with
    | strayed hstrayed => exact .inr (.inl hstrayed)
    | exhausted _ => exact .inr (.inr .exhausted)
  | answered hsame =>
    obtain ⟨rfl, hagrees⟩ := hsame
    cases h' with
    | strayed hstrayed => exact .inr (.inl hstrayed)
    | answered hsame' =>
      obtain ⟨rfl, hagrees'⟩ := hsame'
      exact .inr (.inr (.answered (hagrees.endsLike hagrees')))

namespace Walk

/-- All boundaries apply one rule. Valves around the same blocks may stand for each other at the same
places of a pipeline: from whatever session they begin in, the two runs have the same result, attributes,
pending signal, events and log, and the same journal but for entries of the conditions that these valves
ask, unless some of these valves does not run its block, or handles a failure of it. The first walk of the
body of a loop that leaves a signal is settled as if a sub-pipeline valve had begun in the session in which
the iteration begins. -/
theorem boundaries_interchange {asides : Condition → Prop} {s : Session} {q r : Pipeline}
    (hq : s.pipeline.Exchanged (.boundaries asides) false q)
    (hr : s.pipeline.Exchanged (.boundaries asides) false r) (steps : Nat) :
    (Trail.Strays asides (s.invoke steps).session.trail
        ({ s with pipeline := q }.invoke steps).session.trail ∨
      Trail.Strays asides (s.invoke steps).session.trail
        ({ s with pipeline := r }.invoke steps).session.trail ∨
      ({ s with pipeline := q }.invoke steps).EndsLike (Exchange.boundaries asides).entries
        ({ s with pipeline := r }.invoke steps)) ∧
    ∀ (body : Pipeline) (config : LoopConfig) (u t : Session),
      ((runPipeline (Valve.run (steps + 1)) body).run (Loop.begin config 0 u) =
          .answered .unwound t →
        (Valve.run (steps + 2) (.loop body config)).run u =
          (Valve.run (steps + 2) (.sub body)).run (Loop.begin config 0 u)) ∧
      ∀ condition, (u.ask condition).1 = true →
        (runPipeline (Valve.run (steps + 1)) body).run (Loop.begin config 0 (u.ask condition).2) =
          .answered .unwound t →
        (Valve.run (steps + 2) (.whileLoop condition body config)).run u =
          (Valve.run (steps + 2) (.sub body)).run (Loop.begin config 0 (u.ask condition).2) := by
  have ends {p : Pipeline} (h : s.pipeline.Exchanged (.boundaries asides) false p) :=
    Session.invoke_corresponds (Exchange.boundaries_lawful asides)
      (Exchange.boundaries_holds asides) (Session.Agrees.of_exchanged h s) steps
  refine ⟨(ends hq).endsLike (ends hr), fun body config u t => ⟨fun hwalk => ?_, ?_⟩⟩
  · have asks : (Loop.asksForMore none : Run ValveFailure Bool).run u = .answered true u := rfl
    exact Loop.iterate_eq_runBlock asks hwalk steps
  · intro condition hanswer hwalk
    have asks : (Loop.asksForMore (some condition) : Run ValveFailure Bool).run u =
        .answered true (u.ask condition).2 := by
      simp [Loop.asksForMore, hanswer]
    exact Loop.iterate_eq_runBlock asks hwalk steps

private def brokenBlock : Pipeline :=
  ⟨some "scope", [.record "inside" none, .breakWith (.level 0)]⟩

private def readyCondition : Condition :=
  .named "ready" (.constant true)

private def around (v : Valve) : Pipeline :=
  ⟨none, [v, .record "after" none]⟩

private def aroundRun (v : Valve) : Ending Empty (Except RunFailure Outcome) :=
  (Session.start (around v) .collect {}).invoke 6

private theorem around_exchanged {w : Valve} (hw : w.Surrounds (· = readyCondition) brokenBlock) :
    (around (.sub brokenBlock)).Exchanged (.boundaries (· = readyCondition)) false (around w) := by
  have builtIn : brokenBlock.BuiltIn := by
    refine .intro fun v hv => ?_
    rcases List.mem_pair.mp hv with rfl | rfl
    · exact .of_leaf nofun rfl
    · exact .of_leaf nofun rfl
  refine .intro rfl rfl fun {v v'} h => ?_
  simp only [around, List.zip_cons_cons, List.zip_nil_right, List.mem_cons, Prod.mk.injEq,
    List.not_mem_nil, or_false] at h
  obtain ⟨rfl, rfl⟩ | ⟨rfl, rfl⟩ := h
  · exact .swap ⟨brokenBlock, rfl, builtIn, hw⟩
  · exact .leaf rfl

private def isSteady (m : Moment) : Bool :=
  match m.valve?, m.mark with
  | some (.choose _ _), _ => false
  | _, .leavePipeline (some _) => false
  | _, _ => true

private theorem not_strays {a b : List Moment} (h : b.all isSteady = true) :
    ¬Trail.Strays (· = readyCondition) a b := by
  intro hstrays
  obtain ⟨m, hm, block, w, hw, hvalve, ⟨_, attributes, _, -, hother⟩ | ⟨-, failure, hmark⟩⟩ :=
    hstrays.exists_moment
  · have hsteady := List.all_eq_true.mp h m hm
    simp only [isSteady, hvalve] at hsteady
    cases hw with
    | ifThen hcondition => exact hother (by rw [hcondition]; rfl)
    | branch _ _ => cases hsteady
    | otherwise _ => cases hsteady
    | _ => exact hother rfl
  · have hsteady := List.all_eq_true.mp h m hm
    simp only [isSteady, hmark] at hsteady
    split at hsteady <;> simp_all

theorem boundaries_interchange_of_brokenBlock :
    (aroundRun (.ifThen readyCondition brokenBlock)).EndsLike
        (Exchange.boundaries (· = readyCondition)).entries
        (aroundRun (.guarded (some brokenBlock) none (some ⟨none, []⟩) {})) ∧
      (aroundRun (.ifThen readyCondition brokenBlock)).session.transcript.journal =
        #["?ready=true", "inside", "after"] ∧
      (Valve.run 8 (.loop brokenBlock {})).run (Session.start .empty .collect {}) =
        (Valve.run 8 (.sub brokenBlock)).run
          (Loop.begin {} 0 (Session.start .empty .collect {})) := by
  have conditional : (Valve.ifThen readyCondition brokenBlock).Surrounds (· = readyCondition)
      brokenBlock := .ifThen rfl
  have lastly : (Valve.guarded (some brokenBlock) none (some ⟨none, []⟩) {}).Surrounds
      (· = readyCondition) brokenBlock := .guarded (by simp)
  have law := boundaries_interchange (s := Session.start (around (.sub brokenBlock)) .collect {})
    (around_exchanged conditional) (around_exchanged lastly) 6
  refine ⟨(law.1.resolve_left (not_strays rfl)).resolve_left (not_strays rfl), rfl, ?_⟩
  exact (law.2 brokenBlock {} (Session.start .empty .collect {}) _).1 rfl

end Walk

end ValvePipeline
