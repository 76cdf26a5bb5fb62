import ValvePipeline.Proofs.ExchangedWalks
import ValvePipeline.Proofs.StandingBreak
import ValvePipeline.Proofs.UnwindingLaw

/-!
Runs of two pipelines in which valves are exchanged. When the valves that stand for each other keep the
sessions together, so do all valves around them, and so do the whole runs.
-/

set_option autoImplicit false
set_option relaxedAutoImplicit false

namespace ValvePipeline

open Conduct (nested_covers)

variable {x : Exchange} {start : Starter} {scopes : List Bool}

theorem ask_corresponds {ε : Type} (condition : Condition) :
    (Run.act (·.ask condition) : Run ε Bool).Corresponds x scopes (Session.Agrees x scopes)
      (Same x scopes) (Run.act (·.ask condition)) := by
  have keeps (s : Session) : Conduct.nested.done s (s.ask condition).2 :=
    nested_covers.ask s condition
  exact .act keeps keeps fun _ _ h => h.ask condition

theorem read_corresponds {ε α : Type} {f : Session → α}
    (h : ∀ s t, s.Agrees x scopes t → f t = f s) :
    (Run.read f : Run ε α).Corresponds x scopes (Session.Agrees x scopes) (Same x scopes)
      (Run.read f) :=
  ⟨nested_covers.read f, nested_covers.read f, fun {s t} hagrees =>
    .answered ⟨h s t hagrees, hagrees⟩⟩

theorem emit_corresponds {ε : Type} (type : String) (data : Json) :
    (Run.update (·.emit type data) : Run ε Unit).Corresponds x scopes (Session.Agrees x scopes)
      (fun _ _ => Session.Agrees x scopes) (Run.update (·.emit type data)) :=
  .update (fun s => nested_covers.emit s type data) (fun s => nested_covers.emit s type data)
    fun _ _ h => h.emit type data

theorem note_corresponds {ε : Type} {f : Session → String}
    (h : ∀ s t, s.Agrees x scopes t → f t = f s) :
    (Run.update (fun s => s.note (f s)) : Run ε Unit).Corresponds x scopes (Session.Agrees x scopes)
      (fun _ _ => Session.Agrees x scopes) (Run.update fun s => s.note (f s)) := by
  have keeps (s : Session) : Conduct.nested.done s (s.note (f s)) :=
    nested_covers.change (.note _)
  refine .update keeps keeps fun s t hagrees => ?_
  rw [h s t hagrees]
  exact ⟨hagrees.note _, hagrees.pending⟩

theorem call_corresponds {ε : Type} :
    (Run.update (·.mark .call) : Run ε Unit).Corresponds x scopes (Session.Agrees x scopes)
      (fun _ _ => Session.Agrees x scopes) (Run.update (·.mark .call)) := by
  have keeps (s : Session) : Conduct.nested.done s (s.mark .call) :=
    nested_covers.change (.mark _ rfl)
  exact .update keeps keeps fun _ _ h => ⟨h.mark rfl rfl, h.pending⟩

namespace Loop

def afterBody (start : Starter) (condition : Option Condition) (body : Pipeline)
    (config : LoopConfig) (steps count : Nat) : Settlement → Run ValveFailure Unit
  | .completed => iterate start condition body config steps (count + 1)
  | .absorbed => Walk.proceed start
  | .propagated => return ()

theorem afterBody_keepsTo {c : Conduct} (hc : c.Covers) (hstart : ∀ v, (start v).KeepsTo c)
    (condition : Option Condition) (body : Pipeline) (config : LoopConfig) (steps count : Nat)
    (settlement : Settlement) :
    (afterBody start condition body config steps count settlement).KeepsTo c := by
  cases settlement with
  | completed => exact iterate_keepsTo hc hstart condition body config steps (count + 1)
  | absorbed => exact Walk.proceed_keepsTo hc hstart
  | propagated => exact hc.pure ()

theorem run_iterate_of_more {condition : Option Condition} {config : LoopConfig} {count : Nat}
    {s u : Session} (body : Pipeline) (steps : Nat)
    (hasks : (asksForMore condition : Run ValveFailure Bool).run s = .answered true u)
    (hspent : isSpent config count = false) :
    (iterate start condition body config (steps + 1) count).run s =
      (Walk.runBoundary (Walk.runPipeline start) body >>=
        afterBody start condition body config steps count).run (begin config count u) := by
  simp only [iterate, Run.run_bind, hasks, hspent, if_true, Bool.false_eq_true, if_false,
    Run.run_update]
  rfl

theorem asks_alike {ε : Type} (condition : Option Condition) {s t : Session}
    (h : s.Agrees x scopes t) : ∃ more u v,
      (asksForMore condition : Run ε Bool).run s = .answered more u ∧
      (asksForMore condition : Run ε Bool).run t = .answered more v ∧ u.Agrees x scopes v := by
  cases condition with
  | none => exact ⟨true, s, t, rfl, rfl, h⟩
  | some condition =>
    obtain ⟨hanswer, hasked⟩ := h.ask condition
    refine ⟨_, _, _, rfl, ?_, hasked⟩
    exact congrArg (Ending.answered · _) hanswer

/-- Loops over exchanged bodies iterate together; or, if valves may halt there, until an iteration in which
the first body is halted. Then the first loop goes on with the next iteration where the pipeline around the
second one goes on. -/
theorem iterate_until_halted (hx : x.Breaks) (hstart : start.Exchanges x) {halting : Bool}
    {body other : Pipeline} (hbody : body.Exchanged x halting other)
    (condition : Option Condition) (config : LoopConfig) (steps count : Nat) {s t : Session}
    (h : s.Agrees x scopes t) :
    ((iterate start condition body config steps count).run s).Corresponds x scopes
        (fun _ _ => Session.Tallies x scopes)
        ((iterate start condition other config steps count).run t) ∨
      halting = true ∧
        ∃ rest n u v, rest + n = steps + count ∧ count < n ∧ u.Agrees x scopes v ∧
        (iterate start condition body config steps count).run s =
          (iterate start condition body config rest n).run u ∧
        (iterate start condition other config steps count).run t = (Walk.proceed start).run v := by
  induction steps generalizing count s t with
  | zero => exact .inl (.exhausted h.toCorresponds)
  | succ steps ih =>
    obtain ⟨more, u, v, hu, hv, huv⟩ := asks_alike (ε := ValveFailure) condition h
    cases more with
    | false =>
      simp only [iterate, Run.run_bind, hu, hv, Bool.false_eq_true, if_false, Run.run_update]
      exact .inl ((Walk.proceed_corresponds hstart).ends ⟨huv.log _ _ rfl, huv.pending⟩)
    | true =>
      cases hspent : isSpent config count with
      | true =>
        simp only [iterate, Run.run_bind, hu, hv, hspent, if_true, Run.run_update, Run.run_raise]
        exact .inl (.raised ⟨huv.log _ _ rfl, huv.pending⟩)
      | false =>
        rw [run_iterate_of_more body steps hu hspent, run_iterate_of_more other steps hv hspent]
        have begun : (begin config count u).Agrees x scopes (begin config count v) :=
          (Session.Agrees.lasting x scopes).begin huv config count
        have keeps := afterBody_keepsTo nested_covers hstart.keeps condition
        rcases ((Walk.runBoundary_corresponds hx hstart hbody).ends begun).answered_or with
          hends | ⟨a, b, y, z, hy, hz, hsettled⟩
        · exact .inl (hends.bind (keeps body config steps count) (keeps other config steps count)
            fun _ _ _ _ => False.elim)
        · rw [Run.run_bind, Run.run_bind, hy, hz]
          rcases hsettled.alike with rfl | ⟨hmay, rfl, rfl⟩
          · cases b with
            | completed =>
              rcases ih (count + 1) hsettled.toAgrees with hends | ⟨hmay, rest, n, v, w, hhalted⟩
              · exact .inl hends
              · obtain ⟨hcount, hn, hhalted⟩ := hhalted
                exact .inr ⟨hmay, rest, n, v, w, by omega, by omega, hhalted⟩
            | absorbed => exact .inl ((Walk.proceed_corresponds hstart).ends hsettled.toAgrees)
            | propagated => exact .inl (.answered hsettled.tallies)
          · exact .inr ⟨hmay, steps, count + 1, y, z, by omega, by omega, hsettled.toAgrees, rfl,
              rfl⟩

theorem iterate_corresponds (hx : x.Breaks) (hstart : start.Exchanges x) {p q : Pipeline}
    (hpq : p.Exchanged x false q) (condition : Option Condition) (config : LoopConfig)
    (steps count : Nat) :
    (iterate start condition p config steps count).Corresponds x scopes (Session.Agrees x scopes)
      (fun _ _ => Session.Tallies x scopes) (iterate start condition q config steps count) where
  keeps := iterate_keepsTo nested_covers hstart.keeps condition p config steps count
  keeps' := iterate_keepsTo nested_covers hstart.keeps condition q config steps count
  ends h := by
    rcases iterate_until_halted hx hstart hpq condition config steps count h with hends | hhalted
    · exact hends
    · exact absurd hhalted.1 Bool.false_ne_true

end Loop

def Moment.IsWaiting (m : Moment) : Prop :=
  ∃ failure, m.mark = .leavePipeline failure ∧ (failure.isSome = true ∨ m.pending.isSome = true)

namespace Trail

/-- The valve that begins at this moment stands in the last block of a guarded valve, and a failure or a
signal waits for that block. -/
def Awaited (sofar : List Moment) (enter : Moment) : Prop :=
  ∃ f outer tryBlock catchBlock block config r, enter.frames = f :: outer ∧
    outer.head?.bind Frame.valve? = some (.guarded tryBlock catchBlock (some block) config) ∧
    Guarded.Turn tryBlock catchBlock (some block) (ended outer.length sofar) .last f.pipeline ∧
    (ended outer.length sofar).getLast? = some r ∧ r.IsWaiting

/-- A break that the second run requests where a valve of the first one halts takes the place of something
that the halt leaves alone: of a signal that was pending, or of what waited for a last block. -/
def Supersedes (halts : Valve → Valve → Prop) (a b : List Moment) : Prop :=
  ∃ sofar enter later before n after, a = sofar ++ enter :: later ∧ b = before ++ n :: after ∧
    StandsFor halts sofar enter before n ∧
    ((∃ m, before.getLast? = some m ∧ m.pending.isSome = true) ∨ Awaited sofar enter)

theorem Supersedes.mono {halts : Valve → Valve → Prop} {a a' b b' : List Moment}
    (h : Supersedes halts a b) (ha : a <+: a') (hb : b <+: b') : Supersedes halts a' b' := by
  obtain ⟨sofar, enter, later, before, n, after, rfl, rfl, hrest⟩ := h
  obtain ⟨more, rfl⟩ := ha
  obtain ⟨others, rfl⟩ := hb
  exact ⟨sofar, enter, later ++ more, before, n, after ++ others, by simp, by simp, hrest⟩

theorem Supersedes.exists_halts {halts : Valve → Valve → Prop} {a b : List Moment}
    (h : Supersedes halts a b) : ∃ v w, halts v w := by
  obtain ⟨_, _, _, _, _, _, -, -, ⟨_, _, _, v, w, -, -, -, -, hvw, -⟩, -⟩ := h
  exact ⟨v, w, hvw⟩

theorem HaltedAt.inside {halts : Valve → Valve → Prop} {past inside b : List Moment} {x : Moment}
    {block : Pipeline} {walks : List Frame}
    (h : HaltedAt halts (past ++ [x] ++ inside) b block walks)
    (hx : x.frames.length = walks.length) (hinside : ∀ m ∈ inside, walks.length < m.frames.length) :
    ∃ sofar enter later before n after f, past ++ [x] ++ inside = sofar ++ enter :: later ∧
      b = before ++ n :: after ∧ StandsFor halts sofar enter before n ∧ enter.frames = f :: walks ∧
      f.pipeline = block ∧ ended walks.length sofar = ended walks.length (past ++ [x]) := by
  obtain ⟨sofar, enter, later, before, n, after, f, ha, hb, hstands, hframes, hblock, hlater⟩ := h
  refine ⟨sofar, enter, later, before, n, after, f, ha, hb, hstands, hframes, hblock, ?_⟩
  rcases List.append_eq_append_iff.mp ha with ⟨more, rfl, hmore⟩ | ⟨more, hsofar, hmore⟩
  · exact ended_append_of_deeper fun m hm => hinside m (hmore ▸ List.mem_append_left _ hm)
  · rcases List.eq_nil_or_concat more with rfl | ⟨more, last, rfl⟩
    · rw [hsofar, List.append_nil]
    · -- the moment before the walk would lie inside of it
      rw [List.concat_eq_append, ← List.append_assoc] at hsofar
      obtain ⟨-, hlast⟩ := List.append_inj' hsofar rfl
      obtain rfl := List.singleton_inj.mp hlast
      have hmem : x ∈ enter :: later := by rw [hmore]; simp
      rcases List.mem_cons.mp hmem with rfl | hmem
      · simp [hframes] at hx
      · exact absurd (hlater x hmem) (by omega)

end Trail

/-- What the second run may do besides is admitted, and the runs have strayed where a break supersedes. -/
structure Exchange.Lawful (x : Exchange) : Prop where
  breaks : x.Breaks
  overruled {a b : List Moment} : Trail.Supersedes x.halts a b → x.strayed a b

theorem SameWalks.valve?_eq {a b : List Frame} (h : SameWalks a b) :
    b.head?.bind Frame.valve? = a.head?.bind Frame.valve? := by
  cases h with
  | nil => rfl
  | cons hpipeline hcursor _ =>
    simp only [List.head?_cons, Option.bind_some, Frame.valve?, hpipeline, hcursor]

theorem Session.Begins.atTurn {s : Session} {v : Valve} (h : s.Begins v) : s.AtTurn [] := by
  obtain ⟨earlier, ⟨mark, frames, pending⟩, htrail, hbegun, rfl⟩ := h
  cases mark with
  | enterValve i =>
    refine ⟨?_, earlier, _, htrail, rfl, rfl⟩
    rw [htrail]
    exact Trail.ended_enterValve (m := ⟨.enterValve i, s.frames, pending⟩) rfl rfl _
  | _ => cases hbegun

theorem Walk.proceeded_of_answered {p : Pipeline} {s u : Session} {ended : WalkEnd}
    (h : (runPipeline start p).run s = .answered ended u) :
    ∃ v, (proceed start).run (s.enterPipeline p) = .answered () v ∧ u = v.leavePipeline none := by
  simp only [runPipeline, Run.run_bind, Run.run_update, Run.run_afterwards, Run.run_read] at h
  cases hr : (proceed start).run (s.enterPipeline p) with
  | answered a v =>
    rw [hr] at h
    exact ⟨v, rfl, (Ending.answered.inj h).2.symm⟩
  | raised e v => simp [hr] at h
  | exhausted v => simp [hr] at h

theorem Walk.proceeded_of_raised {p : Pipeline} {s u : Session} {failure : ValveFailure}
    (h : (runPipeline start p).run s = .raised failure u) :
    ∃ v, (proceed start).run (s.enterPipeline p) = .raised failure v ∧
      u = v.leavePipeline (some failure) := by
  simp only [runPipeline, Run.run_bind, Run.run_update, Run.run_afterwards, Run.run_read] at h
  cases hr : (proceed start).run (s.enterPipeline p) with
  | answered a v => simp [hr] at h
  | raised e v =>
    rw [hr] at h
    obtain ⟨rfl, rfl⟩ := Ending.raised.inj h
    exact ⟨v, rfl, rfl⟩
  | exhausted v => simp [hr] at h

theorem Walk.runPipeline_inside (hstart : ∀ v, (start v).KeepsTo .nested) {p : Pipeline}
    {s u : Session} {ended : WalkEnd} (h : (runPipeline start p).run s = .answered ended u) :
    u.frames = s.frames ∧ ∃ inside r, u.trail = s.trail ++ (inside ++ [r]) ∧
      ∀ m ∈ inside, s.frames.length < m.frames.length := by
  obtain ⟨v, hr, rfl⟩ := proceeded_of_answered h
  obtain ⟨hsame, moments, htrail, hbeneath⟩ := (proceed_keepsTo nested_covers hstart).answered hr
  refine ⟨SameWalks.tail_eq hsame,
    ⟨.enterPipeline p.label, { pipeline := p } :: s.frames, s.pending⟩ :: moments,
    ⟨.leavePipeline none, v.frames.tail, v.pending⟩, ?_, ?_⟩
  · rw [v.trail_leavePipeline, htrail, s.trail_enterPipeline]
    simp
  · exact List.forall_mem_cons.mpr ⟨Nat.lt_succ_self _, fun m hm => (hbeneath m hm).length_lt⟩

namespace Guarded

def Told (tryBlock catchBlock : Option Pipeline) (ending : Except ValveFailure (Option Pipeline))
    (s : Session) : Prop :=
  ∃ ends, s.AtTurn ends ∧ Over tryBlock catchBlock ends ∧
    ((∀ origin, ending = .ok origin → s.pending.isSome = true) →
      ∃ r, ends.getLast? = some r ∧ r.IsWaiting)

theorem runBlock_left {ε : Type} (hstart : ∀ v, (start v).KeepsTo .nested) (block : Pipeline)
    {s u : Session} {ending : Except ValveFailure (Option Pipeline)}
    (h : (runBlock (Walk.runPipeline start) block : Run ε _).run s = .answered ending u) :
    u.LeftBlock (Trail.ended s.frames.length s.trail) (failure? ending) := by
  have proceeds := Walk.proceed_keepsTo nested_covers hstart
  rw [runBlock, Run.run_bind, Run.run_attempt] at h
  cases hr : (Walk.runPipeline start block).run s with
  | answered ended v =>
    rw [hr] at h
    obtain ⟨w, hw, rfl⟩ := Walk.proceeded_of_answered hr
    cases ended with
    | completed =>
      obtain ⟨rfl, rfl⟩ := Ending.answered.inj h
      exact Session.leftBlock_leavePipeline none (proceeds.answered hw)
    | unwound =>
      obtain ⟨rfl, rfl⟩ := Ending.answered.inj h
      exact Session.leftBlock_leavePipeline none (proceeds.answered hw)
  | raised e v =>
    rw [hr] at h
    obtain ⟨w, hw, rfl⟩ := Walk.proceeded_of_raised hr
    obtain ⟨rfl, rfl⟩ := Ending.answered.inj h
    exact Session.leftBlock_leavePipeline (some e) (proceeds.raised hw)
  | exhausted v => simp [hr] at h

theorem told_of_left {tryBlock catchBlock : Option Pipeline}
    {ending : Except ValveFailure (Option Pipeline)} {s : Session} {ends : List Moment}
    (h : s.LeftBlock ends (failure? ending))
    (hover : ∀ r : Moment, r.mark = .leavePipeline (failure? ending) →
      Over tryBlock catchBlock (ends ++ [r])) : Told tryBlock catchBlock ending s := by
  refine ⟨_, h.atTurn, hover _ rfl, fun hwaits => ⟨_, List.getLast?_concat, failure? ending, rfl, ?_⟩⟩
  cases ending with
  | ok origin => exact .inr (hwaits origin rfl)
  | error failure => exact .inl rfl

theorem runProtected_told {ε : Type} (hstart : ∀ v, (start v).KeepsTo .nested)
    (tryBlock catchBlock : Option Pipeline) (config : CatchConfig) {s u : Session}
    (hturn : s.AtTurn []) (hs : s.pending = none)
    {ending : Except ValveFailure (Option Pipeline)}
    (h : (runProtected (Walk.runPipeline start) tryBlock catchBlock config : Run ε _).run s =
      .answered ending u) : Told tryBlock catchBlock ending u := by
  cases tryBlock with
  | none =>
    obtain ⟨rfl, rfl⟩ := Ending.answered.inj h
    refine ⟨[], hturn, .untried rfl, fun hwaits => ?_⟩
    have hpending := hwaits none rfl
    rw [hs] at hpending
    cases hpending
  | some block =>
    rw [runProtected, Run.run_bind] at h
    cases hr : (runBlock (Walk.runPipeline start) block : Run ε _).run s with
    | answered tried v =>
      rw [hr] at h
      have hleft := runBlock_left hstart block hr
      rw [hturn.1] at hleft
      cases tried with
      | ok origin =>
        obtain ⟨rfl, rfl⟩ := Ending.answered.inj h
        exact told_of_left hleft fun r hr => .tried rfl hr
      | error failure =>
        cases catchBlock with
        | none =>
          obtain ⟨rfl, rfl⟩ := Ending.answered.inj h
          exact told_of_left hleft fun r hr => .failed rfl rfl hr
        | some handler =>
          have hcaught : (catching config failure v).frames = v.frames :=
            Conduct.steady_continues.catching config trivial failure v
          have hhandled := runBlock_left hstart handler h
          rw [hcaught, catching_trail, hleft.2] at hhandled
          exact told_of_left hhandled fun r _ => .handled rfl rfl rfl
    | raised e v => simp [hr] at h
    | exhausted v => simp [hr] at h

inductive BlocksAlike (x : Exchange) (scopes : List Bool) :
    Except ValveFailure (Option Pipeline) → Except ValveFailure (Option Pipeline) → Session →
      Session → Prop
  | failed {e : ValveFailure} {s t : Session} : s.Agrees x scopes t →
    BlocksAlike x scopes (.error e) (.error e) s t
  | ended {a b : Option Pipeline} {s t : Session} : b.bind (·.label) = a.bind (·.label) →
    s.Agrees x scopes t → BlocksAlike x scopes (.ok a) (.ok b) s t
  | halted {p q : Pipeline} {s t : Session} : s.HaltedIn x scopes p t →
    BlocksAlike x scopes (.ok none) (.ok (some q)) s t

theorem runBlock_corresponds {ε : Type} (hstart : start.Exchanges x) {p q : Pipeline}
    (hpq : Block.Exchanged x p q) :
    (runBlock (Walk.runPipeline start) p : Run ε _).Corresponds x scopes (Session.Agrees x scopes)
      (BlocksAlike x scopes) (runBlock (Walk.runPipeline start) q) := by
  cases hpq with
  | intro hpq =>
    refine (Walk.runPipeline_corresponds hstart hpq).attempt.bind (fun ended => ?_)
      (fun ended => ?_) ?_
    · rcases ended with _ | (_ | _) <;> exact nested_covers.pure _
    · rcases ended with _ | (_ | _) <;> exact nested_covers.pure _
    · intro ended ended' s t hattempted
      cases hattempted with
      | error hagrees => exact .answered (.failed hagrees)
      | @ok a b _ _ hwalked =>
        cases hwalked with
        | same hsame _ hagrees =>
          subst hsame
          cases b with
          | completed => exact .answered (.ended rfl hagrees)
          | unwound => exact .answered (.ended hpq.label_eq hagrees)
        | halted _ ha hb hhalted =>
          subst ha hb
          exact .answered (.halted hhalted)

theorem runProtected_corresponds {ε : Type} (hstart : start.Exchanges x)
    {tryBlock tryOther catchBlock catchOther : Option Pipeline}
    (htry : Option.Rel (Block.Exchanged x) tryBlock tryOther)
    (hcatch : Option.Rel (Block.Exchanged x) catchBlock catchOther) (config : CatchConfig) :
    (runProtected (Walk.runPipeline start) tryBlock catchBlock config : Run ε _).Corresponds x
      scopes (Session.Agrees x scopes) (BlocksAlike x scopes)
      (runProtected (Walk.runPipeline start) tryOther catchOther config) := by
  have catches := nested_covers.catching config trivial
  have handles {p q : Pipeline} (hpq : Block.Exchanged x p q) (failure : ValveFailure) :
      (Run.update (catching config failure) >>= fun _ =>
        runBlock (Walk.runPipeline start) p : Run ε _).Corresponds x scopes
        (Session.Agrees x scopes) (BlocksAlike x scopes)
        (Run.update (catching config failure) >>= fun _ =>
          runBlock (Walk.runPipeline start) q) :=
    (Run.Corresponds.update (catches failure) (catches failure) fun _ _ h =>
      (Session.Agrees.lasting x scopes).catching h config failure).next
        (runBlock_corresponds hstart hpq)
  cases htry with
  | none => exact .pure fun _ _ h => .ended rfl h
  | some hblock =>
    cases hcatch with
    | none =>
      refine (runBlock_corresponds hstart hblock).bind (fun ending => ?_) (fun ending => ?_) ?_
      · cases ending <;> exact nested_covers.pure _
      · cases ending <;> exact nested_covers.pure _
      · intro ending ending' s t h
        cases h with
        | failed hagrees => exact .answered (.failed hagrees)
        | ended hlabel hagrees => exact .answered (.ended hlabel hagrees)
        | halted hhalted => exact .answered (.halted hhalted)
    | some hhandler =>
      refine (runBlock_corresponds hstart hblock).bind (fun ending => ?_) (fun ending => ?_) ?_
      · cases ending with
        | error failure => exact (handles hhandler failure).keeps
        | ok origin => exact nested_covers.pure _
      · cases ending with
        | error failure => exact (handles hhandler failure).keeps'
        | ok origin => exact nested_covers.pure _
      · intro ending ending' s t h
        cases h with
        | failed hagrees => exact (handles hhandler _).ends hagrees
        | ended hlabel hagrees => exact .answered (.ended hlabel hagrees)
        | halted hhalted => exact .answered (.halted hhalted)

/-- The same waits in both runs; but where the first run was halted in a block, a break through no scope
waits in the second. -/
inductive AwaitAlike (x : Exchange) : Except ValveFailure (Option Pipeline) →
    Except ValveFailure (Option Pipeline) → Option Signal → Option Signal → Prop
  | failed {e : ValveFailure} {waiting : Option Signal} :
    AwaitAlike x (.error e) (.error e) waiting waiting
  | ended {a b : Option Pipeline} {waiting : Option Signal} :
    b.bind (·.label) = a.bind (·.label) → AwaitAlike x (.ok a) (.ok b) waiting waiting
  | halted {q : Pipeline} {v w : Valve} : x.halts v w →
    AwaitAlike x (.ok none) (.ok (some q)) none (some (.level 0))

theorem BlocksAlike.await {ending ending' : Except ValveFailure (Option Pipeline)} {s t : Session}
    (h : BlocksAlike x scopes ending ending' s t) :
    s.dropBreak.Agrees x scopes t.dropBreak ∧ AwaitAlike x ending ending' s.pending t.pending := by
  cases h with
  | failed hagrees =>
    rw [hagrees.pending]
    exact ⟨hagrees.agree none, .failed⟩
  | ended hlabel hagrees =>
    rw [hagrees.pending]
    exact ⟨hagrees.agree none, .ended hlabel⟩
  | halted hhalted =>
    obtain ⟨v, w, hvw⟩ := hhalted.exists_halts
    rw [hhalted.idle, hhalted.broken]
    exact ⟨hhalted.agree none, .halted hvw⟩

theorem conclude_corresponds (hx : x.Breaks) (hstart : start.Exchanges x)
    {ending ending' : Except ValveFailure (Option Pipeline)} {a b : Option Signal}
    (h : AwaitAlike x ending ending' a b) {s t : Session}
    (hagrees : s.Agrees x scopes t) (hs : s.pending = none) :
    ((conclude start ending a).run s).Corresponds x scopes (fun _ _ => Session.Tallies x scopes)
      ((conclude start ending' b).run t) := by
  cases h with
  | failed => exact .raised hagrees
  | ended hlabel =>
    cases a with
    | none => exact (Walk.proceed_corresponds hstart).ends hagrees
    | some signal =>
      simp only [conclude, hlabel]
      exact (Walk.settle_resume_corresponds hstart _).ends (hagrees.agree (some signal))
  | @halted q v w hvw =>
    exact Walk.absorbed_corresponds (t := { t with pending := some (.level 0) }) (hx hvw) hstart
      { hagrees with } hs rfl q.label

/-- A last block in which the first run was halted leaves what waits alone. In the second run it leaves a
break, which takes the place of what waits. -/
theorem conclude_of_halted (hx : x.Lawful) (hstart : start.Exchanges x)
    {ending ending' : Except ValveFailure (Option Pipeline)} {a b : Option Signal}
    (h : AwaitAlike x ending ending' a b) {p : Pipeline} {s t : Session}
    (hhalted : s.HaltedIn x scopes p t)
    (hover : (∀ origin, ending = .ok origin → a.isSome = true) →
      Trail.Supersedes x.halts s.trail t.trail) (label : Option String) :
    ((conclude start ending a).run s).Corresponds x scopes (fun _ _ => Session.Tallies x scopes)
      ((Walk.settle label >>= Walk.resumeAfter start).run t) := by
  obtain ⟨v, w, hvw⟩ := hhalted.exists_halts
  have goesOn := Walk.absorbed_corresponds (hx.breaks hvw) hstart hhalted.toCorresponds hhalted.idle
    hhalted.broken label
  have strays (hwaits : ∀ origin, ending = .ok origin → a.isSome = true) :
      ((conclude start ending a).run s).Corresponds x scopes
        (fun _ _ => Session.Tallies x scopes)
        ((Walk.settle label >>= Walk.resumeAfter start).run t) :=
    .of_strayed (hx.overruled (hover hwaits)) (conclude_keepsTo nested_covers hstart.keeps ending a)
      (Walk.settle_resume_keepsTo nested_covers hstart.keeps label)
  cases h with
  | failed => exact strays nofun
  | ended _ =>
    cases a with
    | none => exact goesOn
    | some signal => exact strays fun _ _ => rfl
  | halted _ => exact goesOn

/-- A halt in the last block leaves what waits for that block; the break takes its place. -/
theorem supersedes_of_told (hstart : ∀ v, (start v).KeepsTo .nested)
    {tryBlock catchBlock : Option Pipeline} {block : Pipeline} {config : CatchConfig}
    {ending : Except ValveFailure (Option Pipeline)} {s u : Session}
    (htold : Told tryBlock catchBlock ending s)
    (hhost : s.valve? = some (.guarded tryBlock catchBlock (some block) config)) {ended : WalkEnd}
    (hwalked : (Walk.runPipeline start block).run s.dropBreak = .answered ended u) {b : List Moment}
    (hplace : ∃ a r, u.trail = a ++ [r] ∧ Trail.HaltedAt x.halts a b block u.frames)
    (hwaits : ∀ origin, ending = .ok origin → s.pending.isSome = true) :
    Trail.Supersedes x.halts u.trail b := by
  obtain ⟨ends, ⟨hended, earlier, last, htrail, -, hlast⟩, hover, hwaiting⟩ := htold
  obtain ⟨r, hr, hwaiting⟩ := hwaiting hwaits
  obtain ⟨hframes, inside, r', hinside, hdeep⟩ := Walk.runPipeline_inside hstart hwalked
  replace hframes : u.frames = s.frames := hframes
  obtain ⟨a, leave, ha, hplace⟩ := hplace
  have hsplit : a = earlier ++ [last] ++ inside := by
    rw [hinside, show s.dropBreak.trail = s.trail from rfl, htrail, ← List.append_assoc] at ha
    exact (List.append_inj' ha rfl).1.symm
  rw [hsplit, hframes] at hplace
  obtain ⟨sofar, enter, later, before, n, after, f, hsofar, rfl, hstands, henter, rfl, hsame⟩ :=
    hplace.inside (congrArg List.length hlast) hdeep
  rw [← htrail, hended] at hsame
  refine ⟨sofar, enter, later ++ [leave], before, n, after, ?_, rfl, hstands, .inr
    ⟨f, s.frames, tryBlock, catchBlock, f.pipeline, config, r, henter, hhost, ?_, ?_, hwaiting⟩⟩
  · rw [ha, hsplit, hsofar, List.append_assoc, List.cons_append]
  · rw [hsame]
    exact .last hover rfl
  · rw [hsame, hr]

def finish (start : Starter) (finallyBlock : Option Pipeline)
    (ending : Except ValveFailure (Option Pipeline)) : Run ValveFailure Unit := do
  let waiting ← Run.act fun s => (s.pending, s.dropBreak)
  match finallyBlock with
  | none => conclude start ending waiting
  | some block =>
    match ← Walk.runPipeline start block with
    | .unwound => Walk.resumeAfter start (← Walk.settle block.label)
    | .completed => conclude start ending waiting

theorem run_eq_finish (start : Starter) (tryBlock catchBlock finallyBlock : Option Pipeline)
    (config : CatchConfig) : run start tryBlock catchBlock finallyBlock config =
      runProtected (Walk.runPipeline start) tryBlock catchBlock config >>=
        finish start finallyBlock :=
  rfl

theorem afterLast_keepsTo {c : Conduct} (hc : c.Covers) (hstart : ∀ v, (start v).KeepsTo c)
    (block : Pipeline) (ending : Except ValveFailure (Option Pipeline)) (waiting : Option Signal)
    (ended : WalkEnd) :
    (match ended with
      | .unwound => Walk.settle block.label >>= Walk.resumeAfter start
      | .completed => conclude start ending waiting : Run ValveFailure Unit).KeepsTo c := by
  cases ended with
  | completed => exact conclude_keepsTo hc hstart ending waiting
  | unwound => exact Walk.settle_resume_keepsTo hc hstart block.label

theorem finish_keepsTo {c : Conduct} (hc : c.Covers) (hstart : ∀ v, (start v).KeepsTo c)
    (finallyBlock : Option Pipeline) (ending : Except ValveFailure (Option Pipeline)) :
    (finish start finallyBlock ending).KeepsTo c := by
  refine hc.bind (Conduct.Continues.act fun s => hc.change (.pend none)) fun waiting => ?_
  cases finallyBlock with
  | none => exact conclude_keepsTo hc hstart ending waiting
  | some block =>
    exact hc.bind (Walk.runPipeline_keepsTo hc hstart block)
      (afterLast_keepsTo hc hstart block ending waiting)

/-- After blocks that have ended alike guarded valves finish alike. The first session tells of what waits
for the last block. -/
theorem finish_corresponds (hx : x.Lawful) (hstart : start.Exchanges x)
    {finallyBlock finallyOther : Option Pipeline}
    (hfinally : Option.Rel (Block.Exchanged x) finallyBlock finallyOther)
    {ending ending' : Except ValveFailure (Option Pipeline)} {s t : Session}
    (h : BlocksAlike x scopes ending ending' s t) {tryBlock catchBlock : Option Pipeline}
    {config : CatchConfig} (htold : Told tryBlock catchBlock ending s)
    (hhost : s.valve? = some (.guarded tryBlock catchBlock finallyBlock config)) :
    ((finish start finallyBlock ending).run s).Corresponds x scopes
      (fun _ _ => Session.Tallies x scopes) ((finish start finallyOther ending').run t) := by
  obtain ⟨hdropped, hawait⟩ := h.await
  cases hfinally with
  | none => exact conclude_corresponds hx.breaks hstart hawait hdropped rfl
  | @some last lastOther hblock =>
    cases hblock with
    | intro hlast =>
      have walked := (Walk.runPipeline_corresponds hstart hlast).ends hdropped
      have ended := walked.ensuring_first fun ended u
        (h : (Walk.runPipeline start last).run s.dropBreak = .answered ended u) => h
      refine Ending.Corresponds.bind (s := s.dropBreak) (t := t.dropBreak) ended
        (afterLast_keepsTo nested_covers hstart.keeps last ending _)
        (afterLast_keepsTo nested_covers hstart.keeps lastOther ending' _) ?_
      rintro a b u v ⟨hwalked, hrun⟩
      cases hwalked with
      | same hsame hidle hagrees =>
        subst hsame
        cases b with
        | completed => exact conclude_corresponds hx.breaks hstart hawait hagrees (hidle rfl)
        | unwound =>
          rw [hlast.label_eq]
          exact (Walk.settle_resume_corresponds hstart last.label).ends hagrees
      | halted _ ha hb hhalted =>
        subst ha hb
        exact conclude_of_halted hx hstart hawait hhalted
          (supersedes_of_told hstart.keeps htold hhost hrun hhalted.place) lastOther.label

theorem run_corresponds (hx : x.Lawful) (hstart : start.Exchanges x)
    {tryBlock tryOther catchBlock catchOther finallyBlock finallyOther : Option Pipeline}
    (htry : Option.Rel (Block.Exchanged x) tryBlock tryOther)
    (hcatch : Option.Rel (Block.Exchanged x) catchBlock catchOther)
    (hfinally : Option.Rel (Block.Exchanged x) finallyBlock finallyOther) (config : CatchConfig)
    {s t : Session} (h : s.Agrees x scopes t) (hs : s.pending = none)
    (hbegins : s.Begins (.guarded tryBlock catchBlock finallyBlock config)) :
    ((run start tryBlock catchBlock finallyBlock config).run s).Corresponds x scopes
      (fun _ _ => Session.Tallies x scopes)
      ((run start tryOther catchOther finallyOther config).run t) := by
  have hprotected : (runProtected (Walk.runPipeline start) tryBlock catchBlock config :
      Run ValveFailure _).Corresponds x scopes (Session.Agrees x scopes) (BlocksAlike x scopes)
      (runProtected (Walk.runPipeline start) tryOther catchOther config) :=
    runProtected_corresponds hstart htry hcatch config
  have tried := (hprotected.ends h).ensuring_first fun ending u hu =>
    And.intro (runProtected_told hstart.keeps tryBlock catchBlock config hbegins.atTurn hs hu)
      ((hprotected.keeps.answered hu).1.valve?_eq.trans hbegins.running)
  rw [run_eq_finish, run_eq_finish]
  refine tried.bind (finish_keepsTo nested_covers hstart.keeps finallyBlock)
    (finish_keepsTo nested_covers hstart.keeps finallyOther) ?_
  rintro ending ending' u v ⟨htried, htold, hvalve⟩
  exact finish_corresponds hx hstart hfinally htried htold hvalve

end Guarded

namespace Walk

def report {ε : Type} (name : String) (ended : Except ValveFailure WalkEnd) :
    Run ε (Except RunFailure Outcome) := do
  match ended with
  | .ok .completed =>
    Run.update (·.emit "invocation.completed" (.ofFields []))
    return .ok .completed
  | .ok .unwound =>
    let outcome : Outcome :=
      match ← Run.read (·.pending) with
      | some signal => .unwound signal
      | none => .completed
    Run.update fun s =>
      (s.log .debug "Invocation unwound" [("outcome", .string outcome.display)]).emit
        "invocation.unwound"
        (.ofFields [("signal", (outcome.signal?.map Signal.toJson).getD .null)])
    return .ok outcome
  | .error failure =>
    Run.update fun s =>
      (s.log .error "Invocation failed" [("error", .string failure.message)]).emit
        "invocation.failed" (.ofFields [("error", failure.toJson)])
    return .error (.uncaught name failure)

theorem report_corresponds {ε : Type} (name : String) (ended : Except ValveFailure WalkEnd) :
    (report name ended : Run ε _).Corresponds x scopes (Session.Agrees x scopes) (Same x scopes)
      (report name ended) := by
  have logged (severity : Severity) (message : String) (fields : List (String × Json))
      (type : String) (data : Json) :
      (Run.update fun s => (s.log severity message fields).emit type data :
        Run ε Unit).Corresponds x scopes (Session.Agrees x scopes)
        (fun _ _ => Session.Agrees x scopes)
        (Run.update fun s => (s.log severity message fields).emit type data) := by
    have keeps (s : Session) :
        Conduct.nested.done s ((s.log severity message fields).emit type data) :=
      nested_covers.trans (nested_covers.log s ..) (nested_covers.emit _ type data)
    refine .update keeps keeps fun s t h => ?_
    exact Session.Agrees.emit (s := s.log severity message fields)
      ⟨h.log severity message rfl, h.pending⟩ type data
  cases ended with
  | error failure => exact (logged ..).next (.pure fun _ _ h => ⟨rfl, h⟩)
  | ok ended =>
    cases ended with
    | completed => exact (emit_corresponds ..).next (.pure fun _ _ h => ⟨rfl, h⟩)
    | unwound =>
      refine (read_corresponds fun s t h => h.pending).bind_same fun pending => ?_
      exact (logged ..).next (.pure fun _ _ h => ⟨rfl, h⟩)

theorem run_invoke {ε : Type} (walk : Walker) {s : Session} (h : s.invoked = false) :
    (invoke walk : Run ε _).run s =
      (Run.attempt (walk s.pipeline) >>= report s.pipeline.displayName).run (launched s) := by
  simp only [invoke, Run.run_bind, Run.run_read, id_eq, h, Bool.false_eq_true, if_false,
    Run.run_update]
  rfl

theorem invoke_corresponds {ε : Type} (hstart : start.Exchanges x) :
    (invoke (runPipeline start) : Run ε _).Corresponds x scopes (Session.Agrees x scopes)
      (Same x scopes) (invoke (runPipeline start)) := by
  have hkeeps := invoke_keepsTo (ε := ε) nested_covers.toContinues
    (runPipeline_keepsTo nested_covers hstart.keeps)
  refine ⟨hkeeps, hkeeps, fun {s t} h => ?_⟩
  cases hinvoked : s.invoked with
  | true =>
    have ht : t.invoked = true := h.invoked.trans hinvoked
    simp only [invoke, Run.run_bind, Run.run_read, id_eq, hinvoked, ht, if_true, h.identity]
    exact .answered ⟨rfl, h⟩
  | false =>
    have launched : (launched s).Agrees x scopes (launched t) :=
      Session.Agrees.emit ⟨h.invoke, h.pending⟩ _ _
    have walked : (runPipeline start s.pipeline).Corresponds x scopes (Session.Agrees x scopes)
        (Same x scopes) (runPipeline start t.pipeline) := runPipeline_same hstart h.pipeline
    rw [run_invoke _ hinvoked, run_invoke _ (h.invoked.trans hinvoked), h.displayName_eq]
    exact (walked.attempt_same.bind_same (report_corresponds _)).ends launched

end Walk

namespace Call

theorem perform_corresponds (hx : x.Breaks) (hstart : start.Exchanges x) {made : Call}
    (hscope : made.proceeds = true → scopes.head? ≠ some true) :
    (made.perform start).Corresponds x scopes (Session.Agrees x scopes) (Same x scopes)
      (made.perform start) := by
  have hkeeps := perform_keepsTo nested_covers hstart.keeps made
  have acts {f : Session → Reply × Session} (hf : ∀ s, Conduct.nested.done s (f s).2)
      (h : ∀ s t, s.Agrees x scopes t → Same x scopes (f s).1 (f t).1 (f s).2 (f t).2) :
      (Run.act f : Run Raised Reply).Corresponds x scopes (Session.Agrees x scopes)
        (Same x scopes) (Run.act f) :=
    .act hf hf h
  have tells {f : Session → Json} (h : ∀ s t, s.Agrees x scopes t → f t = f s) :
      (telling f : Run Raised Reply).Corresponds x scopes (Session.Agrees x scopes)
        (Same x scopes) (telling f) :=
    read_corresponds fun s t hagrees => congrArg Reply.answer (h s t hagrees)
  have requests (signal : Signal) :
      (requesting signal : Run Raised Reply).Corresponds x scopes (Session.Agrees x scopes)
        (Same x scopes) (requesting signal) := by
    refine acts (fun s => nested_covers.request s signal) fun s t h => ?_
    have requested := h.toCorresponds.requestBreak signal
    exact ⟨congrArg (fun pending => Reply.answer (signalJson pending)) requested.pending, requested⟩
  have answers {α : Type} {y z : Run ValveFailure α} (f : α → Json)
      (h : y.Corresponds x scopes (Session.Agrees x scopes) (Same x scopes) z) :
      (y.raising Raised.valve >>= fun a => return Reply.answer (f a)).Corresponds x scopes
        (Session.Agrees x scopes) (Same x scopes)
        (z.raising Raised.valve >>= fun a => return Reply.answer (f a)) :=
    (h.raising _).bind_same fun _ => .pure fun _ _ h => ⟨rfl, h⟩
  have agree {y z : Run ValveFailure Unit} (hnot : scopes.head? ≠ some true)
      (h : y.Corresponds x scopes (Session.Agrees x scopes)
        (fun _ _ => Session.Tallies x scopes) z) :
      y.Corresponds x scopes (Session.Agrees x scopes) (Same x scopes) z :=
    h.mono (fun _ _ => id) fun _ _ _ _ htallies => ⟨rfl, htallies.agrees hnot⟩
  cases made with
  | set key value =>
    refine acts (fun s => nested_covers.change (.set key value)) fun s t h => ?_
    exact ⟨by rw [h.attributes], h.setAttribute key value, h.pending⟩
  | remove key =>
    refine acts (fun s => nested_covers.change (.remove key)) fun s t h => ?_
    exact ⟨by rw [h.attributes], h.removeAttribute key, h.pending⟩
  | get key => exact tells fun _ _ h => by rw [h.attributes]
  | incr key amount =>
    refine acts (fun s => nested_covers.change (.set key _)) fun s t h => ?_
    rw [h.attributes]
    exact ⟨rfl, h.setAttribute key _, h.pending⟩
  | keys => exact tells fun _ _ h => by rw [h.attributes]
  | breakLevels count => exact requests (.level count)
  | breakToLabel label => exact requests (.toLabel label)
  | exit => exact requests .exit
  | request signal => exact requests signal
  | takeBreak =>
    refine acts (fun s => nested_covers.change (.pend none)) fun s t h => ?_
    exact ⟨by rw [h.pending], h.agree none⟩
  | pending => exact tells fun _ _ h => by rw [h.pending]
  | isBroken => exact tells fun _ _ h => by rw [h.pending]
  | isInvoked => exact tells fun _ _ h => by rw [h.invoked]
  | depth => exact tells fun _ _ h => by rw [h.depth_eq]
  | index => exact tells fun _ _ h => by rw [h.index_eq]
  | name => exact tells fun _ _ h => by rw [h.displayName_eq]
  | findLabel label => exact tells fun _ _ h => by rw [h.findLabel_eq]
  | eval condition =>
    refine acts (fun s => nested_covers.ask s condition) fun s t h => ?_
    obtain ⟨hanswer, hasked⟩ := h.ask condition
    exact ⟨congrArg (fun answer => Reply.answer (.bool answer)) hanswer, hasked⟩
  | render message => exact tells fun _ _ h => by rw [h.attributes]
  | emit type data =>
    exact acts (fun s => nested_covers.emit s type data) fun s t h => ⟨rfl, h.emit type data⟩
  | settle label =>
    exact (Walk.settle_corresponds label).bind_same fun _ => .pure fun _ _ h => ⟨rfl, h⟩
  | proceed => exact answers (fun _ => done) (agree (hscope rfl) (Walk.proceed_corresponds hstart))
  | tryProceed =>
    have proceeded := agree (hscope rfl) (Walk.proceed_corresponds hstart)
    refine (proceeded.attempt_same (δ := Raised)).bind_same fun ended => ?_
    cases ended <;> exact .pure fun _ _ h => ⟨rfl, h⟩
  | resume settlement =>
    have resumed : (Walk.resumeAfter start settlement).Corresponds x scopes
        (Session.Agrees x scopes) (Same x scopes) (Walk.resumeAfter start settlement) := by
      cases hgoesOn : settlement.goesOn with
      | true => exact agree (hscope hgoesOn) (Walk.resumeAfter_corresponds hstart rfl)
      | false =>
        rw [Walk.resumeAfter, if_neg (by simp [hgoesOn])]
        exact .pure fun _ _ h => ⟨rfl, h⟩
    exact answers (fun _ => done) resumed
  | runPipeline p => exact answers WalkEnd.toJson (Walk.runPipeline_same hstart (p.exchanged_self x))
  | runBoundary p =>
    exact answers Settlement.toJson (Walk.runBoundary_same hx hstart (p.exchanged_self x))
  | finish flow => exact .pure fun _ _ h => ⟨rfl, h⟩
  | raise raised => exact .raise raised fun _ _ => id
  | invoke =>
    exact (Walk.invoke_corresponds hstart).bind_same fun _ => .pure fun _ _ h => ⟨rfl, h⟩

end Call

namespace Script

theorem follow_corresponds (hx : x.Breaks) (hstart : start.Exchanges x)
    (hscope : scopes.head? ≠ some true) (script : Script) :
    (script.follow start).Corresponds x scopes (Session.Agrees x scopes) (Same x scopes)
      (script.follow start) := by
  cases script with
  | finish flow => exact .pure fun _ _ h => ⟨rfl, h⟩
  | raise raised => exact .raise raised fun _ _ => id
  | note entry rest =>
    exact (note_corresponds fun _ _ _ => rfl).next (follow_corresponds hx hstart hscope rest)
  | call made next =>
    have performed : (made.perform start).Corresponds x scopes (Session.Agrees x scopes)
        (Same x scopes) (made.perform start) := Call.perform_corresponds hx hstart fun _ => hscope
    refine call_corresponds.next ?_
    exact (performed.attempt_same (δ := Raised)).bind_same fun reply =>
      follow_corresponds hx hstart hscope (next reply)

theorem run_corresponds (hx : x.Breaks) (hstart : start.Exchanges x)
    (hscope : scopes.head? ≠ some true) (name : String) (script : Script) :
    (Script.run start name script).Corresponds x scopes (Session.Agrees x scopes)
      (fun _ _ => Session.Tallies x scopes) (Script.run start name script) := by
  refine ((follow_corresponds hx hstart hscope script).raising _).bind_same fun flow => ?_
  cases flow with
  | goOn => exact Walk.proceed_corresponds hstart
  | halt => exact .pure fun _ _ h => h.tallies

end Script

/-- The valves that stand for each other keep the sessions together, if the runs of all valves with the
same allowance of steps do. -/
structure Exchange.Holds (x : Exchange) (steps : Nat) : Prop where
  swapped {scopes : List Bool} {v w : Valve} {s t : Session} : x.swaps v w →
    Starter.Exchanges x (Valve.run steps) → s.Starting x scopes v w t →
    ((v.work (Valve.run steps) steps).run s).Corresponds x scopes
      (fun _ _ => Session.Tallies x scopes) ((w.work (Valve.run steps) steps).run t)
  halted {scopes : List Bool} {v w : Valve} {s t : Session} : x.halts v w →
    scopes.head? = some true → Starter.Exchanges x (Valve.run steps) → s.Starting x scopes v w t →
    ((v.work (Valve.run steps) steps).run s).Corresponds x scopes
      (fun _ _ => Session.Tallies x scopes) ((w.work (Valve.run steps) steps).run t)

namespace Valve

theorem request_corresponds {ε : Type} (signal : Signal) :
    (Run.update (·.requestBreak signal) : Run ε Unit).Corresponds x scopes
      (Session.Agrees x scopes) (fun _ _ => Session.Tallies x scopes)
      (Run.update (·.requestBreak signal)) :=
  .update (fun s => nested_covers.request s signal) (fun s => nested_covers.request s signal)
    fun _ _ h => .inl (h.toCorresponds.requestBreak signal)

theorem breakWhen_corresponds (hstart : start.Exchanges x) (wanted : Bool) (signal : Signal) :
    (breakWhen start wanted signal).Corresponds x scopes (Session.Agrees x scopes)
      (fun _ _ => Session.Tallies x scopes) (breakWhen start wanted signal) := by
  cases wanted with
  | true => exact request_corresponds signal
  | false => exact Walk.proceed_corresponds hstart

theorem leaf_corresponds (hstart : start.Exchanges x) (steps : Nat) {v : Valve}
    (hv : v.isLeaf = true) :
    (v.work start steps).Corresponds x scopes (Session.Agrees x scopes)
      (fun _ _ => Session.Tallies x scopes) (v.work start steps) := by
  have goOn : (Walk.proceed start).Corresponds x scopes (Session.Agrees x scopes)
      (fun _ _ => Session.Tallies x scopes) (Walk.proceed start) := Walk.proceed_corresponds hstart
  cases v with
  | passThrough => exact goOn
  | setAttribute key value =>
    have keeps (s : Session) : Conduct.nested.done s (s.setAttribute key value) :=
      nested_covers.change (.set key value)
    refine (Run.Corresponds.update keeps keeps fun _ _ h => ?_).next goOn
    exact ⟨h.setAttribute key value, h.pending⟩
  | log severity message =>
    have keeps (s : Session) : Conduct.nested.done s
        (s.log severity (Template.render message s.attributes) [("depth", .nat s.depth)]) :=
      nested_covers.log s ..
    refine (Run.Corresponds.update keeps keeps fun _ _ h => ?_).next goOn
    rw [h.attributes, h.depth_eq]
    exact ⟨h.log severity _ rfl, h.pending⟩
  | record name counter =>
    exact (note_corresponds fun _ _ h => by rw [h.attributes]).next goOn
  | failing name message => exact .raise _ fun _ _ => id
  | breakWith signal => exact request_corresponds signal
  | exit => exact request_corresponds .exit
  | breakIf condition signal =>
    exact (ask_corresponds condition).bind_same fun answer =>
      breakWhen_corresponds hstart answer signal
  | breakUnless condition signal =>
    exact (ask_corresponds condition).bind_same fun answer =>
      breakWhen_corresponds hstart (!answer) signal
  | _ => cases hv

def runTaken (start : Starter) : Option Pipeline → Run ValveFailure Unit
  | some block => Walk.runBlock start block
  | none => Walk.proceed start

theorem runTaken_keepsTo {c : Conduct} (hc : c.Covers) (hstart : ∀ v, (start v).KeepsTo c)
    (chosen : Option Pipeline) : (runTaken start chosen).KeepsTo c := by
  cases chosen with
  | none => exact Walk.proceed_keepsTo hc hstart
  | some block => exact Walk.runBlock_keepsTo hc hstart block

theorem work_choose_eq (start : Starter) (steps : Nat) (branches : List Branch)
    (otherwise : Option Pipeline) : (Valve.choose branches otherwise).work start steps =
      work.select branches otherwise >>= runTaken start :=
  rfl

theorem select_corresponds {bs cs : List Branch} {last other : Option Pipeline}
    (hbranches : List.Forall₂ (Branch.Exchanged x) bs cs)
    (hlast : Option.Rel (Block.Exchanged x) last other) :
    (work.select bs last).Corresponds x scopes (Session.Agrees x scopes)
      (fun a b s t => Option.Rel (Block.Exchanged x) a b ∧ s.Agrees x scopes t)
      (work.select cs other) := by
  induction hbranches with
  | nil => exact .pure fun _ _ h => ⟨hlast, h⟩
  | cons hbranch _ ih =>
    cases hbranch with
    | intro hblock =>
      refine (ask_corresponds _).bind_same fun answer => ?_
      cases answer with
      | true => exact .pure fun _ _ h => ⟨.some hblock, h⟩
      | false => exact ih

theorem choose_corresponds (hx : x.Breaks) (hstart : start.Exchanges x) {bs cs : List Branch}
    {last other : Option Pipeline} (hbranches : List.Forall₂ (Branch.Exchanged x) bs cs)
    (hlast : Option.Rel (Block.Exchanged x) last other) (steps : Nat) :
    ((Valve.choose bs last).work start steps).Corresponds x scopes (Session.Agrees x scopes)
      (fun _ _ => Session.Tallies x scopes) ((Valve.choose cs other).work start steps) := by
  have taken := runTaken_keepsTo nested_covers hstart.keeps
  rw [work_choose_eq, work_choose_eq]
  refine (select_corresponds hbranches hlast).bind taken taken ?_
  rintro _ _ s t ⟨hblocks, h⟩
  cases hblocks with
  | none => exact (Walk.proceed_corresponds hstart).ends h
  | some hblock => exact (Walk.runBlock_corresponds hx hstart hblock).ends h

theorem work_corresponds (hx : x.Lawful) {steps : Nat} (hholds : x.Holds steps)
    (hstart : Starter.Exchanges x (run steps)) {halting : Bool} {v w : Valve}
    (hvw : v.Exchanged x halting w) {s t : Session}
    (h : s.Starting x (halting :: scopes) v w t) :
    ((v.work (run steps) steps).run s).Corresponds x (halting :: scopes)
      (fun _ _ => Session.Tallies x (halting :: scopes)) ((w.work (run steps) steps).run t) := by
  have hbreaks : x.Breaks := hx.breaks
  cases hvw with
  | leaf hleaf => exact (leaf_corresponds hstart steps hleaf).ends h.toAgrees
  | scripted => exact (Script.run_corresponds hbreaks hstart (by simp) _ _).ends h.toAgrees
  | swap hswap => exact hholds.swapped hswap hstart h
  | halt hhalt => exact hholds.halted hhalt rfl hstart h
  | loop hpq =>
    exact (Loop.iterate_corresponds hbreaks hstart hpq none _ steps 0).ends h.toAgrees
  | whileLoop hpq =>
    exact (Loop.iterate_corresponds hbreaks hstart hpq (some _) _ steps 0).ends h.toAgrees
  | ifThen hpq =>
    refine ((ask_corresponds _).bind_same fun answer => ?_).ends h.toAgrees
    cases answer with
    | true => exact Walk.runBlock_corresponds hbreaks hstart hpq
    | false => exact Walk.proceed_corresponds hstart
  | choose hbranches hlast =>
    exact (choose_corresponds hbreaks hstart hbranches hlast steps).ends h.toAgrees
  | sub hpq => exact (Walk.runBlock_corresponds hbreaks hstart hpq).ends h.toAgrees
  | guarded htry hcatch hfinally =>
    exact Guarded.run_corresponds hx hstart htry hcatch hfinally _ h.toAgrees h.idle h.first

theorem run_exchanges (hx : x.Lawful) (hholds : ∀ steps, x.Holds steps) (steps : Nat) :
    Starter.Exchanges x (run steps) := by
  induction steps with
  | zero =>
    exact ⟨fun _ => nested_covers.outOfSteps, fun _ =>
      ⟨nested_covers.outOfSteps, nested_covers.outOfSteps, fun h => .exhausted h.toCorresponds⟩⟩
  | succ steps ih =>
    have keeps := run_keepsTo nested_covers (steps + 1)
    exact ⟨keeps, fun {_ _ v w} hvw =>
      ⟨keeps v, keeps w, fun h => work_corresponds hx (hholds steps) ih hvw h⟩⟩

end Valve

/-- Runs of two pipelines in which valves are exchanged have the same result and leave sessions that agree,
unless they stray or are both cut off. -/
theorem Session.invoke_corresponds (hx : x.Lawful) (hholds : ∀ steps, x.Holds steps) {s t : Session}
    (h : s.Agrees x scopes t) (steps : Nat) :
    (s.invoke steps).Corresponds x scopes (Same x scopes) (t.invoke steps) :=
  (Walk.invoke_corresponds (Valve.run_exchanges hx hholds steps)).ends h

end ValvePipeline
