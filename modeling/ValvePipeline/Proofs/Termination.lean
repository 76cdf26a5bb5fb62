import ValvePipeline.Proofs.UnwindingLaw
import ValvePipeline.Proofs.WalkDiscipline

/-!
Bounded pipelines terminate. Where every loop has a bound, also in the pipelines that scripts walk, some
allowance of steps is enough for every call from outside, and no greater one changes how it ends: whatever
the conditions answer, whatever is done to the counters, and however often scripts call for the rest of
their pipelines or for a whole run.

What makes a run end is three things at once: the blocks of a valve are smaller than the valve, each walk
starts its valves once, and the run of a session is made once.
-/

set_option autoImplicit false
set_option relaxedAutoImplicit false

namespace ValvePipeline

def Valve.loopConfig? : Valve → Option LoopConfig
  | .loop _ config => some config
  | .whileLoop _ _ config => some config
  | _ => none

mutual

/-- Every loop in the pipeline, however deep, has a bound. -/
inductive Pipeline.Bounded : Pipeline → Prop
  | intro {p : Pipeline} : (∀ v ∈ p.valves, Valve.Bounded v) → Pipeline.Bounded p

inductive Valve.Bounded : Valve → Prop
  | builtIn {v : Valve} : (∀ name script, v ≠ .scripted name script) →
    (∀ config, v.loopConfig? = some config → config.isBounded = true) →
    (∀ p ∈ v.children, Pipeline.Bounded p) → Valve.Bounded v
  | scripted {name : String} {script : Script} : Script.Bounded script →
    Valve.Bounded (.scripted name script)

/-- Every pipeline that the script walks, whatever its calls give back, is bounded. -/
inductive Script.Bounded : Script → Prop
  | finish {flow : Flow} : Script.Bounded (.finish flow)
  | raise {raised : Raised} : Script.Bounded (.raise raised)
  | note {entry : String} {rest : Script} : Script.Bounded rest →
    Script.Bounded (.note entry rest)
  | call {made : Call} {next : Except Raised Reply → Script} :
    (∀ p ∈ made.pipelines, Pipeline.Bounded p) → (∀ reply, Script.Bounded (next reply)) →
    Script.Bounded (.call made next)

end

/-- With enough steps the computation ends, and always in the same way. -/
def Settles {ε α : Type} (x : Nat → Ending ε α) : Prop :=
  ∃ enough ending, (∀ t, ending ≠ .exhausted t) ∧ ∀ n, enough ≤ n → x n = ending

namespace Settles

variable {ε δ α β : Type}

theorem const {ending : Ending ε α} (h : ∀ t, ending ≠ .exhausted t) :
    Settles fun _ => ending :=
  ⟨0, ending, h, fun _ _ => rfl⟩

theorem answered (a : α) (s : Session) : Settles fun _ => (.answered a s : Ending ε α) :=
  const nofun

theorem raised (e : ε) (s : Session) : Settles fun _ => (.raised e s : Ending ε α) :=
  const nofun

theorem congr {x y : Nat → Ending ε α} (hy : Settles y) (h : ∀ n, x n = y n) : Settles x := by
  obtain ⟨enough, ending, hended, hsame⟩ := hy
  refine ⟨enough, ending, hended, fun n hn => ?_⟩
  rw [h n, hsame n hn]

theorem of_answered {x : Nat → Ending ε α} {a : α} {s : Session}
    (h : ∀ n, x n = .answered a s) : Settles x :=
  (answered a s).congr h

theorem of_later {x y : Nat → Ending ε α} (hy : Settles y) (start : Nat)
    (h : ∀ n, start ≤ n → x n = y n) : Settles x := by
  obtain ⟨enough, ending, hended, hsame⟩ := hy
  refine ⟨max start enough, ending, hended, fun n hn => ?_⟩
  have hstart : start ≤ n := Nat.le_trans (Nat.le_max_left start enough) hn
  have henough : enough ≤ n := Nat.le_trans (Nat.le_max_right start enough) hn
  rw [h n hstart, hsame n henough]

theorem of_succ {x : Nat → Ending ε α} (h : Settles fun n => x (n + 1)) : Settles x := by
  obtain ⟨enough, ending, hended, hsame⟩ := h
  refine ⟨enough + 1, ending, hended, fun n hn => ?_⟩
  obtain ⟨m, rfl⟩ : ∃ m, n = m + 1 := ⟨n - 1, by omega⟩
  exact hsame m (by omega)

theorem ends {x : Nat → Run ε α} {s : Session} (h : Settles fun n => (x n).run s) :
    ∃ enough, (∃ a t, ∀ n, enough ≤ n → (x n).run s = .answered a t) ∨
      ∃ e t, ∀ n, enough ≤ n → (x n).run s = .raised e t := by
  obtain ⟨enough, ending, hended, hsame⟩ := h
  refine ⟨enough, ?_⟩
  cases ending with
  | answered a t => exact .inl ⟨a, t, hsame⟩
  | raised e t => exact .inr ⟨e, t, hsame⟩
  | exhausted t => exact absurd rfl (hended t)

theorem bind_of {x : Nat → Run ε α} {f : Nat → α → Run ε β} {s : Session}
    (hx : Settles fun n => (x n).run s)
    (hf : ∀ n a t, (x n).run s = .answered a t → Settles fun n => (f n a).run t) :
    Settles fun n => (x n >>= f n).run s := by
  obtain ⟨enough, ⟨a, t, hsame⟩ | ⟨e, t, hsame⟩⟩ := hx.ends
  · have hanswered : (x enough).run s = .answered a t := hsame enough (Nat.le_refl enough)
    refine (hf enough a t hanswered).of_later enough fun n hn => ?_
    rw [Run.run_bind, hsame n hn]
  · refine (raised e t).of_later enough fun n hn => ?_
    rw [Run.run_bind, hsame n hn]

theorem bind {c : Conduct} {x : Nat → Run ε α} {f : Nat → α → Run ε β} {s : Session}
    (hx : Settles fun n => (x n).run s) (hkeeps : ∀ n, (x n).KeepsTo c)
    (hf : ∀ a t, c.done s t → Settles fun n => (f n a).run t) :
    Settles fun n => (x n >>= f n).run s := by
  refine hx.bind_of fun n a t hanswered => ?_
  exact hf a t ((hkeeps n).answered hanswered)

theorem answering {x : Nat → Run ε α} {s : Session} (hx : Settles fun n => (x n).run s)
    (f : α → β) : Settles fun n => (x n >>= fun a => pure (f a)).run s :=
  hx.bind_of fun _ a t _ => answered (f a) t

theorem attempt {x : Nat → Run ε α} {s : Session} (hx : Settles fun n => (x n).run s) :
    Settles fun n => (Run.attempt (x n) : Run δ (Except ε α)).run s := by
  obtain ⟨enough, ⟨a, t, hsame⟩ | ⟨e, t, hsame⟩⟩ := hx.ends
  · refine (answered (.ok a) t).of_later enough fun n hn => ?_
    rw [Run.run_attempt, hsame n hn]
  · refine (answered (.error e) t).of_later enough fun n hn => ?_
    rw [Run.run_attempt, hsame n hn]

theorem raising {x : Nat → Run ε α} {s : Session} (hx : Settles fun n => (x n).run s)
    (f : ε → δ) : Settles fun n => ((x n).raising f).run s := by
  obtain ⟨enough, ⟨a, t, hsame⟩ | ⟨e, t, hsame⟩⟩ := hx.ends
  · refine (answered a t).of_later enough fun n hn => ?_
    rw [Run.run_raising, hsame n hn]
  · refine (raised (f e) t).of_later enough fun n hn => ?_
    rw [Run.run_raising, hsame n hn]

theorem afterwards {x : Nat → Run ε α} {s : Session} (hx : Settles fun n => (x n).run s)
    (f : Option ε → Session → Session) : Settles fun n => ((x n).afterwards f).run s := by
  obtain ⟨enough, ⟨a, t, hsame⟩ | ⟨e, t, hsame⟩⟩ := hx.ends
  · refine (answered a (f none t)).of_later enough fun n hn => ?_
    rw [Run.run_afterwards, hsame n hn]
  · refine (raised e (f (some e) t)).of_later enough fun n hn => ?_
    rw [Run.run_afterwards, hsame n hn]

end Settles

structure Session.LastsIn (s t : Session) : Prop where
  walks : SameWalks s.frames t.frames
  pipeline : t.pipeline = s.pipeline
  invoked : s.invoked = true → t.invoked = true

def Conduct.ongoing : Conduct where
  done := Session.LastsIn
  cut _ _ := True

theorem Change.invoked_mono {s t : Session} (h : Change s t) (hs : s.invoked = true) :
    t.invoked = true := by
  cases h with
  | emit type data =>
    unfold Session.emit
    split <;> exact hs
  | invoke => rfl
  | _ => exact hs

theorem Conduct.ongoing_covers : ongoing.Covers where
  refl s := ⟨.refl s.frames, rfl, id⟩
  trans h h' :=
    ⟨h.walks.trans h'.walks, h'.pipeline.trans h.pipeline, fun hs => h'.invoked (h.invoked hs)⟩
  cut_refl _ := trivial
  cut_trans _ _ := trivial
  change h := ⟨.of_eq h.frames_eq, h.pipeline_eq, h.invoked_mono⟩
  walk p failure h := ⟨balanced_covers.walk p failure h.walks, h.pipeline, h.invoked⟩
  walk_cut _ _ := trivial
  valve failure hpending hframes hnew h :=
    ⟨balanced_covers.valve failure hpending hframes hnew h.walks, h.pipeline, h.invoked⟩
  valve_cut _ _ _ _ := trivial

/-- A class of sessions that what happens in a session does not lead out of, and in which the run that a
session may still make settles. -/
structure Session.Settling (C : Session → Prop) : Prop where
  closed {s t : Session} : C s → t.pipeline = s.pipeline →
    (s.invoked = true → t.invoked = true) → C t
  launched {s : Session} : C s → s.invoked = false →
    Settles fun n => (Walk.runPipeline (Valve.run n) s.pipeline).run (Walk.launched s)

/-- A session of the class in which the rest of the innermost walk settles, now and later. -/
structure Session.Rests (C : Session → Prop) (s : Session) : Prop where
  member : C s
  rest {t : Session} : s.LastsIn t →
    Settles fun n => (Walk.proceed (Valve.run n)).run t

def Pipeline.Settles (C : Session → Prop) (p : Pipeline) : Prop :=
  ∀ s, C s → ValvePipeline.Settles fun n => (Walk.runPipeline (Valve.run n) p).run s

def Valve.Settles (C : Session → Prop) (v : Valve) : Prop :=
  ∀ s, s.Rests C → ValvePipeline.Settles fun n => (Valve.run n v).run s

def Script.Settles (C : Session → Prop) (script : Script) : Prop :=
  ∀ s, s.Rests C → ValvePipeline.Settles fun n => (script.follow (Valve.run n)).run s

section Engine

open Conduct (ongoing_covers)

variable {C : Session → Prop} {s t : Session}

theorem Session.Settling.next (hC : Settling C) (hs : C s) (h : s.LastsIn t) : C t :=
  hC.closed hs h.pipeline h.invoked

theorem Session.Rests.next (hC : Settling C) (hs : s.Rests C) (h : s.LastsIn t) :
    t.Rests C where
  member := hC.next hs.member h
  rest h' := hs.rest (ongoing_covers.trans h h')

theorem Session.Rests.proceed (hs : s.Rests C) :
    Settles fun n => (Walk.proceed (Valve.run n)).run s :=
  hs.rest (ongoing_covers.refl s)

theorem Valve.run_ongoing (n : Nat) (v : Valve) : (Valve.run n v).KeepsTo .ongoing :=
  Valve.run_keepsTo ongoing_covers n v

theorem Walk.runPipeline_ongoing (n : Nat) (p : Pipeline) :
    (Walk.runPipeline (Valve.run n) p).KeepsTo .ongoing :=
  Walk.runPipeline_keepsTo ongoing_covers (Valve.run_ongoing n) p

theorem Walk.runBoundary_ongoing (p : Pipeline) (n : Nat) :
    (runBoundary (runPipeline (Valve.run n)) p).KeepsTo .ongoing :=
  runBoundary_keepsTo ongoing_covers.toAllows (runPipeline_ongoing n p)

namespace Walk

theorem runBoundary_settles {p : Pipeline} (hp : p.Settles C) (hs : C s) :
    Settles fun n => (runBoundary (runPipeline (Valve.run n)) p).run s := by
  refine (hp s hs).bind_of fun _ ended t _ => ?_
  exact .answered (t.settle p.label).1 (t.settle p.label).2

theorem resumeAfter_settles (hs : s.Rests C) (settlement : Settlement) :
    Settles fun n => (resumeAfter (Valve.run n) settlement).run s := by
  cases settlement with
  | completed => exact hs.proceed
  | absorbed => exact hs.proceed
  | propagated => exact .answered () s

theorem settle_resume_settles (hC : Session.Settling C) (hs : s.Rests C) (label : Option String) :
    Settles fun n => (settle label >>= resumeAfter (Valve.run n)).run s := by
  have hsettled : s.LastsIn (s.settle label).2 :=
    ongoing_covers.toContinues.settle s label
  exact resumeAfter_settles (hs.next hC hsettled) (s.settle label).1

theorem runBlock_settles (hC : Session.Settling C) {p : Pipeline} (hp : p.Settles C)
    (hs : s.Rests C) : Settles fun n => (runBlock (Valve.run n) p).run s := by
  refine (runBoundary_settles hp hs.member).bind (runBoundary_ongoing p) fun settlement t h => ?_
  exact resumeAfter_settles (hs.next hC h) settlement

theorem invoke_congr {ε : Type} {walk other : Walker}
    (h : (walk s.pipeline).run (launched s) = (other s.pipeline).run (launched s)) :
    (invoke walk : Run ε (Except RunFailure Outcome)).run s = (invoke other).run s := by
  cases hinvoked : s.invoked with
  | true => simp [invoke, hinvoked]
  | false =>
    unfold Walk.launched at h
    simp only [invoke, Run.run_bind, Run.run_read, id_eq, hinvoked, Bool.false_eq_true, if_false,
      Run.run_update, Run.run_attempt, h]

theorem invoke_ends {ε : Type} {ending : Ending ValveFailure WalkEnd}
    (h : ∀ t, ending ≠ .exhausted t) (t : Session) :
    (invoke fun _ => ⟨fun _ => ending⟩ : Run ε (Except RunFailure Outcome)).run s ≠
      .exhausted t := by
  cases hinvoked : s.invoked with
  | true => simp [invoke, hinvoked]
  | false =>
    simp only [invoke, Run.run_bind, Run.run_read, id_eq, hinvoked, Bool.false_eq_true, if_false,
      Run.run_update, Run.run_attempt]
    cases ending with
    | answered ended u => cases ended <;> nofun
    | raised failure u => nofun
    | exhausted u => exact absurd rfl (h u)

theorem invoke_settles {ε : Type} (hC : Session.Settling C) (hs : C s) :
    Settles fun n =>
      (invoke (runPipeline (Valve.run n)) : Run ε (Except RunFailure Outcome)).run s := by
  cases hinvoked : s.invoked with
  | true =>
    refine .of_answered (a := .error (.alreadyInvoked s.identity.invocation.display)) (s := s) ?_
    intro n
    simp [invoke, hinvoked]
  | false =>
    obtain ⟨enough, ending, hended, hsame⟩ := hC.launched hs hinvoked
    exact ⟨enough, _, invoke_ends hended, fun n hn => invoke_congr (hsame n hn)⟩

end Walk

theorem ask_settles {ε α : Type} {condition : Condition} {f : Nat → Bool → Run ε α}
    (hC : Session.Settling C) (hs : s.Rests C)
    (hf : ∀ answer t, t.Rests C → Settles fun n => (f n answer).run t) :
    Settles fun n => (Run.act (·.ask condition) >>= f n).run s := by
  have hasked : s.LastsIn (s.ask condition).2 := ongoing_covers.ask s condition
  exact hf (s.ask condition).1 (s.ask condition).2 (hs.next hC hasked)

theorem Loop.asks_settle {ε α : Type} {condition : Option Condition} {f : Nat → Bool → Run ε α}
    (hC : Session.Settling C) (hs : s.Rests C)
    (hf : ∀ more t, t.Rests C → Settles fun n => (f n more).run t) :
    Settles fun n => (asksForMore condition >>= f n).run s := by
  cases condition with
  | none => exact hf true s hs
  | some condition => exact ask_settles hC hs hf

theorem Loop.lt_bound {config : LoopConfig} {count : Nat} (hbound : config.isBounded = true)
    (h : isSpent config count = false) : (count : Int) < config.bound := by
  have hnot : ¬ config.bound ≤ count := by simpa [isSpent, hbound] using h
  omega

/-- A bounded loop settles, by induction on what is left of its bound. Each iteration takes a step more
off the allowance. -/
theorem Loop.iterate_settles (hC : Session.Settling C) {p : Pipeline} (hp : p.Settles C)
    (condition : Option Condition) {config : LoopConfig} (hbound : config.isBounded = true)
    (left used count : Nat) (hleft : config.bound ≤ count + left) (hs : s.Rests C) :
    Settles fun n => (iterate (Valve.run n) condition p config (n - used) count).run s := by
  induction left using Nat.strongRecOn generalizing used count s with
  | ind left ih =>
    have unfolded : Settles fun n =>
        (iterate (Valve.run n) condition p config (n - (used + 1) + 1) count).run s := by
      refine asks_settle hC hs fun more t hrests => ?_
      cases more with
      | false =>
        have hlogged : t.LastsIn (t.log .debug "Loop condition false; stopping"
            [("iterations", .nat count)]) := ongoing_covers.log ..
        exact (hrests.next hC hlogged).proceed
      | true =>
        simp only [if_true]
        cases hspent : isSpent config count with
        | true => exact .raised _ _
        | false =>
          have hlt := lt_bound hbound hspent
          have hbegun : t.LastsIn (begin config count t) :=
            ongoing_covers.begin config trivial count t
          have hbody : (begin config count t).Rests C := hrests.next hC hbegun
          have hended := Walk.runBoundary_settles hp hbody.member
          refine hended.bind (Walk.runBoundary_ongoing p) fun settlement u hu => ?_
          have hafter : u.Rests C := hbody.next hC hu
          cases settlement with
          | completed => exact ih (left - 1) (by omega) (used + 1) (count + 1) (by omega) hafter
          | absorbed => exact hafter.proceed
          | propagated => exact .answered () u
    refine unfolded.of_later (used + 1) fun n hn => ?_
    rw [show n - used = n - (used + 1) + 1 by omega]

namespace Guarded

theorem runBlock_settles {ε : Type} {p : Pipeline} (hp : p.Settles C) (hs : C s) :
    Settles fun n =>
      (runBlock (Walk.runPipeline (Valve.run n)) p : Run ε (Except _ (Option Pipeline))).run s := by
  have hwalk := (hp s hs).attempt (δ := ε)
  refine hwalk.bind_of fun _ ended t _ => ?_
  cases ended with
  | error failure => exact .answered (Except.error failure) t
  | ok ended =>
    cases ended with
    | completed => exact .answered (Except.ok none) t
    | unwound => exact .answered (Except.ok (some p)) t

theorem runProtected_settles {ε : Type} (hC : Session.Settling C)
    {tryBlock catchBlock : Option Pipeline} (htry : ∀ p ∈ tryBlock, p.Settles C)
    (hcatch : ∀ p ∈ catchBlock, p.Settles C) (config : CatchConfig) (hs : C s) :
    Settles fun n => (runProtected (Walk.runPipeline (Valve.run n)) tryBlock catchBlock config :
      Run ε (Except _ (Option Pipeline))).run s := by
  cases tryBlock with
  | none => exact .answered _ s
  | some block =>
    have hkeeps (n : Nat) : (runBlock (Walk.runPipeline (Valve.run n)) block :
        Run ε (Except _ (Option Pipeline))).KeepsTo .ongoing :=
      runBlock_keepsTo ongoing_covers.toAllows (Walk.runPipeline_ongoing n block)
    refine (runBlock_settles (htry block rfl) hs).bind hkeeps fun ending t ht => ?_
    cases ending with
    | ok origin => exact .answered _ t
    | error failure =>
      cases catchBlock with
      | none => exact .answered _ t
      | some handler =>
        have hcaught : t.LastsIn (catching config failure t) :=
          ongoing_covers.catching config trivial failure t
        exact runBlock_settles (hcatch handler rfl) (hC.next (hC.next hs ht) hcaught)

theorem conclude_settles (hC : Session.Settling C)
    (ending : Except ValveFailure (Option Pipeline)) (waiting : Option Signal)
    (hs : s.Rests C) : Settles fun n => (conclude (Valve.run n) ending waiting).run s := by
  cases ending with
  | error failure => exact .raised failure s
  | ok origin =>
    cases waiting with
    | none => exact hs.proceed
    | some signal =>
      have hpended : s.LastsIn { s with pending := some signal } :=
        ongoing_covers.change (.pend (some signal))
      exact Walk.settle_resume_settles hC (hs.next hC hpended) _

theorem run_settles (hC : Session.Settling C) {tryBlock catchBlock finallyBlock : Option Pipeline}
    (htry : ∀ p ∈ tryBlock, p.Settles C) (hcatch : ∀ p ∈ catchBlock, p.Settles C)
    (hfinally : ∀ p ∈ finallyBlock, p.Settles C) (config : CatchConfig) (hs : s.Rests C) :
    Settles fun n => (run (Valve.run n) tryBlock catchBlock finallyBlock config).run s := by
  have hkeeps (n : Nat) : (runProtected (Walk.runPipeline (Valve.run n)) tryBlock catchBlock config :
      Run ValveFailure (Except _ (Option Pipeline))).KeepsTo .ongoing :=
    ongoing_covers.habit.runProtected (fun p _ => Walk.runPipeline_ongoing n p)
      (fun p _ => Walk.runPipeline_ongoing n p) fun _ _ => trivial
  refine (runProtected_settles hC htry hcatch config hs.member).bind hkeeps fun ending t ht => ?_
  have hdropped : t.LastsIn t.dropBreak := ongoing_covers.change (.pend none)
  have hrests : t.dropBreak.Rests C := (hs.next hC ht).next hC hdropped
  cases finallyBlock with
  | none => exact conclude_settles hC ending t.pending hrests
  | some last =>
    have hwalk := hfinally last rfl t.dropBreak hrests.member
    refine Settles.bind (s := t.dropBreak) hwalk (fun n => Walk.runPipeline_ongoing n last)
      fun ended u hu => ?_
    have hafter : u.Rests C := hrests.next hC hu
    cases ended with
    | completed => exact conclude_settles hC ending t.pending hafter
    | unwound => exact Walk.settle_resume_settles hC hafter last.label

end Guarded

theorem Call.perform_settles (hC : Session.Settling C) {made : Call}
    (hmade : ∀ p ∈ made.pipelines, p.Settles C) (hs : s.Rests C) :
    Settles fun n => (made.perform (Valve.run n)).run s := by
  cases made with
  | proceed => exact (hs.proceed.raising Raised.valve).answering _
  | tryProceed =>
    have hproceed : Settles fun n => (Run.attempt (Walk.proceed (Valve.run n)) :
        Run Raised (Except ValveFailure Unit)).run s := hs.proceed.attempt
    refine hproceed.bind_of fun _ ended t _ => ?_
    cases ended <;> exact .answered _ t
  | resume settlement =>
    have hresume := Walk.resumeAfter_settles hs settlement
    exact (hresume.raising Raised.valve).answering _
  | runPipeline p =>
    have hp : p.Settles C := hmade p List.mem_cons_self
    exact ((hp s hs.member).raising Raised.valve).answering _
  | runBoundary p =>
    have hp : p.Settles C := hmade p List.mem_cons_self
    have hboundary := Walk.runBoundary_settles hp hs.member
    exact (hboundary.raising Raised.valve).answering _
  | invoke => exact (Walk.invoke_settles hC hs.member).answering _
  | raise what => exact .raised what s
  | _ => exact .answered _ _

namespace Script.Settles

theorem note {entry : String} {rest : Script} (hC : Session.Settling C) (h : rest.Settles C) :
    (Script.note entry rest).Settles C := by
  intro s hs
  have hnoted : s.LastsIn (s.note entry) := ongoing_covers.change (.note entry)
  exact h (s.note entry) (hs.next hC hnoted)

theorem call {made : Call} {next : Except Raised Reply → Script} (hC : Session.Settling C)
    (hmade : ∀ p ∈ made.pipelines, p.Settles C) (hnext : ∀ reply, (next reply).Settles C) :
    (Script.call made next).Settles C := by
  intro s hs
  have hmarked : s.LastsIn (s.mark .call) := ongoing_covers.change (.mark .call rfl)
  have hcalled : (s.mark .call).Rests C := hs.next hC hmarked
  have hkeeps (n : Nat) : (Run.attempt (made.perform (Valve.run n)) :
      Run Raised (Except Raised Reply)).KeepsTo .ongoing :=
    (Call.perform_keepsTo ongoing_covers (Valve.run_ongoing n) made).attempt
  refine Settles.bind (s := s.mark .call)
    (Settles.attempt (Call.perform_settles hC hmade hcalled)) hkeeps fun reply t ht => ?_
  exact hnext reply t (hcalled.next hC ht)

end Script.Settles

namespace Valve.Settles

theorem of_work {v : Valve} (h : ∀ s, s.Rests C →
    ValvePipeline.Settles fun n => (v.work (Valve.run n) n).run s) : v.Settles C := by
  intro s hs
  exact .of_succ (h s hs)

theorem scripted {name : String} {script : Script} (hC : Session.Settling C)
    (h : script.Settles C) : (Valve.scripted name script).Settles C := by
  refine of_work fun s hs => ?_
  have hkeeps (n : Nat) :
      ((script.follow (Valve.run n)).raising (Raised.underName name)).KeepsTo .ongoing :=
    (Script.follow_keepsTo ongoing_covers (Valve.run_ongoing n) script).raising _
  have hfollowed := (h s hs).raising (Raised.underName name)
  refine hfollowed.bind hkeeps fun flow t ht => ?_
  cases flow with
  | goOn => exact (hs.next hC ht).proceed
  | halt => exact .answered () t

theorem breakWhen (wanted : Bool) (signal : Signal) (hs : s.Rests C) :
    ValvePipeline.Settles fun n => (Valve.breakWhen (Valve.run n) wanted signal).run s := by
  cases wanted with
  | true => exact .answered () (s.requestBreak signal)
  | false => exact hs.proceed

theorem select_answers (branches : List Branch) (otherwise : Option Pipeline) (s : Session) :
    ∃ chosen t, (Valve.work.select branches otherwise).run s = .answered chosen t ∧
      ∀ p ∈ chosen, p ∈ branches.map (·.block) ++ otherwise.toList := by
  induction branches generalizing s with
  | nil =>
    refine ⟨otherwise, s, rfl, ?_⟩
    intro p hp
    rw [Option.mem_def.mp hp]
    exact List.mem_singleton_self p
  | cons branch branches ih =>
    rw [List.map_cons, List.cons_append, Valve.work.select, Run.run_bind, Run.run_act]
    cases (s.ask branch.condition).1 with
    | true =>
      refine ⟨some branch.block, (s.ask branch.condition).2, rfl, ?_⟩
      intro p hp
      obtain rfl : branch.block = p := Option.some.inj hp
      exact List.mem_cons_self
    | false =>
      obtain ⟨chosen, t, hrun, hmem⟩ := ih (s.ask branch.condition).2
      exact ⟨chosen, t, hrun, fun p hp => List.mem_cons_of_mem _ (hmem p hp)⟩

theorem choose {branches : List Branch} {otherwise : Option Pipeline} (hC : Session.Settling C)
    (h : ∀ p ∈ branches.map (·.block) ++ otherwise.toList, p.Settles C) :
    (Valve.choose branches otherwise).Settles C := by
  refine of_work fun s hs => ?_
  obtain ⟨chosen, t, hrun, hmem⟩ := select_answers branches otherwise s
  have hkeeps := Valve.select_keepsTo ongoing_covers branches otherwise
  have hrests : t.Rests C := hs.next hC (hkeeps.answered hrun)
  simp only [Valve.work, Run.run_bind, hrun]
  cases chosen with
  | none => exact hrests.proceed
  | some p => exact Walk.runBlock_settles hC (h p (hmem p rfl)) hrests

theorem guarded {tryBlock catchBlock finallyBlock : Option Pipeline} {config : CatchConfig}
    (hC : Session.Settling C)
    (h : ∀ p ∈ (Valve.guarded tryBlock catchBlock finallyBlock config).children, p.Settles C) :
    (Valve.guarded tryBlock catchBlock finallyBlock config).Settles C := by
  have hmem {p : Pipeline} (hp : p ∈ tryBlock ∨ p ∈ catchBlock ∨ p ∈ finallyBlock) :
      p.Settles C := by
    refine h p ?_
    simpa [Valve.children, or_assoc, Option.mem_def] using hp
  refine of_work fun s hs => ?_
  exact Guarded.run_settles hC (fun p hp => hmem (.inl hp)) (fun p hp => hmem (.inr (.inl hp)))
    (fun p hp => hmem (.inr (.inr hp))) config hs

theorem loop {v : Valve} {condition : Option Condition} {body : Pipeline} {config : LoopConfig}
    (hv : ∀ start steps, v.work start steps = Loop.iterate start condition body config steps 0)
    (hC : Session.Settling C) (hbound : config.isBounded = true) (h : body.Settles C) :
    v.Settles C := by
  refine of_work fun s hs => ?_
  have hleft : config.bound ≤ (0 : Nat) + config.bound.toNat := by
    have := Int.self_le_toNat config.bound
    omega
  have hiterates := Loop.iterate_settles hC h condition hbound config.bound.toNat 0 0 hleft hs
  simpa only [hv, Nat.sub_zero] using hiterates

theorem builtIn {v : Valve} (hC : Session.Settling C)
    (hscript : ∀ name script, v ≠ .scripted name script)
    (hloop : ∀ config, v.loopConfig? = some config → config.isBounded = true)
    (hchildren : ∀ p ∈ v.children, p.Settles C) : v.Settles C := by
  cases v with
  | passThrough => exact of_work fun s hs => hs.proceed
  | setAttribute key value =>
    refine of_work fun s hs => ?_
    have hset : s.LastsIn (s.setAttribute key value) :=
      ongoing_covers.change (.set key value)
    exact (hs.next hC hset).proceed
  | log severity message =>
    refine of_work fun s hs => ?_
    have hlogged : s.LastsIn (s.log severity (Template.render message s.attributes)
        [("depth", .nat s.depth)]) := ongoing_covers.log ..
    exact (hs.next hC hlogged).proceed
  | record name counter =>
    refine of_work fun s hs => ?_
    have hnoted : s.LastsIn (s.note (Valve.recordEntry name counter s.attributes)) :=
      ongoing_covers.change (.note _)
    exact (hs.next hC hnoted).proceed
  | failing name message => exact of_work fun s _ => .raised (ValveFailure.failed name { message }) s
  | scripted name script => exact absurd rfl (hscript name script)
  | breakWith signal => exact of_work fun s _ => .answered () (s.requestBreak signal)
  | exit => exact of_work fun s _ => .answered () (s.requestBreak .exit)
  | breakIf condition signal =>
    exact of_work fun s hs => ask_settles hC hs fun answer t ht => breakWhen answer signal ht
  | breakUnless condition signal =>
    exact of_work fun s hs => ask_settles hC hs fun answer t ht => breakWhen (!answer) signal ht
  | loop body config =>
    exact loop (fun _ _ => rfl) hC (hloop config rfl) (hchildren body List.mem_cons_self)
  | whileLoop condition body config =>
    exact loop (fun _ _ => rfl) hC (hloop config rfl) (hchildren body List.mem_cons_self)
  | ifThen condition block =>
    have hblock : block.Settles C := hchildren block List.mem_cons_self
    refine of_work fun s hs => ask_settles hC hs fun answer t ht => ?_
    cases answer with
    | true => exact Walk.runBlock_settles hC hblock ht
    | false => exact ht.proceed
  | choose branches otherwise => exact choose hC hchildren
  | sub pipeline =>
    have hblock : pipeline.Settles C := hchildren pipeline List.mem_cons_self
    exact of_work fun s hs => Walk.runBlock_settles hC hblock hs
  | guarded tryBlock catchBlock finallyBlock config => exact guarded hC hchildren

end Valve.Settles

/-- The rest of a walk settles, by induction on the places where no valve has started. The valve that
starts next may call for the rest as often as it likes: fewer of them are left there. -/
theorem Walk.proceed_settles (hC : Session.Settling C) {f : Frame} {outer : List Frame}
    (hvalves : ∀ v ∈ f.pipeline.valves, v.Settles C) (left : Nat)
    (hleft : f.pipeline.valves.length ≤ f.started + left) (hs : C s)
    (hframes : s.frames = f :: outer) : Settles fun n => (proceed (Valve.run n)).run s := by
  induction left using Nat.strongRecOn generalizing s f with
  | ind left ih =>
    by_cases hpending : s.pending.isSome = true
    · exact .of_answered fun n => run_proceed_of_pending (Valve.run n) hpending
    rw [Option.not_isSome_iff_eq_none] at hpending
    cases hnew : f.hasStarted f.next with
    | true =>
      exact .of_answered fun n => run_proceed_of_started (Valve.run n) hpending hframes hnew
    | false =>
      cases hvalve : f.pipeline.valves[f.next]? with
      | none =>
        exact .of_answered fun n => run_proceed_of_end (Valve.run n) hpending hframes hnew hvalve
      | some v =>
        have hplace : f.next < f.pipeline.valves.length := (List.getElem?_eq_some_iff.mp hvalve).1
        have hfresh : f.started ≤ f.next := (f.hasStarted_eq_false_iff f.next).mp hnew
        have hrests : (s.enterValve f outer f.next).Rests C := by
          have hentered : C (s.enterValve f outer f.next) := hC.closed hs rfl id
          refine ⟨hentered, fun {t} ht => ?_⟩
          obtain ⟨g, hg, hsame, -, hstarted⟩ := ht.walks.of_cons
          have hpipeline : g.pipeline = f.pipeline := hsame
          have hfewer : f.next + 1 ≤ g.started := hstarted
          have hleft' : g.pipeline.valves.length ≤ g.started + (left - 1) := by
            rw [hpipeline]
            omega
          exact ih (left - 1) (by omega) (hpipeline ▸ hvalves) hleft' (hC.next hentered ht) hg
        have hsettles := hvalves v (List.mem_of_getElem? hvalve) _ hrests
        refine (hsettles.afterwards (Session.leaveValve f.next f.cursor)).congr fun n => ?_
        exact run_proceed_of_valve (Valve.run n) hpending hframes hnew hvalve

theorem Pipeline.Settles.of_valves {p : Pipeline} (hC : Session.Settling C)
    (h : ∀ v ∈ p.valves, v.Settles C) : p.Settles C := by
  intro s hs
  have hentered : C (s.enterPipeline p) := hC.closed hs rfl id
  have hproceed := Walk.proceed_settles hC h p.valves.length (Nat.le_add_left _ _) hentered rfl
  have hwalked := hproceed.afterwards Session.leavePipeline
  exact hwalked.bind_of fun _ _ t _ => .answered _ t

mutual

/-- The walks of a bounded pipeline settle, by induction on the bounds. -/
theorem Pipeline.Bounded.settles (hC : Session.Settling C) {p : Pipeline} :
    p.Bounded → p.Settles C
  | .intro hvalves => .of_valves hC fun v hv => (hvalves v hv).settles hC

theorem Valve.Bounded.settles (hC : Session.Settling C) {v : Valve} : v.Bounded → v.Settles C
  | .builtIn hscript hloop hchildren =>
    .builtIn hC hscript hloop fun p hp => (hchildren p hp).settles hC
  | .scripted hscript => .scripted hC (hscript.settles hC)

theorem Script.Bounded.settles (hC : Session.Settling C) {script : Script} :
    script.Bounded → script.Settles C
  | .finish => fun s _ => .answered _ s
  | .raise => fun s _ => .raised _ s
  | .note hrest => .note hC (hrest.settles hC)
  | .call hmade hnext =>
    .call hC (fun p hp => (hmade p hp).settles hC) fun reply => (hnext reply).settles hC

end

namespace Session

theorem Rests.of_nil (hs : C s) (hframes : s.frames = []) : s.Rests C where
  member := hs
  rest {t} ht := by
    have hnil : t.frames = [] := by
      have hlength : t.frames.length = s.frames.length := ht.walks.length_eq
      rw [hframes] at hlength
      exact List.length_eq_zero_iff.mp hlength
    by_cases hpending : t.pending.isSome = true
    · exact .of_answered fun n => Walk.run_proceed_of_pending (Valve.run n) hpending
    · rw [Option.not_isSome_iff_eq_none] at hpending
      exact .of_answered fun n => Walk.run_proceed_of_nil (Valve.run n) hpending hnil

theorem makeCalls_settle (hC : Settling C) {calls : List Call}
    (hcalls : ∀ call ∈ calls, ∀ p ∈ call.pipelines, p.Settles C) (hs : s.Rests C) :
    ∃ enough t, ∀ steps, enough ≤ steps → s.makeCalls steps calls = .answered () t := by
  induction calls generalizing s with
  | nil => exact ⟨0, s, fun _ _ => rfl⟩
  | cons call calls ih =>
    have hcall : ∀ p ∈ call.pipelines, p.Settles C := hcalls call List.mem_cons_self
    have hothers : ∀ other ∈ calls, ∀ p ∈ other.pipelines, p.Settles C := by
      intro other hother
      exact hcalls other (List.mem_cons_of_mem call hother)
    have hkeeps (n : Nat) : (call.perform (Valve.run n)).KeepsTo .ongoing :=
      Call.perform_keepsTo ongoing_covers (Valve.run_ongoing n) call
    -- a call that answers and one that raises leave the same calls to be made
    obtain ⟨enough, u, hu, hmade⟩ : ∃ enough u, s.LastsIn u ∧ ∀ steps, enough ≤ steps →
        s.makeCalls steps (call :: calls) = u.makeCalls steps calls := by
      obtain ⟨enough, ⟨reply, u, hsame⟩ | ⟨what, u, hsame⟩⟩ :=
        (Call.perform_settles hC hcall hs).ends
      · refine ⟨enough, u, (hkeeps enough).answered (hsame enough (Nat.le_refl enough)), ?_⟩
        intro steps hsteps
        rw [makeCalls, makeCall, hsame steps hsteps]
      · refine ⟨enough, u, (hkeeps enough).raised (hsame enough (Nat.le_refl enough)), ?_⟩
        intro steps hsteps
        rw [makeCalls, makeCall, hsame steps hsteps]
    obtain ⟨others, t, hrest⟩ := ih hothers (hs.next hC hu)
    refine ⟨max enough others, t, fun steps hsteps => ?_⟩
    rw [hmade steps (Nat.le_trans (Nat.le_max_left enough others) hsteps)]
    exact hrest steps (Nat.le_trans (Nat.le_max_right enough others) hsteps)

theorem settling_of_invoked : Settling fun s => s.invoked = true where
  closed hs _ hinvoked := hinvoked hs
  launched {s} hs hnot := by
    have hinvoked : s.invoked = true := hs
    rw [hinvoked] at hnot
    cases hnot

theorem settling_of_bounded {top : Pipeline} (htop : top.Bounded) :
    Settling fun s => s.pipeline = top where
  closed hs hsame _ := hsame.trans hs
  launched {s} hs _ := by
    have hpipeline : s.pipeline = top := hs
    have hstarted : Change { s with invoked := true } (Walk.launched s) := .emit _ _
    have hinvoked : (Walk.launched s).invoked = true := hstarted.invoked_mono rfl
    rw [hpipeline]
    exact htop.settles settling_of_invoked (Walk.launched s) hinvoked

end Session

end Engine

/-- Bounded pipelines terminate. In a session outside of any walk, whatever its attributes are, let every
loop have a bound: in the pipeline of the session, in those that calls from outside walk, and in those
that scripts walk. Then with some allowance of steps every call from outside ends, with a result or with
a failure, and with every greater allowance they end in the same way. -/
theorem Session.makeCalls_terminate {s : Session} (hframes : s.frames = [])
    (hbounded : s.pipeline.Bounded) {calls : List Call}
    (hcalls : ∀ call ∈ calls, ∀ p ∈ call.pipelines, p.Bounded) :
    ∃ enough t, ∀ steps, enough ≤ steps → s.makeCalls steps calls = .answered () t := by
  have hsettling := settling_of_bounded hbounded
  have hrests : s.Rests (·.pipeline = s.pipeline) := .of_nil rfl hframes
  refine makeCalls_settle hsettling (fun call hcall p hp => ?_) hrests
  exact (hcalls call hcall p hp).settles hsettling

private def rewinding : Pipeline :=
  ⟨none, [.setAttribute "i" (.nat 0)]⟩

private theorem rewinding_bounded : rewinding.Bounded := by
  refine .intro fun v hv => ?_
  obtain rfl : v = .setAttribute "i" (.nat 0) := List.mem_singleton.mp hv
  refine .builtIn nofun nofun ?_
  intro p hp
  cases hp

private def restlessScript : Script :=
  .call .tryProceed fun _ => .call (.runPipeline rewinding) fun _ => .call .invoke fun _ =>
    .call .tryProceed fun _ => .finish .goOn

private theorem restlessScript_bounded : restlessScript.Bounded := by
  refine .call nofun fun _ => .call ?_ fun _ => .call nofun fun _ => .call nofun fun _ => .finish
  intro p hp
  obtain rfl : p = rewinding := List.mem_singleton.mp hp
  exact rewinding_bounded

private def restless : Pipeline :=
  ⟨none, [.scripted "again" restlessScript,
    .whileLoop (.constant true) rewinding { bound := 2, counter := "i" }]⟩

private theorem restless_bounded : restless.Bounded := by
  have counted : Valve.Bounded
      (.whileLoop (.constant true) rewinding { bound := 2, counter := "i" }) := by
    refine .builtIn nofun ?_ ?_
    · intro config hconfig
      cases hconfig
      rfl
    · intro p hp
      obtain rfl : p = rewinding := List.mem_singleton.mp hp
      exact rewinding_bounded
  refine .intro fun v hv => ?_
  rcases List.mem_cons.mp hv with rfl | hv
  · exact .scripted restlessScript_bounded
  · obtain rfl := List.mem_singleton.mp hv
    exact counted

private def restlessStart : Session :=
  Session.start restless .discard {}

private def restlessCalls : List Call :=
  [.invoke, .runBoundary restless, .proceed]

theorem Session.makeCalls_terminate_of_restless :
    (∃ enough t, ∀ steps, enough ≤ steps →
      restlessStart.makeCalls steps restlessCalls = .answered () t) ∧
    Mark.leaveValve 1 (some (.tooManyLoops 2)) ∈
      (restlessStart.makeCalls 5 restlessCalls).session.trail.map (·.mark) := by
  have pipelines_bounded : ∀ call ∈ restlessCalls, ∀ p ∈ call.pipelines, p.Bounded := by
    intro call hcall p hp
    simp only [restlessCalls, List.mem_cons, List.not_mem_nil, or_false] at hcall
    rcases hcall with rfl | rfl | rfl
    · cases hp
    · obtain rfl := List.mem_singleton.mp hp
      exact restless_bounded
    · cases hp
  refine ⟨makeCalls_terminate rfl restless_bounded pipelines_bounded, ?_⟩
  exact List.mem_of_getElem? (i := 17) rfl

end ValvePipeline
