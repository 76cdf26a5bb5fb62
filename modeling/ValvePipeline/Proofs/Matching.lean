import ValvePipeline.Proofs.Flat
import ValvePipeline.Proofs.WalkStack

/-!
Computations that do the same. Two sessions are alike when they differ in nothing but their trails. A
computation matches another one if, begun in alike sessions, both end in the same way in alike
sessions; one that is cut off matches everything. What a valve does itself matches as soon as the
walks of pipelines do.
-/

set_option autoImplicit false
set_option relaxedAutoImplicit false

namespace ValvePipeline

namespace Session

def quiet (s : Session) : Session :=
  { s with transcript := { s.transcript with trail := #[] } }

/-- The sessions are the same but for their trails. -/
def Alike (s t : Session) : Prop :=
  s.quiet = t.quiet

def Blind (f : Session → Session) : Prop :=
  ∀ s, (f s).quiet = (f s.quiet).quiet

namespace Alike

variable {s t u : Session}

theorem refl (s : Session) : s.Alike s := rfl

theorem trans (h : s.Alike t) (h' : t.Alike u) : s.Alike u :=
  Eq.trans h h'

theorem frames_eq (h : s.Alike t) : s.frames = t.frames :=
  show s.quiet.frames = t.quiet.frames from congrArg (·.frames) h

theorem pending_eq (h : s.Alike t) : s.pending = t.pending :=
  show s.quiet.pending = t.quiet.pending from congrArg (·.pending) h

theorem map {f : Session → Session} (hf : Blind f) (h : s.Alike t) : (f s).Alike (f t) := by
  unfold Alike at *
  rw [hf s, h, ← hf t]

end Alike

@[simp] theorem quiet_mark (s : Session) (m : Mark) : (s.mark m).quiet = s.quiet := rfl

@[simp] theorem quiet_emit (s : Session) (type : String) (data : Json) :
    (s.emit type data).quiet = s.quiet.emit type data := by
  obtain ⟨_, _, _, _, _, _, sink, _⟩ := s
  cases sink <;> rfl

theorem quiet_noteAll (s : Session) (entries : List String) :
    (s.noteAll entries).quiet = s.quiet.noteAll entries := by
  induction entries generalizing s with
  | nil => rfl
  | cons entry entries ih => exact ih (s.note entry)

theorem Blind.comp {f g : Session → Session} (hg : Blind g) (hf : Blind f) :
    Blind fun s => g (f s) := by
  intro s
  have outer : (g (f s)).quiet = (g (f s).quiet).quiet := hg (f s)
  rw [outer, hf s, ← hg (f s.quiet)]

theorem Blind.emit {f : Session → Session} (hf : Blind f) (type : String) (data : Json) :
    Blind fun s => (f s).emit type data := by
  have emits : Blind (·.emit type data) := by
    intro s
    rw [quiet_emit, quiet_emit]
    rfl
  exact emits.comp hf

theorem blind_ask (condition : Condition) : Blind fun s => (s.ask condition).2 := by
  intro s
  simp only [ask, quiet_mark, quiet_noteAll]
  rfl

theorem blind_requestBreak (signal : Signal) : Blind (·.requestBreak signal) := by
  intro s
  cases signal with
  | label name =>
    have same : s.quiet.findLabel name = s.findLabel name := rfl
    simp only [requestBreak, same]
    split <;> rfl
  | level count => rfl
  | exit => rfl

theorem blind_absorbBreak (signal : Signal) (label : Option String) :
    Blind (·.absorbBreak signal label) :=
  .emit (fun _ => rfl) _ _

theorem blind_passBreak (signal next : Signal) (label : Option String) :
    Blind (·.passBreak signal next label) := by
  have pend : Blind fun s => { s with pending := some next } := fun _ => rfl
  exact pend.comp (.emit (fun _ => rfl) _ _)

theorem quiet_settle (s : Session) (label : Option String) :
    (s.settle label).1 = (s.quiet.settle label).1 ∧
      (s.settle label).2.quiet = (s.quiet.settle label).2.quiet := by
  cases hpending : s.pending with
  | none =>
    rw [settle_of_none hpending, settle_of_none (s := s.quiet) hpending]
    exact ⟨rfl, rfl⟩
  | some signal =>
    cases hsignal : signal.atBoundary label with
    | absorb =>
      rw [settle_of_absorb hpending hsignal, settle_of_absorb (s := s.quiet) hpending hsignal]
      exact ⟨rfl, blind_absorbBreak signal label s⟩
    | propagate next =>
      rw [settle_of_propagate hpending hsignal,
        settle_of_propagate (s := s.quiet) hpending hsignal]
      exact ⟨rfl, blind_passBreak signal next label s⟩

theorem blind_begin (config : LoopConfig) (count : Nat) : Blind (Loop.begin config count) := by
  have marks : Blind (·.mark (.iterate count)) := fun _ => rfl
  exact marks.comp (.emit (fun _ => rfl) _ _)

theorem blind_catching (config : CatchConfig) (failure : ValveFailure) :
    Blind (Guarded.catching config failure) := by
  have sets : Blind (·.setAttribute config.exceptionName failure.toJson) := fun _ => rfl
  exact sets.comp (.emit (fun _ => rfl) _ _)

end Session

theorem Change.pipeline_eq {s t : Session} (h : Change s t) : t.pipeline = s.pipeline := by
  cases h with
  | emit type data => unfold Session.emit; split <;> rfl
  | _ => rfl

def Conduct.held : Conduct where
  done s t := t.frames = s.frames ∧ t.pipeline = s.pipeline
  cut _ _ := True

theorem Conduct.held_continues : held.Continues where
  refl _ := ⟨rfl, rfl⟩
  trans h h' := ⟨h'.1.trans h.1, h'.2.trans h.2⟩
  cut_refl _ := trivial
  cut_trans _ _ := trivial
  change h := ⟨h.frames_eq, h.pipeline_eq⟩

/-- The second computation has ended as the first one has, in a session that is so related to the
first one's. Where the first one was cut off nothing is said. -/
inductive Ending.Matches {ε α : Type} (related : Session → Session → Prop) :
    Ending ε α → Ending ε α → Prop
  | answered {a : α} {s t : Session} : related s t →
    Matches related (.answered a s) (.answered a t)
  | raised {e : ε} {s t : Session} : related s t → Matches related (.raised e s) (.raised e t)
  | cut {s : Session} {ending : Ending ε α} : Matches related (.exhausted s) ending

theorem Ending.Matches.mono {ε α : Type} {related weaker : Session → Session → Prop}
    {x y : Ending ε α} (h : x.Matches related y) (hweaker : ∀ s t, related s t → weaker s t) :
    x.Matches weaker y := by
  cases h with
  | answered h => exact .answered (hweaker _ _ h)
  | raised h => exact .raised (hweaker _ _ h)
  | cut => exact .cut

theorem Ending.Matches.of_answered {ε α : Type} {related : Session → Session → Prop} {a : α}
    {s : Session} {ending : Ending ε α} (h : (Ending.answered a s).Matches related ending) :
    ∃ t, ending = .answered a t ∧ related s t := by
  cases h with
  | answered h => exact ⟨_, rfl, h⟩

theorem Ending.Matches.of_raised {ε α : Type} {related : Session → Session → Prop} {e : ε}
    {s : Session} {ending : Ending ε α} (h : (Ending.raised e s).Matches related ending) :
    ∃ t, ending = .raised e t ∧ related s t := by
  cases h with
  | raised h => exact ⟨_, rfl, h⟩

namespace Run

variable {ε δ α β : Type}

def Matches (x y : Run ε α) : Prop :=
  ∀ s t, s.pipeline.Sequential → s.Alike t →
    (x.run s).Matches (fun s' t' => Conduct.held.done s s' ∧ s'.Alike t') (y.run t)

namespace Matches

theorem pure (a : α) : Matches (Pure.pure a : Run ε α) (Pure.pure a) :=
  fun _ _ _ h => .answered ⟨⟨rfl, rfl⟩, h⟩

theorem raise (e : ε) : Matches (Run.raise e : Run ε α) (Run.raise e) :=
  fun _ _ _ h => .raised ⟨⟨rfl, rfl⟩, h⟩

theorem outOfSteps (y : Run ε α) : Matches Run.outOfSteps y :=
  fun _ _ _ _ => .cut

theorem act {f : Session → α × Session} (hkept : ∀ s, Conduct.held.done s (f s).2)
    (hanswer : ∀ s, (f s).1 = (f s.quiet).1) (hblind : Session.Blind fun s => (f s).2) :
    Matches (Run.act f : Run ε α) (Run.act f) := by
  intro s t _ h
  have same : (f s).1 = (f t).1 := by
    rw [hanswer s, hanswer t, show s.quiet = t.quiet from h]
  rw [run_act, run_act, same]
  exact .answered ⟨hkept s, h.map hblind⟩

theorem update {f : Session → Session} (hkept : ∀ s, Conduct.held.done s (f s))
    (hblind : Session.Blind f) : Matches (Run.update f : Run ε Unit) (Run.update f) :=
  act (f := fun s => ((), f s)) hkept (fun _ => rfl) hblind

theorem read {f : Session → α} (hf : ∀ s, f s = f s.quiet) :
    Matches (Run.read f : Run ε α) (Run.read f) :=
  act (f := fun s => (f s, s)) (fun _ => ⟨rfl, rfl⟩) hf fun _ => rfl

theorem bind {x y : Run ε α} {f g : α → Run ε β} (hxy : Matches x y)
    (hfg : ∀ a, Matches (f a) (g a)) : Matches (x >>= f) (y >>= g) := by
  intro s t hs hst
  have first := hxy s t hs hst
  rw [run_bind, run_bind]
  generalize x.run s = ending at first ⊢
  generalize y.run t = ending' at first ⊢
  cases first with
  | @answered a s' t' h =>
    have second := hfg a s' t' (h.1.2 ▸ hs) h.2
    exact second.mono fun u u' h' => ⟨Conduct.held_continues.trans h.1 h'.1, h'.2⟩
  | raised h => exact .raised h
  | cut => exact .cut

theorem read_bind {f g : Session → Run ε α}
    (hfg : ∀ u, u.pipeline.Sequential → (f u).Matches (g u)) (hg : ∀ u, g u = g u.quiet) :
    Matches (Run.read id >>= f) (Run.read id >>= g) := by
  intro s t hs hst
  have same : g t = g s := by rw [hg t, hg s, show s.quiet = t.quiet from hst]
  show Ending.Matches _ ((f s).run s) ((g t).run t)
  rw [same]
  exact hfg s hs s t hs hst

theorem attempt {x y : Run ε α} (h : Matches x y) :
    Matches (Run.attempt x : Run δ (Except ε α)) (Run.attempt y) := by
  intro s t hs hst
  have inner := h s t hs hst
  rw [run_attempt, run_attempt]
  generalize x.run s = ending at inner ⊢
  generalize y.run t = ending' at inner ⊢
  cases inner with
  | answered h => exact .answered h
  | raised h => exact .answered h
  | cut => exact .cut

theorem raising {x y : Run ε α} (h : Matches x y) (f : ε → δ) :
    Matches (x.raising f) (y.raising f) := by
  intro s t hs hst
  have inner := h s t hs hst
  rw [run_raising, run_raising]
  generalize x.run s = ending at inner ⊢
  generalize y.run t = ending' at inner ⊢
  cases inner with
  | answered h => exact .answered h
  | raised h => exact .raised h
  | cut => exact .cut

end Matches

end Run

section Engine

open Conduct (held_continues)

variable {ε : Type} {walk walk' : Walker}

private theorem ask_matches (condition : Condition) :
    Run.Matches (Run.act (·.ask condition) : Run ε Bool) (Run.act (·.ask condition)) :=
  .act (fun s => held_continues.ask s condition) (fun _ => rfl) (Session.blind_ask condition)

private theorem request_matches (signal : Signal) :
    Run.Matches (Run.update (·.requestBreak signal) : Run ε Unit)
      (Run.update (·.requestBreak signal)) :=
  .update (fun s => held_continues.request s signal) (Session.blind_requestBreak signal)

private theorem settle_matches (label : Option String) :
    Run.Matches (Walk.settle label : Run ε Settlement) (Walk.settle label) :=
  .act (fun s => held_continues.settle s label) (fun s => (s.quiet_settle label).1)
    fun s => (s.quiet_settle label).2

private theorem log_matches (severity : Severity) (message : String)
    (fields : List (String × Json)) :
    Run.Matches (Run.update (·.log severity message fields) : Run ε Unit)
      (Run.update (·.log severity message fields)) :=
  .update (fun _ => held_continues.log ..) fun _ => rfl

private theorem emit_matches {f : Session → Session} (hkept : ∀ s, Conduct.held.done s (f s))
    (hblind : Session.Blind f) (type : String) (data : Json) :
    Run.Matches (Run.update fun s => (f s).emit type data : Run ε Unit)
      (Run.update fun s => (f s).emit type data) := by
  refine .update (fun s => ?_) (hblind.emit type data)
  exact held_continues.trans (hkept s) (held_continues.emit ..)

private theorem pend_matches (pending : Option Signal) :
    Run.Matches (Run.update fun s => { s with pending } : Run ε Unit)
      (Run.update fun s => { s with pending }) :=
  .update (fun _ => ⟨rfl, rfl⟩) fun _ => rfl

theorem Walk.runBoundary_matches {p : Pipeline} (hwalk : (walk p).Matches (walk' p)) :
    (Walk.runBoundary walk p).Matches (Walk.runBoundary walk' p) :=
  hwalk.bind fun _ => settle_matches p.label

theorem Walk.invoke_matches (hwalk : ∀ p : Pipeline, p.Sequential → (walk p).Matches (walk' p)) :
    (Walk.invoke walk : Run ε (Except RunFailure Outcome)).Matches (Walk.invoke walk') := by
  refine .read_bind (fun u hu => ?_) fun _ => rfl
  split
  · exact .pure _
  have invoked (s : Session) : Conduct.held.done s { s with invoked := true } :=
    held_continues.change .invoke
  refine .bind (emit_matches invoked (fun _ => rfl) _ _) fun _ => ?_
  refine .bind (hwalk u.pipeline hu).attempt fun ended => ?_
  cases ended with
  | error failure =>
    refine .bind (emit_matches (fun s => ?_) (fun _ => rfl) _ _) fun _ => .pure _
    exact held_continues.log ..
  | ok ended =>
    cases ended with
    | completed =>
      exact .bind (emit_matches held_continues.refl (fun _ => rfl) _ _) fun _ => .pure _
    | unwound =>
      refine .bind (.read fun _ => rfl) fun pending => ?_
      refine .bind (emit_matches (fun s => ?_) (fun _ => rfl) _ _) fun _ => .pure _
      exact held_continues.log ..

namespace Flat

variable {n m : Nat}

theorem iterate_matches {body : Pipeline} (hwalk : (walk body).Matches (walk' body))
    (condition : Option Condition) (config : LoopConfig) (hsteps : n ≤ m) (count : Nat) :
    (iterate walk condition body config n count).Matches
      (iterate walk' condition body config m count) := by
  induction n generalizing m count with
  | zero => exact .outOfSteps _
  | succ n ih =>
    obtain _ | m := m
    · cases hsteps
    have asks : (Loop.asksForMore condition : Run ValveFailure Bool).Matches
        (Loop.asksForMore condition) := by
      cases condition with
      | none => exact .pure true
      | some condition => exact ask_matches condition
    refine .bind asks fun more => ?_
    cases more with
    | false => exact log_matches _ _ _
    | true =>
      rw [if_pos rfl, if_pos rfl]
      split
      · exact .bind (log_matches _ _ _) fun _ => .raise _
      · refine .bind (.update (held_continues.begin config trivial count)
          (Session.blind_begin config count)) fun _ => ?_
        refine .bind (Walk.runBoundary_matches hwalk) fun settlement => ?_
        cases settlement with
        | completed => exact ih (Nat.le_of_succ_le_succ hsteps) (count + 1)
        | absorbed => exact .pure ()
        | propagated => exact .pure ()

theorem settle_matches (origin : Option Pipeline) : (settle origin).Matches (settle origin) :=
  .bind (ValvePipeline.settle_matches _) fun _ => .pure ()

theorem conclude_matches (ending : Except ValveFailure (Option Pipeline))
    (waiting : Option Signal) : (conclude ending waiting).Matches (conclude ending waiting) := by
  cases ending with
  | error failure => exact .raise failure
  | ok origin =>
    cases waiting with
    | none => exact .pure ()
    | some signal => exact .bind (pend_matches (some signal)) fun _ => settle_matches origin

theorem runBlock_matches {block : Pipeline} (hwalk : (walk block).Matches (walk' block)) :
    (Guarded.runBlock walk block : Run ε (Except ValveFailure (Option Pipeline))).Matches
      (Guarded.runBlock walk' block) := by
  refine .bind hwalk.attempt fun ended => ?_
  cases ended with
  | error failure => exact .pure _
  | ok ended => cases ended <;> exact .pure _

theorem runProtected_matches {tryBlock catchBlock : Option Pipeline}
    (htry : ∀ p ∈ tryBlock, (walk p).Matches (walk' p))
    (hcatch : ∀ p ∈ catchBlock, (walk p).Matches (walk' p)) (config : CatchConfig) :
    (Guarded.runProtected walk tryBlock catchBlock config :
      Run ε (Except ValveFailure (Option Pipeline))).Matches
      (Guarded.runProtected walk' tryBlock catchBlock config) := by
  cases tryBlock with
  | none => exact .pure _
  | some block =>
    refine .bind (runBlock_matches (htry block rfl)) fun ending => ?_
    cases ending with
    | ok origin => exact .pure _
    | error failure =>
      cases catchBlock with
      | none => exact .pure _
      | some handler =>
        exact .bind (.update (held_continues.catching config trivial failure)
          (Session.blind_catching config failure)) fun _ => runBlock_matches (hcatch handler rfl)

theorem runLast_matches {block : Pipeline} (hwalk : (walk block).Matches (walk' block))
    {conclude : Run ValveFailure Unit} (hconclude : conclude.Matches conclude) :
    (runLast walk block conclude).Matches (runLast walk' block conclude) := by
  refine .bind hwalk fun ended => ?_
  cases ended with
  | completed => exact hconclude
  | unwound => exact settle_matches (some block)

theorem guarded_matches {tryBlock catchBlock finallyBlock : Option Pipeline}
    (htry : ∀ p ∈ tryBlock, (walk p).Matches (walk' p))
    (hcatch : ∀ p ∈ catchBlock, (walk p).Matches (walk' p))
    (hfinally : ∀ p ∈ finallyBlock, (walk p).Matches (walk' p)) (config : CatchConfig) :
    (guarded walk tryBlock catchBlock finallyBlock config).Matches
      (guarded walk' tryBlock catchBlock finallyBlock config) := by
  refine .bind (runProtected_matches htry hcatch config) fun ending => ?_
  refine .bind (.act (fun _ => ⟨rfl, rfl⟩) (fun _ => rfl) fun _ => rfl) fun waiting => ?_
  cases finallyBlock with
  | none => exact conclude_matches ending waiting
  | some block => exact runLast_matches (hfinally block rfl) (conclude_matches ending waiting)

theorem block_matches {p : Pipeline} (hwalk : (walk p).Matches (walk' p)) :
    (block walk p).Matches (block walk' p) :=
  .bind (Walk.runBoundary_matches hwalk) fun _ => .pure ()

theorem perform_matches (hwalk : ∀ p : Pipeline, p.Sequential → (walk p).Matches (walk' p))
    {made : Call} (hgoesOn : made.goesOn = false)
    (hpipelines : ∀ p ∈ made.pipelines, p.Sequential) :
    (perform walk made).Matches (perform walk' made) := by
  have request (signal : Signal) : (Call.requesting signal : Run Raised Reply).Matches
      (Call.requesting signal) := by
    refine .act (fun s => held_continues.request s signal) (fun s => ?_)
      (Session.blind_requestBreak signal)
    cases signal <;> rfl
  cases made with
  | set key value => exact .act (fun _ => ⟨rfl, rfl⟩) (fun _ => rfl) fun _ => rfl
  | remove key => exact .act (fun _ => ⟨rfl, rfl⟩) (fun _ => rfl) fun _ => rfl
  | incr key amount => exact .act (fun _ => ⟨rfl, rfl⟩) (fun _ => rfl) fun _ => rfl
  | breakLevels count => exact request _
  | breakToLabel label => exact request _
  | exit => exact request _
  | request signal => exact request signal
  | takeBreak => exact .act (fun _ => ⟨rfl, rfl⟩) (fun _ => rfl) fun _ => rfl
  | eval condition =>
    exact .act (fun s => held_continues.ask s condition) (fun _ => rfl)
      (Session.blind_ask condition)
  | emit type data =>
    refine .act (fun s => held_continues.emit s type data) (fun _ => rfl) ?_
    exact Session.Blind.emit (f := id) (fun _ => rfl) type data
  | settle label => exact .bind (ValvePipeline.settle_matches label) fun _ => .pure _
  | proceed => cases hgoesOn
  | tryProceed => cases hgoesOn
  | resume settlement => cases hgoesOn
  | runPipeline p =>
    exact .bind ((hwalk p (hpipelines p List.mem_cons_self)).raising _) fun _ => .pure _
  | runBoundary p =>
    have hp := hwalk p (hpipelines p List.mem_cons_self)
    exact .bind ((Walk.runBoundary_matches hp).raising _) fun _ => .pure _
  | finish flow => exact .pure _
  | raise raised => exact .raise raised
  | invoke => exact .bind (Walk.invoke_matches hwalk) fun _ => .pure _
  | _ => exact .read fun _ => rfl

theorem follow_matches (hwalk : ∀ p : Pipeline, p.Sequential → (walk p).Matches (walk' p)) :
    ∀ {script : Script}, script.Sequential → (follow walk script).Matches (follow walk' script)
  | .finish flow, _ => .pure flow
  | .raise raised, _ => .raise raised
  | .note entry rest, h => by
    cases h with
    | note h =>
      exact .bind (.update (fun _ => ⟨rfl, rfl⟩) fun _ => rfl) fun _ => follow_matches hwalk h
  | .call made next, h => by
    cases h with
    | call hgoesOn hpipelines hnext =>
      refine .bind (.update (fun _ => ⟨rfl, rfl⟩) fun _ => rfl) fun _ => ?_
      refine .bind (perform_matches hwalk hgoesOn hpipelines).attempt fun reply => ?_
      exact follow_matches hwalk (hnext reply)

theorem select_bind_matches {f g : Option Pipeline → Run ValveFailure Unit}
    {branches : List Branch} {otherwise : Option Pipeline} (hnone : (f none).Matches (g none))
    (hsome : ∀ p ∈ branches.map (·.block) ++ otherwise.toList,
      (f (some p)).Matches (g (some p))) :
    (Valve.work.select branches otherwise >>= f).Matches
      (Valve.work.select branches otherwise >>= g) := by
  induction branches with
  | nil =>
    cases otherwise with
    | none => exact hnone
    | some p => exact hsome p List.mem_cons_self
  | cons branch branches ih =>
    simp only [Valve.work.select, bind_assoc]
    refine .bind (ask_matches branch.condition) fun answer => ?_
    cases answer with
    | true => exact hsome branch.block List.mem_cons_self
    | false => exact ih fun p hp => hsome p (List.mem_cons_of_mem _ hp)

theorem breakWhen_matches (wanted : Bool) (signal : Signal) :
    (breakWhen wanted signal).Matches (breakWhen wanted signal) := by
  cases wanted with
  | true => exact request_matches signal
  | false => exact .pure ()

theorem own_matches {v : Valve} (hwalk : ∀ p ∈ v.children, (walk p).Matches (walk' p))
    (hsteps : n ≤ m) : (work.own walk n v).Matches (work.own walk' m v) := by
  cases v with
  | passThrough => exact .pure ()
  | setAttribute key value => exact .update (fun _ => ⟨rfl, rfl⟩) fun _ => rfl
  | log severity message => exact .update (fun _ => ⟨rfl, rfl⟩) fun _ => rfl
  | record name counter => exact .update (fun _ => ⟨rfl, rfl⟩) fun _ => rfl
  | failing name message => exact .raise _
  | scripted name script => exact .pure ()
  | breakWith signal => exact request_matches signal
  | exit => exact request_matches .exit
  | breakIf condition signal =>
    exact .bind (ask_matches condition) fun answer => breakWhen_matches answer signal
  | breakUnless condition signal =>
    exact .bind (ask_matches condition) fun answer => breakWhen_matches (!answer) signal
  | loop body config => exact iterate_matches (hwalk body List.mem_cons_self) _ _ hsteps 0
  | whileLoop condition body config =>
    exact iterate_matches (hwalk body List.mem_cons_self) _ _ hsteps 0
  | ifThen condition p =>
    refine .bind (ask_matches condition) fun answer => ?_
    cases answer with
    | true => exact block_matches (hwalk p List.mem_cons_self)
    | false => exact .pure ()
  | choose branches otherwise =>
    exact select_bind_matches (.pure ()) fun p hp => block_matches (hwalk p hp)
  | sub p => exact block_matches (hwalk p List.mem_cons_self)
  | guarded tryBlock catchBlock finallyBlock config =>
    refine guarded_matches (fun p hp => hwalk p ?_) (fun p hp => hwalk p ?_)
      (fun p hp => hwalk p ?_) config
    · simp [Valve.children, Option.mem_def.mp hp]
    · simp [Valve.children, Option.mem_def.mp hp]
    · simp [Valve.children, Option.mem_def.mp hp]

/-- The own work of a valve does the same with walks that do the same, and with a greater allowance. -/
theorem work_matches (hwalk : ∀ p : Pipeline, p.Sequential → (walk p).Matches (walk' p))
    (hsteps : n ≤ m) {v : Valve} (hv : v.Sequential) :
    (work walk n v).Matches (work walk' m v) := by
  cases hv with
  | builtIn hv hchildren =>
    rw [work_eq_own walk n hv, work_eq_own walk' m hv]
    exact .bind (own_matches (fun p hp => hwalk p (hchildren p hp)) hsteps) fun _ => .pure _
  | scripted hscript => exact (follow_matches hwalk hscript).raising _

end Flat

end Engine

end ValvePipeline
