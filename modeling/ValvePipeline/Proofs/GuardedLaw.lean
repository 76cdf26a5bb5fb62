import ValvePipeline.Proofs.ExchangedRuns
import ValvePipeline.Proofs.Reports

/-!
The law of guarded blocks. What a guarded valve comes to is told by rules on the walks of its blocks: what
the first block comes to, which failures the second one takes over, what the last one replaces and what is
brought back after it. The valve does what the rules say, whatever the blocks are.
-/

set_option autoImplicit false
set_option relaxedAutoImplicit false

namespace ValvePipeline.Guarded

inductive Result where
  | completed
  /-- A signal is left, by a scope with this label. -/
  | broke (signal : Signal) (scope : Option String)
  | failed (failure : ValveFailure)

inductive Comes (walk : Walker) (block : Pipeline) (s : Session) : Result → Session → Prop
  | completed {t : Session} : (walk block).run s = .answered .completed t → t.pending = none →
    Comes walk block s .completed t
  | broke {t : Session} {signal : Signal} : (walk block).run s = .answered .unwound t →
    t.pending = some signal → Comes walk block s (.broke signal block.label) t
  | failed {t : Session} {failure : ValveFailure} : (walk block).run s = .raised failure t →
    Comes walk block s (.failed failure) t

/-- What is left when the first block has ended and, if it has failed, the second one. -/
inductive Leaves (walk : Walker) (catchBlock : Option Pipeline) (config : CatchConfig) (s : Session) :
    Option Pipeline → Result → Session → Prop
  | absent : Leaves walk catchBlock config s none .completed s
  | kept {block : Pipeline} {result : Result} {t : Session} : Comes walk block s result t →
    (∀ failure, result = .failed failure → catchBlock = none) →
    Leaves walk catchBlock config s (some block) result t
  /-- What the handler comes to takes the place of the failure. -/
  | caught {block handler : Pipeline} {failure : ValveFailure} {result : Result} {t u : Session} :
    Comes walk block s (.failed failure) t → catchBlock = some handler →
    Comes walk handler (catching config failure t) result u →
    Leaves walk catchBlock config s (some block) result u

/-- How the valve ends when a result stands: a failure is raised, a signal meets the boundary of the scope
that left it, and where nothing is left the rest of the pipeline runs. -/
inductive Stands (start : Starter) (s : Session) : Result → Ending ValveFailure Unit → Prop
  | completed : Stands start s .completed ((Walk.proceed start).run s)
  | absorbed {signal : Signal} {scope : Option String} : signal.atBoundary scope = .absorb →
    Stands start s (.broke signal scope) ((Walk.proceed start).run (s.absorbBreak signal scope))
  | passed {signal next : Signal} {scope : Option String} :
    signal.atBoundary scope = .propagate next →
    Stands start s (.broke signal scope) (.answered () (s.passBreak signal next scope))
  | failed {failure : ValveFailure} : Stands start s (.failed failure) (.raised failure s)

/-- How a guarded valve ends. Nothing is pending when its last block begins, and that block is walked once,
whatever is left; if it comes to anything but its end, this alone stands. -/
inductive Ends (start : Starter) (tryBlock catchBlock : Option Pipeline) (config : CatchConfig)
    (s : Session) : Option Pipeline → Ending ValveFailure Unit → Prop
  | withoutLast {result : Result} {t : Session} {ending : Ending ValveFailure Unit} :
    Leaves (Walk.runPipeline start) catchBlock config s tryBlock result t →
    Stands start t.dropBreak result ending → Ends start tryBlock catchBlock config s none ending
  | broughtBack {result : Result} {t u : Session} {block : Pipeline} {ending : Ending ValveFailure Unit} :
    Leaves (Walk.runPipeline start) catchBlock config s tryBlock result t →
    Comes (Walk.runPipeline start) block t.dropBreak .completed u → Stands start u result ending →
    Ends start tryBlock catchBlock config s (some block) ending
  | overruled {result last : Result} {t u : Session} {block : Pipeline}
    {ending : Ending ValveFailure Unit} :
    Leaves (Walk.runPipeline start) catchBlock config s tryBlock result t →
    Comes (Walk.runPipeline start) block t.dropBreak last u → last ≠ .completed →
    Stands start u last ending → Ends start tryBlock catchBlock config s (some block) ending
  /-- The allowance of steps is spent in the first block, in the second or in the last. -/
  | cutFirst {block : Pipeline} {finallyBlock : Option Pipeline} {t : Session} :
    tryBlock = some block → (Walk.runPipeline start block).run s = .exhausted t →
    Ends start tryBlock catchBlock config s finallyBlock (.exhausted t)
  | cutHandler {block handler : Pipeline} {finallyBlock : Option Pipeline} {failure : ValveFailure}
    {t u : Session} : tryBlock = some block →
    Comes (Walk.runPipeline start) block s (.failed failure) t → catchBlock = some handler →
    (Walk.runPipeline start handler).run (catching config failure t) = .exhausted u →
    Ends start tryBlock catchBlock config s finallyBlock (.exhausted u)
  | cutLast {result : Result} {t u : Session} {block : Pipeline} :
    Leaves (Walk.runPipeline start) catchBlock config s tryBlock result t →
    (Walk.runPipeline start block).run t.dropBreak = .exhausted u →
    Ends start tryBlock catchBlock config s (some block) (.exhausted u)

/-- A failure has been caught: no signal is pending, the attribute holds the failure, the catch is reported
once, and nothing else is touched. -/
structure Caught (config : CatchConfig) (failure : ValveFailure) (s t : Session) : Prop where
  pending : t.pending = none
  attributes : t.attributes = s.attributes.set config.exceptionName failure.toJson
  frames : t.frames = s.frames
  journal : t.transcript.journal = s.transcript.journal
  trail : t.trail = s.trail
  reported : s.sink = .collect → ∃ e, t.events = s.events ++ [e] ∧ e.type = "exception.caught" ∧
    e.field? "exception_name" = some (.string config.exceptionName) ∧
    e.field? "error" = some failure.toJson
  unreported : s.sink ≠ .collect → t.events = s.events

theorem catching_caught (config : CatchConfig) (failure : ValveFailure) (s : Session) :
    Caught config failure s (catching config failure s) where
  pending := catching_pending config failure s
  attributes := congrArg (·.set config.exceptionName failure.toJson) (Session.attributes_emit ..)
  frames := Session.frames_emit ..
  journal := Session.journal_emit ..
  trail := catching_trail config failure s
  reported h := by
    obtain ⟨e, hevents, htype, hfields⟩ :=
      Session.exists_event_of_emit (s := s.dropBreak.log ..) h _ _
    exact ⟨e, hevents, htype, hfields "exception_name" (by decide), hfields "error" (by decide)⟩
  unreported h := Session.events_emit_of_ne (s := s.dropBreak.log ..) h _ _

variable {start : Starter} {s t u : Session} {tryBlock catchBlock : Option Pipeline}
  {config : CatchConfig}

/-- How the engine remembers a result: the block that has left a signal stands for its label, and the signal
is the pending one. -/
inductive Remembers : Except ValveFailure (Option Pipeline) → Session → Result → Prop
  | completed {t : Session} : t.pending = none → Remembers (.ok none) t .completed
  | broke {block : Pipeline} {t : Session} {signal : Signal} : t.pending = some signal →
    Remembers (.ok (some block)) t (.broke signal block.label)
  | failed {failure : ValveFailure} {t : Session} : Remembers (.error failure) t (.failed failure)

theorem comes_or_cut (start : Starter) (block : Pipeline) (s : Session) :
    (∃ result t, Comes (Walk.runPipeline start) block s result t) ∨
      ∃ t, (Walk.runPipeline start block).run s = .exhausted t := by
  cases hrun : (Walk.runPipeline start block).run s with
  | answered ended t =>
    rcases Walk.pending_runPipeline hrun with ⟨rfl, hpending⟩ | ⟨rfl, signal, hpending⟩
    · exact .inl ⟨_, t, .completed hrun hpending⟩
    · exact .inl ⟨_, t, .broke hrun hpending⟩
  | raised failure t => exact .inl ⟨_, t, .failed hrun⟩
  | exhausted t => exact .inr ⟨t, rfl⟩

theorem Comes.runBlock {ε : Type} {walk : Walker} {block : Pipeline} {result : Result}
    (h : Comes walk block s result t) : ∃ ending,
      (Guarded.runBlock walk block : Run ε _).run s = .answered ending t ∧
        Remembers ending t result := by
  cases h with
  | completed hrun hpending =>
    refine ⟨.ok none, ?_, .completed hpending⟩
    simp only [Guarded.runBlock, Run.run_bind, Run.run_attempt, hrun, Run.run_pure]
  | broke hrun hpending =>
    refine ⟨.ok (some block), ?_, .broke hpending⟩
    simp only [Guarded.runBlock, Run.run_bind, Run.run_attempt, hrun, Run.run_pure]
  | @failed _ failure hrun =>
    refine ⟨.error failure, ?_, .failed⟩
    simp only [Guarded.runBlock, Run.run_bind, Run.run_attempt, hrun, Run.run_pure]

theorem Leaves.runProtected {ε : Type} {walk : Walker} {result : Result} (hs : s.pending = none)
    (h : Leaves walk catchBlock config s tryBlock result t) : ∃ ending,
      (Guarded.runProtected walk tryBlock catchBlock config : Run ε _).run s = .answered ending t ∧
        Remembers ending t result := by
  cases h with
  | absent => exact ⟨.ok none, rfl, .completed hs⟩
  | kept hcomes huncaught =>
    obtain ⟨ending, hrun, hremembers⟩ := hcomes.runBlock (ε := ε)
    refine ⟨ending, ?_, hremembers⟩
    rw [Guarded.runProtected, Run.run_bind, hrun]
    cases hremembers with
    | completed => rfl
    | broke => rfl
    | failed => rw [huncaught _ rfl]; rfl
  | caught hfailed hhandler hcomes =>
    obtain ⟨ending, hrun, hremembers⟩ := hcomes.runBlock (ε := ε)
    obtain ⟨_, hfirst, hfailure⟩ := hfailed.runBlock (ε := ε)
    cases hfailure
    refine ⟨ending, ?_, hremembers⟩
    rw [Guarded.runProtected, Run.run_bind, hfirst, hhandler]
    exact hrun

theorem Stands.settle {signal : Signal} {scope : Option String} {ending : Ending ValveFailure Unit}
    (h : Stands start u (.broke signal scope) ending) (ht : t.pending = some signal)
    (hrest : t.dropBreak = u.dropBreak) :
    (Walk.settle scope >>= Walk.resumeAfter start).run t = ending := by
  cases h with
  | absorbed hrule =>
    have hsame : t.absorbBreak signal scope = u.absorbBreak signal scope := by
      simp only [Session.absorbBreak, hrest]
    simp only [Walk.settle, Run.run_bind, Run.run_act, Session.settle_of_absorb ht hrule, hsame]
    rfl
  | @passed _ next _ hrule =>
    have hsame : t.passBreak signal next scope = u.passBreak signal next scope := by
      simp only [Session.passBreak, hrest]
    simp only [Walk.settle, Run.run_bind, Run.run_act, Session.settle_of_propagate ht hrule, hsame]
    rfl

theorem Remembers.conclude {memory : Except ValveFailure (Option Pipeline)} {result : Result}
    (h : Remembers memory t result) {ending : Ending ValveFailure Unit}
    (hstands : Stands start u result ending) :
    (Guarded.conclude start memory t.pending).run u = ending := by
  cases h with
  | completed hpending =>
    cases hstands
    rw [hpending]
    rfl
  | broke hpending =>
    rw [hpending]
    exact hstands.settle rfl rfl
  | failed =>
    cases hstands
    rfl

theorem exists_stands (start : Starter) (s : Session) (result : Result) :
    ∃ ending, Stands start s result ending := by
  cases result with
  | completed => exact ⟨_, .completed⟩
  | failed failure => exact ⟨_, .failed⟩
  | broke signal scope =>
    cases hrule : signal.atBoundary scope with
    | absorb => exact ⟨_, .absorbed hrule⟩
    | propagate next => exact ⟨_, .passed hrule⟩

theorem Ends.run {finallyBlock : Option Pipeline} (hs : s.pending = none)
    {ending : Ending ValveFailure Unit}
    (h : Ends start tryBlock catchBlock config s finallyBlock ending) :
    (Guarded.run start tryBlock catchBlock finallyBlock config).run s = ending := by
  rw [run_eq_finish, Run.run_bind]
  cases h with
  | withoutLast hleaves hstands =>
    obtain ⟨memory, hrun, hremembers⟩ := hleaves.runProtected (ε := ValveFailure) hs
    rw [hrun]
    exact hremembers.conclude hstands
  | broughtBack hleaves hlast hstands =>
    obtain ⟨memory, hrun, hremembers⟩ := hleaves.runProtected (ε := ValveFailure) hs
    cases hlast with
    | completed hwalk hpending =>
      simp only [hrun, finish, Run.run_bind, Run.run_act, hwalk]
      exact hremembers.conclude hstands
  | overruled hleaves hlast hother hstands =>
    obtain ⟨memory, hrun, hremembers⟩ := hleaves.runProtected (ε := ValveFailure) hs
    cases hlast with
    | completed hwalk hpending => exact absurd rfl hother
    | broke hwalk hpending =>
      simp only [hrun, finish, Run.run_bind, Run.run_act, hwalk]
      exact hstands.settle hpending rfl
    | failed hwalk =>
      cases hstands
      simp only [hrun, finish, Run.run_bind, Run.run_act, hwalk]
  | cutFirst hblock hwalk =>
    simp only [hblock, Guarded.runProtected, Guarded.runBlock, Run.run_bind, Run.run_attempt, hwalk]
  | cutHandler hblock hfailed hhandler hwalk =>
    cases hfailed with
    | failed hfirst =>
      simp only [hblock, hhandler, Guarded.runProtected, Guarded.runBlock, Run.run_bind,
        Run.run_attempt, Run.run_update, Run.run_pure, hfirst, hwalk]
  | cutLast hleaves hwalk =>
    obtain ⟨memory, hrun, hremembers⟩ := hleaves.runProtected (ε := ValveFailure) hs
    simp only [hrun, finish, Run.run_bind, Run.run_act, hwalk]

theorem leaves_or_cut (start : Starter) (tryBlock catchBlock : Option Pipeline) (config : CatchConfig)
    (s : Session) :
    (∃ result t, Leaves (Walk.runPipeline start) catchBlock config s tryBlock result t) ∨
      ∀ finallyBlock, ∃ t, Ends start tryBlock catchBlock config s finallyBlock (.exhausted t) := by
  cases tryBlock with
  | none => exact .inl ⟨_, s, .absent⟩
  | some block =>
    rcases comes_or_cut start block s with ⟨result, t, hcomes⟩ | ⟨t, hcut⟩
    case inr => exact .inr fun _ => ⟨t, .cutFirst rfl hcut⟩
    cases result with
    | completed => exact .inl ⟨_, t, .kept hcomes nofun⟩
    | broke signal scope => exact .inl ⟨_, t, .kept hcomes nofun⟩
    | failed failure =>
      cases catchBlock with
      | none => exact .inl ⟨_, t, .kept hcomes fun _ _ => rfl⟩
      | some handler =>
        rcases comes_or_cut start handler (catching config failure t) with
          ⟨result, u, hhandled⟩ | ⟨u, hcut⟩
        · exact .inl ⟨result, u, .caught hcomes rfl hhandled⟩
        · exact .inr fun _ => ⟨u, .cutHandler rfl hcomes rfl hcut⟩

/-- Some rule applies. -/
theorem exists_ends (start : Starter) (tryBlock catchBlock finallyBlock : Option Pipeline)
    (config : CatchConfig) (s : Session) :
    ∃ ending, Ends start tryBlock catchBlock config s finallyBlock ending := by
  rcases leaves_or_cut start tryBlock catchBlock config s with ⟨result, t, hleaves⟩ | hcut
  case inr =>
    obtain ⟨t, ht⟩ := hcut finallyBlock
    exact ⟨_, ht⟩
  cases finallyBlock with
  | none =>
    obtain ⟨ending, hstands⟩ := exists_stands start t.dropBreak result
    exact ⟨ending, .withoutLast hleaves hstands⟩
  | some block =>
    rcases comes_or_cut start block t.dropBreak with ⟨last, u, hlast⟩ | ⟨u, hcut⟩
    case inr => exact ⟨_, .cutLast hleaves hcut⟩
    by_cases hcompleted : last = .completed
    · subst hcompleted
      obtain ⟨ending, hstands⟩ := exists_stands start u result
      exact ⟨ending, .broughtBack hleaves hlast hstands⟩
    · obtain ⟨ending, hstands⟩ := exists_stands start u last
      exact ⟨ending, .overruled hleaves hlast hcompleted hstands⟩

/-- A guarded valve, begun with no signal pending, as valves are, ends as its rules say and in no other way;
and where they say that a failure is caught, it has been caught. -/
theorem guarded_blocks_law (steps : Nat) (tryBlock catchBlock finallyBlock : Option Pipeline)
    (config : CatchConfig) {s : Session} (hs : s.pending = none) :
    (∀ ending, (Valve.run (steps + 1) (.guarded tryBlock catchBlock finallyBlock config)).run s = ending ↔
      Ends (Valve.run steps) tryBlock catchBlock config s finallyBlock ending) ∧
    ∀ failure t, Caught config failure t (catching config failure t) := by
  constructor
  · intro ending
    constructor
    · rintro rfl
      obtain ⟨ending, hends⟩ :=
        exists_ends (Valve.run steps) tryBlock catchBlock finallyBlock config s
      have hrun := hends.run hs
      rw [← hrun] at hends
      exact hends
    · intro hends
      exact hends.run hs
  · intro failure t
    exact catching_caught config failure t

private def brokenAndFailed : Pipeline :=
  ⟨some "tried", [.scripted "both"
    (.call (.request (.level 0)) fun _ => .raise (.plain { message := "no" }))]⟩

private def breaking : Pipeline :=
  ⟨some "handler", [.breakWith (.level 1)]⟩

private def recording : Pipeline :=
  ⟨none, [.record "last" none]⟩

theorem guarded_blocks_law_of_broken_and_failed :
    let s := Session.start .empty .collect {}
    let valve := Valve.guarded (some brokenAndFailed) (some breaking) (some recording) {}
    let ending := (Valve.run 6 valve).run s
    s.pending = none ∧
    Ends (Valve.run 5) (some brokenAndFailed) (some breaking) {} s (some recording) ending ∧
    ending.session.pending = some (.level 0) ∧ ending.session.transcript.journal = #["last"] ∧
    ending.session.attributes.get? "exception" =
      some (ValveFailure.failed "both" { message := "no" }).toJson := by
  intro s valve ending
  refine ⟨rfl, ?_, rfl, rfl, rfl⟩
  exact ((guarded_blocks_law 5 (some brokenAndFailed) (some breaking) (some recording) {}
    (s := s) rfl).1 ending).mp rfl

end ValvePipeline.Guarded
