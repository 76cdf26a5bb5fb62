import ValvePipeline.Proofs.Accounts
import ValvePipeline.Proofs.ExchangedRuns
import ValvePipeline.Proofs.Instrumentation
import ValvePipeline.Proofs.LabelBreaks

/-!
Valves that stand for others. In two pipelines of built-in valves some of the second one stand for those of the
first one, at any depth. If the own works of such valves keep the accounts of two runs in their relation, then
whole runs do; the second one may need more steps for its valves.
-/

set_option autoImplicit false
set_option relaxedAutoImplicit false

namespace ValvePipeline

/-- Related pipelines are so valve by valve: the second valve stands for the first one, or they are the same but
for their children, and these are related. -/
def Pipeline.Substitutes (stands : Valve → Valve → Prop) (related : Pipeline → Pipeline → Prop) : Prop :=
  ∀ p q, related p q → q.label = p.label ∧
    List.Forall₂ (fun v w => stands v w ∨ v.Like related w) p.valves q.valves

theorem Valve.Like.symm {related : Pipeline → Pipeline → Prop} {v w : Valve} (h : v.Like related w) :
    w.Like (flip related) v := by
  have blocks {a b : Option Pipeline} (hab : Option.Rel related a b) :
      Option.Rel (flip related) b a := by
    cases hab with
    | none => exact .none
    | some hblock => exact .some hblock
  have branches {bs cs : List Branch} (hbs : List.Forall₂ (Branch.Like related) bs cs) :
      List.Forall₂ (Branch.Like (flip related)) cs bs := by
    induction hbs with
    | nil => exact .nil
    | cons hbranch _ ih =>
      cases hbranch with
      | intro hblock => exact .cons (.intro hblock) ih
  cases h with
  | leaf hleaf => exact .leaf hleaf
  | loop hbody => exact .loop hbody
  | whileLoop hbody => exact .whileLoop hbody
  | ifThen hblock => exact .ifThen hblock
  | choose hbranches hlast => exact .choose (branches hbranches) (blocks hlast)
  | sub hblock => exact .sub hblock
  | guarded htry hcatch hfinally => exact .guarded (blocks htry) (blocks hcatch) (blocks hfinally)

theorem Pipeline.Substitutes.symm {stands : Valve → Valve → Prop}
    {related : Pipeline → Pipeline → Prop} (h : Substitutes stands related) :
    Substitutes (flip stands) (flip related) := by
  intro p q hpq
  obtain ⟨hlabel, hvalves⟩ := h q p hpq
  refine ⟨hlabel.symm, hvalves.flip.imp fun v w hvw => ?_⟩
  exact hvw.imp_right Valve.Like.symm

structure Account.Comparison.Admits (x : Account.Comparison) (stands : Valve → Valve → Prop)
    (slack : Nat) : Prop where
  builtIn {v w : Valve} : stands v w →
    (∀ name script, v ≠ .scripted name script) ∧ ∀ name script, w ≠ .scripted name script
  own {v w : Valve} {steps more : Nat} {s t : Session} : stands v w → steps + slack ≤ more →
    s.pending = none → s.Abreast x t →
    ((Flat.work.own (Walk.runPipeline (Valve.run steps)) steps v).run s).Matches (Session.Abreast x)
      ((Flat.work.own (Walk.runPipeline (Valve.run more)) more w).run t)

section

variable {x : Account.Comparison} {stands : Valve → Valve → Prop} {slack : Nat}
  {related : Pipeline → Pipeline → Prop}

/-- With this allowance of steps the rests of walks go along with each other, if the second run has so many
steps more. -/
def KeepsAbreast (x : Account.Comparison) (stands : Valve → Valve → Prop) (slack : Nat)
    (related : Pipeline → Pipeline → Prop) (steps : Nat) : Prop :=
  ∀ (more : Nat) (vs ws : List Valve) (s t : Session), steps + slack ≤ more →
    List.Forall₂ (fun v w => stands v w ∨ v.Like related w) vs ws → s.HasLeft vs → t.HasLeft ws →
    s.Abreast x t → ((Walk.proceed (Valve.run steps)).run s).Matches (Session.Abreast x)
      ((Walk.proceed (Valve.run more)).run t)

namespace KeepsAbreast

variable {steps more : Nat}

theorem walk (h : KeepsAbreast x stands slack related steps)
    (hrelated : Pipeline.Substitutes stands related) (hmore : steps + slack ≤ more) {p q : Pipeline}
    (hpq : related p q) : (Walk.runPipeline (Valve.run steps) p).Along (Session.Abreast x)
      (Walk.runPipeline (Valve.run more) q) := by
  intro s t hst
  have shallow := Session.Abreast.shallow x
  exact shallow.runPipeline (h more p.valves q.valves _ _ hmore (hrelated p q hpq).2
    (s.hasLeft_enterPipeline p) (t.hasLeft_enterPipeline q) (shallow.enterPipeline hst p q))

theorem own (h : KeepsAbreast x stands slack related steps) (hx : x.Admits stands slack)
    (hrelated : Pipeline.Substitutes stands related) (hmore : steps + slack ≤ more) {v w : Valve}
    (hvw : stands v w ∨ v.Like related w) {s t : Session} (hpending : s.pending = none)
    (hst : s.Abreast x t) :
    ((Flat.work.own (Walk.runPipeline (Valve.run steps)) steps v).run s).Matches (Session.Abreast x)
      ((Flat.work.own (Walk.runPipeline (Valve.run more)) more w).run t) := by
  rcases hvw with hstands | hlike
  · exact hx.own hstands hmore hpending hst
  · have walks : v.Like (Parallel.Walks (fun _ _ y z => y.Along (Session.Abreast x) z)
        (Walk.runPipeline (Valve.run steps)) (Walk.runPipeline (Valve.run more))) w :=
      hlike.imp fun p q _ hpq => ⟨(hrelated p q hpq).1, h.walk hrelated hmore hpq⟩
    exact (Session.Abreast.shallow x).parallel.own walks (Nat.le_of_add_right_le hmore) s t hst

theorem next (h : KeepsAbreast x stands slack related steps) (hx : x.Admits stands slack)
    (hrelated : Pipeline.Substitutes stands related) (hmore : steps + slack ≤ more) {v w : Valve}
    {vs ws : List Valve} {s t : Session} (hvw : stands v w ∨ v.Like related w)
    (hvalves : List.Forall₂ (fun v w => stands v w ∨ v.Like related w) vs ws)
    (hs : s.HasLeft (v :: vs)) (ht : t.HasLeft (w :: ws)) (hpending : s.pending = none)
    (hst : s.Abreast x t) :
    ((Walk.proceed (Valve.run (steps + 1))).run s).Matches (Session.Abreast x)
      ((Walk.proceed (Valve.run (more + 1))).run t) := by
  obtain ⟨f, outer, hsframes, hsleft, hsrun⟩ :=
    Walk.run_proceed_of_left_cons (Valve.run (steps + 1)) hpending hs
  obtain ⟨g, others, htframes, htleft, htrun⟩ :=
    Walk.run_proceed_of_left_cons (Valve.run (more + 1)) (hst.pending.trans hpending) ht
  have builtIn : (∀ name script, v ≠ .scripted name script) ∧
      ∀ name script, w ≠ .scripted name script := hvw.elim hx.builtIn (·.builtIn)
  have shallow := Session.Abreast.shallow x
  have owns := h.own hx hrelated hmore hvw (s := s.enterValve f outer f.next) hpending
    (shallow.enterValve hst hsframes htframes f.next g.next)
  rw [hsrun, htrun]
  refine shallow.valves builtIn.1 builtIn.2 owns (fun u u' hu hu' hafter => ?_) ..
  exact h more vs ws u u' hmore hvalves (hsleft.of_frames_eq hu) (htleft.of_frames_eq hu') hafter

end KeepsAbreast

/-- With every allowance the runs keep abreast, by induction on that of the first one. -/
theorem keepsAbreast (hx : x.Admits stands slack) (hrelated : Pipeline.Substitutes stands related)
    (steps : Nat) : KeepsAbreast x stands slack related steps := by
  induction steps using Nat.strongRecOn with
  | ind steps ih =>
    intro more vs ws s t hmore hvalves hs ht hst
    cases hpending : s.pending with
    | some signal =>
      have hs' : s.pending.isSome = true := by rw [hpending]; rfl
      have ht' : t.pending.isSome = true := by rw [hst.pending, hpending]; rfl
      rw [Walk.run_proceed_of_pending _ hs', Walk.run_proceed_of_pending _ ht']
      exact .answered hst
    | none =>
      cases hvalves with
      | nil =>
        rw [Walk.run_proceed_of_left_nil _ hs, Walk.run_proceed_of_left_nil _ ht]
        exact .answered hst
      | cons hvw hvalves =>
        cases steps with
        | zero =>
          obtain ⟨f, outer, -, -, hrun⟩ := Walk.run_proceed_of_left_cons (Valve.run 0) hpending hs
          rw [hrun]
          exact .cut
        | succ steps =>
          obtain ⟨fewer, rfl⟩ : ∃ fewer, more = fewer + 1 := ⟨more - 1, by omega⟩
          exact (ih steps (Nat.lt_succ_self steps)).next hx hrelated (by omega) hvw hvalves hs ht
            hpending hst

/-- What a run of the first session comes to, one of the second session comes to if it has so many steps more,
and the sessions that they leave are so related. -/
def Session.LeadsAlong (slack : Nat) (related : Session → Session → Prop) (s t : Session) : Prop :=
  ∀ (steps : Nat) (result : Except RunFailure Outcome) (u : Session),
    s.invoke steps = .answered result u → ∀ more, steps + slack ≤ more →
      ∃ v, t.invoke more = .answered result v ∧ related u v

theorem Session.LeadsAlong.imp {related weaker : Session → Session → Prop} {s t : Session}
    (h : s.LeadsAlong slack related t) (hweaker : ∀ u v, related u v → weaker u v) :
    s.LeadsAlong slack weaker t := by
  intro steps result u hrun more hmore
  obtain ⟨v, hv, hafter⟩ := h steps result u hrun more hmore
  exact ⟨v, hv, hweaker u v hafter⟩

theorem Session.Abreast.leadsAlong (hx : x.Admits stands slack)
    (hrelated : Pipeline.Substitutes stands related) {s t : Session} (hst : s.Abreast x t)
    (hpipelines : related s.pipeline t.pipeline) : s.LeadsAlong slack (Session.Abreast x) t := by
  intro steps result u hrun more hmore
  have walks := (keepsAbreast hx hrelated steps).walk hrelated hmore hpipelines
  have runs := (Session.Abreast.shallow x).invokes (ε := Empty) hst walks
  rw [show (Walk.invoke (Walk.runPipeline (Valve.run steps))).run s = .answered result u from hrun]
    at runs
  exact runs.of_answered

end

/-! ## Exchanged valves -/

def Exchange.only (stands : Valve → Valve → Prop) : Exchange where
  swaps := stands
  halts _ _ := False
  entries _ := False
  events _ := False
  lines _ := False
  strayed _ _ := False
  lasting h := h.elim

theorem Exchange.only_lawful (stands : Valve → Valve → Prop) : (only stands).Lawful where
  breaks := nofun
  overruled h := by
    obtain ⟨_, _, hhalts⟩ := h.exists_halts
    exact hhalts.elim

section

variable {stands : Valve → Valve → Prop}

theorem Pipeline.Exchanged.of_valves {x : Exchange} {halting : Bool} {p q : Pipeline}
    (hlabel : q.label = p.label) (h : List.Forall₂ (Valve.Exchanged x halting) p.valves q.valves) :
    p.Exchanged x halting q := by
  obtain ⟨hlength, hvalves⟩ := List.forall₂_iff_zip.mp h
  exact .intro hlabel hlength hvalves

def Pipeline.Respelled (stands : Valve → Valve → Prop) (p q : Pipeline) : Prop :=
  p.BuiltIn ∧ ∃ halting, p.Exchanged (Exchange.only stands) halting q

theorem Block.Exchanged.respelled {p q : Pipeline} (h : Block.Exchanged (Exchange.only stands) p q)
    (hbuiltIn : p.BuiltIn) : p.Respelled stands q := by
  cases h with
  | intro hpq => exact ⟨hbuiltIn, _, hpq⟩

theorem Block.Exchanged.respelled? {block other : Option Pipeline}
    (h : Option.Rel (Block.Exchanged (Exchange.only stands)) block other)
    (hbuiltIn : ∀ p ∈ block, p.BuiltIn) : Option.Rel (Pipeline.Respelled stands) block other := by
  cases h with
  | none => exact .none
  | some hblock => exact .some (hblock.respelled (hbuiltIn _ rfl))

theorem Branch.Exchanged.like {bs cs : List Branch}
    (h : List.Forall₂ (Branch.Exchanged (Exchange.only stands)) bs cs)
    (hbuiltIn : ∀ b ∈ bs, b.block.BuiltIn) :
    List.Forall₂ (Branch.Like (Pipeline.Respelled stands)) bs cs := by
  induction h with
  | nil => exact .nil
  | cons hbranch _ ih =>
    obtain ⟨hblock, hblocks⟩ := List.forall_mem_cons.mp hbuiltIn
    cases hbranch with
    | intro hpq => exact .cons (.intro (hpq.respelled hblock)) (ih hblocks)

theorem Valve.Exchanged.like {halting : Bool} {v w : Valve}
    (h : v.Exchanged (Exchange.only stands) halting w) (hv : v.BuiltIn) :
    stands v w ∨ v.Like (Pipeline.Respelled stands) w := by
  cases h with
  | leaf hleaf => exact .inr (.leaf hleaf)
  | scripted =>
    cases hv with
    | intro hscript _ => exact absurd rfl (hscript _ _)
  | swap hstands => exact .inl hstands
  | halt hhalts => exact hhalts.elim
  | loop hpq => exact .inr (.loop ⟨hv.child List.mem_cons_self, _, hpq⟩)
  | whileLoop hpq => exact .inr (.whileLoop ⟨hv.child List.mem_cons_self, _, hpq⟩)
  | ifThen hblock => exact .inr (.ifThen (hblock.respelled (hv.child List.mem_cons_self)))
  | choose hbranches hlast =>
    exact .inr (.choose (Branch.Exchanged.like hbranches fun _ hb => hv.branch hb)
      (Block.Exchanged.respelled? hlast fun _ hp => hv.otherwise hp))
  | sub hblock => exact .inr (.sub (hblock.respelled (hv.child List.mem_cons_self)))
  | guarded htry hcatch hfinally =>
    exact .inr (.guarded (Block.Exchanged.respelled? htry fun _ hp => hv.guarded (.inl hp))
      (Block.Exchanged.respelled? hcatch fun _ hp => hv.guarded (.inr (.inl hp)))
      (Block.Exchanged.respelled? hfinally fun _ hp => hv.guarded (.inr (.inr hp))))

theorem Pipeline.respelled_substitutes (stands : Valve → Valve → Prop) :
    Pipeline.Substitutes stands (Pipeline.Respelled stands) := by
  rintro p q ⟨hbuiltIn, halting, hpq⟩
  refine ⟨hpq.label_eq, ?_⟩
  obtain ⟨hlength, hvalves⟩ := List.forall₂_iff_zip.mp hpq.valves
  refine List.forall₂_iff_zip.mpr ⟨hlength, fun {v w} hvw => (hvalves hvw).like ?_⟩
  cases hbuiltIn with
  | intro hbuilt => exact hbuilt v (List.of_mem_zip hvw).1

end

theorem Session.abreast_of_exchanged {x : Account.Comparison} {stands : Valve → Valve → Prop}
    {s : Session} {q : Pipeline} (hq : s.pipeline.Exchanged (.only stands) false q)
    (hsink : s.sink = x.sink) (hsame : x.holds s.account s.account) :
    s.Abreast x { s with pipeline := q } where
  identity := rfl
  label := hq.label_eq
  attributes := rfl
  pending := rfl
  depth := rfl
  invoked := rfl
  journal := rfl
  sink := hsink
  sink_eq := rfl
  account := hsame

end ValvePipeline
