import ValvePipeline.Proofs.Exchange

/-!
The own work of two valves that are the same but for their children. Both works are put together in the
same way from the walks of the children and from steps that the engine takes. So a relation between
computations that goes along with these steps holds between the works as soon as it holds between the
walks.
-/

set_option autoImplicit false
set_option relaxedAutoImplicit false

namespace ValvePipeline

inductive Branch.Like (related : Pipeline → Pipeline → Prop) : Branch → Branch → Prop
  | intro {condition : Condition} {p q : Pipeline} : related p q →
    Branch.Like related ⟨condition, p⟩ ⟨condition, q⟩

theorem Branch.Like.imp_all {related weaker : Pipeline → Pipeline → Prop} {bs cs : List Branch}
    (h : List.Forall₂ (Branch.Like related) bs cs)
    (hweaker : ∀ p q, q ∈ cs.map (·.block) → related p q → weaker p q) :
    List.Forall₂ (Branch.Like weaker) bs cs := by
  induction h with
  | nil => exact .nil
  | cons hbranch _ ih =>
    cases hbranch with
    | intro hblock =>
      refine .cons (.intro (hweaker _ _ List.mem_cons_self hblock)) (ih fun p q hq => ?_)
      exact hweaker p q (List.mem_cons_of_mem _ hq)

/-- The same valves but for their children, which are so related. Scripted valves are left out. -/
inductive Valve.Like (related : Pipeline → Pipeline → Prop) : Valve → Valve → Prop
  | leaf {v : Valve} : v.isLeaf = true → Valve.Like related v v
  | loop {p q : Pipeline} {config : LoopConfig} : related p q →
    Valve.Like related (.loop p config) (.loop q config)
  | whileLoop {condition : Condition} {p q : Pipeline} {config : LoopConfig} : related p q →
    Valve.Like related (.whileLoop condition p config) (.whileLoop condition q config)
  | ifThen {condition : Condition} {p q : Pipeline} : related p q →
    Valve.Like related (.ifThen condition p) (.ifThen condition q)
  | choose {bs cs : List Branch} {last other : Option Pipeline} :
    List.Forall₂ (Branch.Like related) bs cs → Option.Rel related last other →
    Valve.Like related (.choose bs last) (.choose cs other)
  | sub {p q : Pipeline} : related p q → Valve.Like related (.sub p) (.sub q)
  | guarded {tryBlock tryOther catchBlock catchOther finallyBlock finallyOther : Option Pipeline}
    {config : CatchConfig} : Option.Rel related tryBlock tryOther →
    Option.Rel related catchBlock catchOther → Option.Rel related finallyBlock finallyOther →
    Valve.Like related (.guarded tryBlock catchBlock finallyBlock config)
      (.guarded tryOther catchOther finallyOther config)

namespace Valve.Like

variable {related : Pipeline → Pipeline → Prop} {v w : Valve}

theorem builtIn (h : v.Like related w) :
    (∀ name script, v ≠ .scripted name script) ∧ ∀ name script, w ≠ .scripted name script := by
  cases h with
  | leaf hleaf =>
    have unscripted (name : String) (script : Script) : v ≠ .scripted name script := by
      rintro rfl
      cases hleaf
    exact ⟨unscripted, unscripted⟩
  | _ => exact ⟨nofun, nofun⟩

theorem imp {weaker : Pipeline → Pipeline → Prop} (h : v.Like related w)
    (hweaker : ∀ p q, q ∈ w.children → related p q → weaker p q) : v.Like weaker w := by
  have blocks {a b : Option Pipeline} (hab : Option.Rel related a b)
      (hmem : ∀ q ∈ b, q ∈ w.children) : Option.Rel weaker a b := by
    cases hab with
    | none => exact .none
    | some hblock => exact .some (hweaker _ _ (hmem _ rfl) hblock)
  cases h with
  | leaf hleaf => exact .leaf hleaf
  | loop hbody => exact .loop (hweaker _ _ List.mem_cons_self hbody)
  | whileLoop hbody => exact .whileLoop (hweaker _ _ List.mem_cons_self hbody)
  | ifThen hblock => exact .ifThen (hweaker _ _ List.mem_cons_self hblock)
  | @choose bs cs last other hbranches hlast =>
    refine .choose ?_ (blocks hlast fun q hq => ?_)
    · exact Branch.Like.imp_all hbranches fun p q hq => hweaker p q (List.mem_append_left _ hq)
    · exact List.mem_append_right _ (Option.mem_toList.mpr hq)
  | sub hblock => exact .sub (hweaker _ _ List.mem_cons_self hblock)
  | guarded htry hcatch hfinally =>
    refine .guarded (blocks htry fun q hq => ?_) (blocks hcatch fun q hq => ?_)
      (blocks hfinally fun q hq => ?_)
    · simp [Valve.children, Option.mem_def.mp hq]
    · simp [Valve.children, Option.mem_def.mp hq]
    · simp [Valve.children, Option.mem_def.mp hq]

end Valve.Like

/-- A relation between computations that holds when the parts of both are so related, and that holds
between each step that the engine takes for a valve and itself. A computation whose allowance is spent
is related to every other one. -/
structure Parallel (P : (ε α : Type) → Run ε α → Run ε α → Prop) : Prop where
  pure {ε α : Type} (a : α) : P ε α (Pure.pure a) (Pure.pure a)
  raise {ε α : Type} (e : ε) : P ε α (Run.raise e) (Run.raise e)
  outOfSteps {ε α : Type} (y : Run ε α) : P ε α Run.outOfSteps y
  bind {ε α β : Type} {x y : Run ε α} {f g : α → Run ε β} : P ε α x y →
    (∀ a, P ε β (f a) (g a)) → P ε β (x >>= f) (y >>= g)
  attempt {ε δ α : Type} {x y : Run ε α} : P ε α x y →
    P δ (Except ε α) (Run.attempt x) (Run.attempt y)
  log {ε : Type} (severity : Severity) (message : Session → String)
    (fields : Session → List (String × Json)) :
    P ε Unit (Run.update fun s => s.log severity (message s) (fields s))
      (Run.update fun s => s.log severity (message s) (fields s))
  record {ε : Type} (name : String) (counter : Option String) :
    P ε Unit (Run.update fun s => s.note (Valve.recordEntry name counter s.attributes))
      (Run.update fun s => s.note (Valve.recordEntry name counter s.attributes))
  set {ε : Type} (key : String) (value : Json) :
    P ε Unit (Run.update (·.setAttribute key value)) (Run.update (·.setAttribute key value))
  ask {ε : Type} (condition : Condition) :
    P ε Bool (Run.act (·.ask condition)) (Run.act (·.ask condition))
  request {ε : Type} (signal : Signal) :
    P ε Unit (Run.update (·.requestBreak signal)) (Run.update (·.requestBreak signal))
  settle {ε : Type} (label : Option String) :
    P ε Settlement (Walk.settle label) (Walk.settle label)
  setAside {ε : Type} : P ε (Option Signal) (Run.act fun s => (s.pending, s.dropBreak))
    (Run.act fun s => (s.pending, s.dropBreak))
  bringBack {ε : Type} (signal : Signal) : P ε Unit (Run.update fun s => { s with pending := some signal })
    (Run.update fun s => { s with pending := some signal })
  begin {ε : Type} (config : LoopConfig) (count : Nat) :
    P ε Unit (Run.update (Loop.begin config count)) (Run.update (Loop.begin config count))
  catching {ε : Type} (config : CatchConfig) (failure : ValveFailure) :
    P ε Unit (Run.update (Guarded.catching config failure))
      (Run.update (Guarded.catching config failure))

namespace Parallel

variable {P : (ε α : Type) → Run ε α → Run ε α → Prop} {ε : Type} {walk walk' : Walker}

def Walks (P : (ε α : Type) → Run ε α → Run ε α → Prop) (walk walk' : Walker) (p q : Pipeline) :
    Prop :=
  q.label = p.label ∧ P ValveFailure WalkEnd (walk p) (walk' q)

variable {p q : Pipeline}

theorem runBoundary (h : Parallel P) (hwalk : Walks P walk walk' p q) :
    P ValveFailure Settlement (Walk.runBoundary walk p) (Walk.runBoundary walk' q) := by
  obtain ⟨hlabel, hwalk⟩ := hwalk
  refine h.bind hwalk fun _ => ?_
  rw [hlabel]
  exact h.settle p.label

theorem block (h : Parallel P) (hwalk : Walks P walk walk' p q) :
    P ValveFailure Unit (Flat.block walk p) (Flat.block walk' q) :=
  h.bind (h.runBoundary hwalk) fun _ => h.pure ()

theorem asks (h : Parallel P) (condition : Option Condition) :
    P ValveFailure Bool (Loop.asksForMore condition) (Loop.asksForMore condition) := by
  cases condition with
  | none => exact h.pure true
  | some condition => exact h.ask condition

theorem iterate (h : Parallel P) (hwalk : Walks P walk walk' p q) (condition : Option Condition)
    (config : LoopConfig) {n m : Nat} (hsteps : n ≤ m) (count : Nat) :
    P ValveFailure Unit (Flat.iterate walk condition p config n count)
      (Flat.iterate walk' condition q config m count) := by
  induction n generalizing m count with
  | zero => exact h.outOfSteps _
  | succ n ih =>
    obtain _ | m := m
    · cases hsteps
    refine h.bind (h.asks condition) fun more => ?_
    cases more with
    | false => exact h.log ..
    | true =>
      rw [if_pos rfl, if_pos rfl]
      split
      · exact h.bind (h.log ..) fun _ => h.raise _
      · refine h.bind (h.begin config count) fun _ => ?_
        refine h.bind (h.runBoundary hwalk) fun settlement => ?_
        cases settlement with
        | completed => exact ih (Nat.le_of_succ_le_succ hsteps) (count + 1)
        | absorbed => exact h.pure ()
        | propagated => exact h.pure ()

theorem settles (h : Parallel P) {origin other : Option Pipeline}
    (hlabel : other.bind (·.label) = origin.bind (·.label)) :
    P ValveFailure Unit (Flat.settle origin) (Flat.settle other) := by
  unfold Flat.settle
  rw [hlabel]
  exact h.bind (h.settle _) fun _ => h.pure ()

inductive EndAlike :
    Except ValveFailure (Option Pipeline) → Except ValveFailure (Option Pipeline) → Prop
  | failed (failure : ValveFailure) : EndAlike (.error failure) (.error failure)
  | ended {origin other : Option Pipeline} :
    other.bind (·.label) = origin.bind (·.label) → EndAlike (.ok origin) (.ok other)

theorem conclude (h : Parallel P) {a b : Except ValveFailure (Option Pipeline)}
    (hab : EndAlike a b) (waiting : Option Signal) :
    P ValveFailure Unit (Flat.conclude a waiting) (Flat.conclude b waiting) := by
  cases hab with
  | failed failure => exact h.raise failure
  | ended hlabel =>
    cases waiting with
    | none => exact h.pure ()
    | some signal => exact h.bind (h.bringBack signal) fun _ => h.settles hlabel

theorem runBlock_bind (h : Parallel P) (hwalk : Walks P walk walk' p q) {α : Type}
    {f g : Except ValveFailure (Option Pipeline) → Run ε α}
    (hfg : ∀ a b, EndAlike a b → P ε α (f a) (g b)) :
    P ε α (Guarded.runBlock walk p >>= f) (Guarded.runBlock walk' q >>= g) := by
  obtain ⟨hlabel, hwalk⟩ := hwalk
  simp only [Guarded.runBlock, bind_assoc]
  refine h.bind (h.attempt hwalk) fun ended => ?_
  cases ended with
  | error failure => exact hfg _ _ (.failed failure)
  | ok ended =>
    cases ended with
    | completed => exact hfg _ _ (.ended rfl)
    | unwound => exact hfg _ _ (.ended hlabel)

variable {tryBlock tryOther catchBlock catchOther finallyBlock finallyOther : Option Pipeline}

theorem runProtected_bind (h : Parallel P) (htry : Option.Rel (Walks P walk walk') tryBlock tryOther)
    (hcatch : Option.Rel (Walks P walk walk') catchBlock catchOther) (config : CatchConfig) {α : Type}
    {f g : Except ValveFailure (Option Pipeline) → Run ε α}
    (hfg : ∀ a b, EndAlike a b → P ε α (f a) (g b)) :
    P ε α (Guarded.runProtected walk tryBlock catchBlock config >>= f)
      (Guarded.runProtected walk' tryOther catchOther config >>= g) := by
  cases htry with
  | none => exact hfg _ _ (.ended rfl)
  | some hblock =>
    simp only [Guarded.runProtected, bind_assoc]
    refine h.runBlock_bind hblock fun a b hab => ?_
    cases hab with
    | ended hlabel => exact hfg _ _ (.ended hlabel)
    | failed failure =>
      cases hcatch with
      | none => exact hfg _ _ (.failed failure)
      | some hhandler =>
        simp only [bind_assoc]
        exact h.bind (h.catching config failure) fun _ => h.runBlock_bind hhandler hfg

theorem guarded (h : Parallel P) (htry : Option.Rel (Walks P walk walk') tryBlock tryOther)
    (hcatch : Option.Rel (Walks P walk walk') catchBlock catchOther)
    (hfinally : Option.Rel (Walks P walk walk') finallyBlock finallyOther) (config : CatchConfig) :
    P ValveFailure Unit (Flat.guarded walk tryBlock catchBlock finallyBlock config)
      (Flat.guarded walk' tryOther catchOther finallyOther config) := by
  refine h.runProtected_bind htry hcatch config fun a b hab => ?_
  refine h.bind h.setAside fun waiting => ?_
  cases hfinally with
  | none => exact h.conclude hab waiting
  | some hlast =>
    refine h.bind hlast.2 fun ended => ?_
    cases ended with
    | completed => exact h.conclude hab waiting
    | unwound => exact h.settles hlast.1

theorem select_bind (h : Parallel P) {related : Pipeline → Pipeline → Prop} {bs cs : List Branch}
    {last other : Option Pipeline} (hbranches : List.Forall₂ (Branch.Like related) bs cs)
    (hlast : Option.Rel related last other) {α : Type} {f g : Option Pipeline → Run ValveFailure α}
    (hfg : ∀ a b, Option.Rel related a b → P ValveFailure α (f a) (g b)) :
    P ValveFailure α (Valve.work.select bs last >>= f) (Valve.work.select cs other >>= g) := by
  induction hbranches with
  | nil => exact hfg _ _ hlast
  | cons hbranch _ ih =>
    cases hbranch with
    | intro hblock =>
      simp only [Valve.work.select, bind_assoc]
      refine h.bind (h.ask _) fun answer => ?_
      cases answer with
      | true => exact hfg _ _ (.some hblock)
      | false => exact ih

theorem breakWhen (h : Parallel P) (wanted : Bool) (signal : Signal) :
    P ValveFailure Unit (Flat.breakWhen wanted signal) (Flat.breakWhen wanted signal) := by
  cases wanted with
  | true => exact h.request signal
  | false => exact h.pure ()

theorem leaf (h : Parallel P) {v : Valve} (hv : v.isLeaf = true) (n m : Nat) :
    P ValveFailure Unit (Flat.work.own walk n v) (Flat.work.own walk' m v) := by
  cases v with
  | passThrough => exact h.pure ()
  | setAttribute key value => exact h.set key value
  | log severity message => exact h.log ..
  | record name counter => exact h.record name counter
  | failing name message => exact h.raise _
  | breakWith signal => exact h.request signal
  | exit => exact h.request .exit
  | breakIf condition signal =>
    exact h.bind (h.ask condition) fun answer => h.breakWhen answer signal
  | breakUnless condition signal =>
    exact h.bind (h.ask condition) fun answer => h.breakWhen (!answer) signal
  | _ => cases hv

/-- The own works of valves that are the same but for their children are related if the walks of the
children are. The second one may have the greater allowance. -/
theorem own (h : Parallel P) {v w : Valve} (hvw : v.Like (Walks P walk walk') w) {n m : Nat}
    (hsteps : n ≤ m) :
    P ValveFailure Unit (Flat.work.own walk n v) (Flat.work.own walk' m w) := by
  cases hvw with
  | leaf hleaf => exact h.leaf hleaf n m
  | loop hbody => exact h.iterate hbody none _ hsteps 0
  | whileLoop hbody => exact h.iterate hbody (some _) _ hsteps 0
  | ifThen hblock =>
    refine h.bind (h.ask _) fun answer => ?_
    cases answer with
    | true => exact h.block hblock
    | false => exact h.pure ()
  | choose hbranches hlast =>
    refine h.select_bind hbranches hlast fun a b hab => ?_
    cases hab with
    | none => exact h.pure ()
    | some hblock => exact h.block hblock
  | sub hblock => exact h.block hblock
  | guarded htry hcatch hfinally => exact h.guarded htry hcatch hfinally _

end Parallel

end ValvePipeline
