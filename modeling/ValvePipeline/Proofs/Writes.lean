import ValvePipeline.Proofs.Labels
import ValvePipeline.Proofs.Replay

/-!
What a run does to the attributes. A run of built-in valves sets names that its pipeline writes: those of
its valves that set one, the counters of its loops, and the names under which its guarded valves catch
failures. No other name changes, and none is taken back, however the run or a block of it ends.
-/

set_option autoImplicit false
set_option relaxedAutoImplicit false

namespace ValvePipeline

theorem nameOr_nameOr {default : String} (h : Text.trim default = default) (name : String) :
    nameOr default (nameOr default name) = nameOr default name := by
  by_cases hblank : Text.trim name = ""
  · have hname : nameOr default name = default := by simp [nameOr, hblank]
    rw [hname, nameOr, h]
    split <;> rfl
  · have hname : nameOr default name = Text.trim name := by simp [nameOr, hblank]
    rw [hname, nameOr, Text.trim_trim, if_neg hblank]

theorem LoopConfig.normalized_normalized (c : LoopConfig) :
    c.normalized.normalized = c.normalized := by
  have default : Text.trim "loopCount" = "loopCount" := by decide
  simp only [normalized, nameOr_nameOr default]

theorem CatchConfig.normalized_normalized (c : CatchConfig) :
    c.normalized.normalized = c.normalized := by
  have default : Text.trim "exception" = "exception" := by decide
  simp only [normalized, nameOr_nameOr default]

namespace Attributes

variable {names : String → Prop} {a b c : Attributes}

def SetTo (names : String → Prop) (a b : Attributes) : Prop :=
  ∃ pairs : List (String × Json), (∀ pair ∈ pairs, names pair.1) ∧ b = a.setAll pairs

/-- What setting some of these names makes of a map. -/
structure Written (names : String → Prop) (a b : Attributes) : Prop where
  set : a.SetTo names b
  /-- Every other name holds what it held, or nothing as before. -/
  framed : ∀ key, ¬names key → b.get? key = a.get? key
  /-- No name is removed. -/
  kept : ∀ key, a.has key = true → b.has key = true

namespace SetTo

theorem refl (names : String → Prop) (a : Attributes) : a.SetTo names a :=
  ⟨[], nofun, rfl⟩

theorem single {key : String} (h : names key) (a : Attributes) (value : Json) :
    a.SetTo names (a.set key value) :=
  ⟨[(key, value)], List.forall_mem_singleton.mpr h, rfl⟩

theorem trans (h : a.SetTo names b) (h' : b.SetTo names c) : a.SetTo names c := by
  obtain ⟨pairs, hpairs, rfl⟩ := h
  obtain ⟨more, hmore, rfl⟩ := h'
  refine ⟨pairs ++ more, List.forall_mem_append.mpr ⟨hpairs, hmore⟩, ?_⟩
  exact (List.foldl_append ..).symm

theorem framed (h : a.SetTo names b) {key : String} (hkey : ¬names key) :
    b.get? key = a.get? key := by
  obtain ⟨pairs, hpairs, rfl⟩ := h
  induction pairs generalizing a with
  | nil => rfl
  | cons pair pairs ih =>
    obtain ⟨hpair, hrest⟩ := List.forall_mem_cons.mp hpairs
    have hne : key ≠ pair.1 := fun heq => hkey (heq ▸ hpair)
    have first : (a.set pair.1 pair.2).get? key = a.get? key := by rw [get?_set, if_neg hne]
    exact (ih hrest).trans first

theorem kept (h : a.SetTo names b) {key : String} (hkey : a.has key = true) :
    b.has key = true := by
  obtain ⟨pairs, hpairs, rfl⟩ := h
  induction pairs generalizing a with
  | nil => exact hkey
  | cons pair pairs ih =>
    have hrest := (List.forall_mem_cons.mp hpairs).2
    have first : (a.set pair.1 pair.2).has key = true := by
      rw [has, get?_set]
      split
      · rfl
      · exact hkey
    exact ih first hrest

theorem written (h : a.SetTo names b) : a.Written names b :=
  ⟨h, fun _ hkey => h.framed hkey, fun _ hkey => h.kept hkey⟩

end SetTo

end Attributes

def Valve.written : Valve → List String
  | .setAttribute key _ => [key]
  | .loop _ config => [config.normalized.counter]
  | .whileLoop _ _ config => [config.normalized.counter]
  | .guarded (some _) (some _) _ config => [config.normalized.exceptionName]
  | _ => []

mutual

/-- A valve of the pipeline, however deep, sets the name. -/
inductive Pipeline.Writes : Pipeline → String → Prop
  | intro {p : Pipeline} {v : Valve} {key : String} : v ∈ p.valves → Valve.Writes v key →
    Pipeline.Writes p key

inductive Valve.Writes : Valve → String → Prop
  | own {v : Valve} {key : String} : key ∈ v.written → Valve.Writes v key
  | child {v : Valve} {p : Pipeline} {key : String} : p ∈ v.children → Pipeline.Writes p key →
    Valve.Writes v key

end

def Deed.SetsIn (names : String → Prop) : Deed → Prop
  | .set key => names key
  | _ => False

/-- All that a valve does of its own is to set its names: when it was built, they were normalized. -/
theorem Valve.Built.deeds_written {v : Valve} (h : v.Built)
    (hscript : ∀ name script, v ≠ .scripted name script) {d : Deed} (hd : d ∈ v.deeds) :
    d.SetsIn (· ∈ v.written) := by
  cases h with
  | leaf hleaf =>
    cases v with
    | setAttribute key value =>
      obtain rfl := List.mem_singleton.mp hd
      exact List.mem_cons_self
    | guarded tryBlock catchBlock finallyBlock config =>
      cases tryBlock <;> simp_all [deeds, settings, children]
    | _ => simp_all [deeds, settings, children]
  | @loop body config _ _ hbuild =>
    cases body with
    | none => cases hbuild
    | some body =>
      obtain rfl := Except.ok.inj hbuild
      obtain rfl := List.mem_singleton.mp hd
      simp [Deed.SetsIn, Setting.key, written, LoopConfig.normalized_normalized]
  | @whileLoop body condition config _ _ hbuild =>
    cases body with
    | none => cases hbuild
    | some body =>
      cases condition with
      | none => cases hbuild
      | some condition =>
        obtain rfl := Except.ok.inj hbuild
        obtain rfl := List.mem_singleton.mp hd
        simp [Deed.SetsIn, Setting.key, written, LoopConfig.normalized_normalized]
  | @ifThen condition block _ _ hbuild =>
    cases condition with
    | none => cases hbuild
    | some condition =>
      cases block with
      | none => cases hbuild
      | some block =>
        obtain rfl := Except.ok.inj hbuild
        cases hd
  | @choose b _ _ _ hbuild =>
    dsimp only [ChooseBuilder.build] at hbuild
    split at hbuild
    · obtain rfl := Except.ok.inj hbuild
      cases hd
    · cases hbuild
  | @sub pipeline _ _ hbuild =>
    cases pipeline with
    | none => cases hbuild
    | some pipeline =>
      obtain rfl := Except.ok.inj hbuild
      cases hd
  | @guarded tryBlock catchBlock finallyBlock config =>
    cases tryBlock <;> cases catchBlock <;>
      simp_all [Valve.buildGuarded, deeds, settings, Setting.key, written, Deed.SetsIn,
        CatchConfig.normalized_normalized]

structure Pipeline.WritesIn (names : String → Prop) (p : Pipeline) : Prop where
  built : p.Built
  builtIn : p.BuiltIn
  writes : ∀ key, p.Writes key → names key

structure Valve.WritesIn (names : String → Prop) (v : Valve) : Prop where
  built : v.Built
  builtIn : v.BuiltIn
  writes : ∀ key, v.Writes key → names key

variable {names : String → Prop}

theorem Pipeline.WritesIn.valve {p : Pipeline} (h : p.WritesIn names) {v : Valve}
    (hv : v ∈ p.valves) : v.WritesIn names where
  built := h.built.valve hv
  builtIn := by
    obtain ⟨hvalves⟩ := h.builtIn
    exact hvalves v hv
  writes key hkey := h.writes key (.intro hv hkey)

theorem Valve.WritesIn.child {v : Valve} (h : v.WritesIn names) {p : Pipeline}
    (hp : p ∈ v.children) : p.WritesIn names where
  built := h.built.child hp
  builtIn := h.builtIn.child hp
  writes key hkey := h.writes key (.child hp hkey)

theorem Valve.WritesIn.deeds {v : Valve} (h : v.WritesIn names) {d : Deed} (hd : d ∈ v.deeds) :
    d.SetsIn names := by
  obtain ⟨hscript, -⟩ := h.builtIn
  have hset := h.built.deeds_written hscript hd
  cases d with
  | set key => exact h.writes key (.own hset)
  | _ => exact hset

theorem Pipeline.BuiltIn.of_nests {p q : Pipeline} (hp : p.BuiltIn) (h : p.Nests q) :
    q.BuiltIn := by
  induction h with
  | refl => exact hp
  | tail _ hchild ih =>
    obtain ⟨v, hv, hchild⟩ := hchild
    cases ih with
    | intro hvalves => exact (hvalves v hv).child hchild

namespace Conduct

def writing (names : String → Prop) : Conduct where
  done s t := s.attributes.SetTo names t.attributes
  cut s t := s.attributes.SetTo names t.attributes

theorem writing_of_eq {s t : Session} (h : t.attributes = s.attributes) :
    (writing names).done s t := by
  show s.attributes.SetTo names t.attributes
  rw [h]
  exact .refl names s.attributes

theorem writing_emit (s : Session) (type : String) (data : Json) :
    (writing names).done s (s.emit type data) :=
  writing_of_eq (s.attributes_emit type data)

theorem writing_allows : (writing names).Allows (Deed.SetsIn names) where
  refl s := .refl names s.attributes
  trans h h' := h.trans h'
  cut_refl s := .refl names s.attributes
  cut_trans h h' := h.trans h'
  log _ _ _ _ := writing_of_eq rfl
  note _ _ := writing_of_eq rfl
  pend _ _ := writing_of_eq rfl
  mark _ _ _ := writing_of_eq rfl
  report s _ data _ := writing_emit s _ data
  deed hd hchanges := by
    cases hchanges with
    | set value => exact .single hd _ value
    | remove => exact hd.elim
    | emit data => exact hd.elim

end Conduct

theorem Run.KeepsTo.setTo {ε α : Type} {x : Run ε α} (h : x.KeepsTo (.writing names)) (s : Session) :
    s.attributes.SetTo names (x.run s).session.attributes := by
  have kept := h s
  cases hr : x.run s with
  | answered a t => exact h.answered hr
  | raised e t => exact h.raised hr
  | exhausted t => exact h.exhausted hr

/-- The valves behind the running one of the innermost walk write none but these names. -/
def RestWritesIn (names : String → Prop) (walks : List Frame) : Prop :=
  ∀ f outer, walks = f :: outer → ∀ v ∈ f.pipeline.valves.drop f.next, v.WritesIn names

namespace Walk

open Conduct (writing writing_of_eq writing_allows)

private def ProceedsWriting (names : String → Prop) (steps : Nat) : Prop :=
  ∀ s : Session, RestWritesIn names s.frames →
    s.attributes.SetTo names ((proceed (Valve.run steps)).run s).session.attributes

private theorem runPipeline_writing {steps : Nat} (h : ProceedsWriting names steps) {p : Pipeline}
    (hp : p.WritesIn names) : (runPipeline (Valve.run steps) p).KeepsTo (writing names) := by
  intro s
  have here : RestWritesIn names (s.enterPipeline p).frames := by
    intro f outer hf v hv
    obtain ⟨rfl, -⟩ := List.cons.inj hf
    exact hp.valve (List.mem_of_mem_drop hv)
  have proceeded := h (s.enterPipeline p) here
  simp only [runPipeline, Run.run_bind, Run.run_update, Run.run_afterwards, Run.run_read]
  generalize (proceed (Valve.run steps)).run (s.enterPipeline p) = ending at proceeded ⊢
  cases ending with
  | answered _ t => exact proceeded
  | raised _ t => exact proceeded
  | exhausted t => exact proceeded

private theorem proceedsWriting_of_valve {steps : Nat}
    (h : ∀ (s : Session) (f : Frame) (outer : List Frame) (v : Valve), v.WritesIn names →
      RestWritesIn names (s.enterValve f outer f.next).frames →
      s.attributes.SetTo names
        ((Valve.run steps v).run (s.enterValve f outer f.next)).session.attributes) :
    ProceedsWriting names steps := by
  intro s hrest
  have proceeding := proceed_proceeding (Valve.run steps) s
  generalize (proceed (Valve.run steps)).run s = ending at proceeding ⊢
  cases proceeding with
  | waits _ => exact .refl names s.attributes
  | outside _ _ => exact .refl names s.attributes
  | again _ _ _ => exact .refl names s.attributes
  | ends _ _ _ _ => exact .refl names s.attributes
  | @starts f outer v _ hframes _ hvalve =>
    have next : f.pipeline.valves.drop f.next = v :: f.pipeline.valves.drop (f.next + 1) := by
      obtain ⟨hlt, rfl⟩ := List.getElem?_eq_some_iff.mp hvalve
      exact List.drop_eq_getElem_cons hlt
    obtain ⟨hv, hbehind⟩ := List.forall_mem_cons.mp (next ▸ hrest f outer hframes)
    have ran := h s f outer v hv fun g others hg => by
      obtain ⟨rfl, -⟩ := List.cons.inj hg
      exact hbehind
    rw [Run.run_afterwards]
    generalize (Valve.run steps v).run (s.enterValve f outer f.next) = ending at ran ⊢
    cases ending with
    | answered _ t => exact ran
    | raised _ t => exact ran
    | exhausted t => exact ran

private theorem proceedsWriting (names : String → Prop) (steps : Nat) :
    ProceedsWriting names steps := by
  induction steps with
  | zero => exact proceedsWriting_of_valve fun s f outer v _ _ => .refl names s.attributes
  | succ steps ih =>
    refine proceedsWriting_of_valve fun s f outer v hv hrest => ?_
    have writes := (Flat.own_keepsTo writing_allows steps (fun d hd => hv.deeds hd) fun p hp =>
      runPipeline_writing ih (hv.child hp)).setTo (s.enterValve f outer f.next)
    have steady := Flat.own_keepsTo Conduct.steady_continues.toAllows steps
      (fun d (_ : d ∈ v.deeds) => trivial) (fun p _ => runPipeline_steady
        (Valve.run_keepsTo Conduct.balanced_covers steps) p) (s.enterValve f outer f.next)
    obtain ⟨hscript, -⟩ := hv.builtIn
    rw [show Valve.run (steps + 1) v = v.work (Valve.run steps) steps from rfl,
      Valve.work_eq_own _ steps hscript, Run.run_bind]
    generalize (Flat.work.own (runPipeline (Valve.run steps)) steps v).run
      (s.enterValve f outer f.next) = ending at writes steady ⊢
    cases ending with
    | answered _ t => exact writes.trans (ih t (steady ▸ hrest))
    | raised _ t => exact writes
    | exhausted t => exact writes

theorem runPipeline_writes (steps : Nat) {p : Pipeline} (hp : p.WritesIn names) :
    (runPipeline (Valve.run steps) p).KeepsTo (writing names) :=
  runPipeline_writing (proceedsWriting names steps) hp

theorem proceed_writes (steps : Nat) {s : Session} (h : RestWritesIn names s.frames) :
    s.attributes.SetTo names ((proceed (Valve.run steps)).run s).session.attributes :=
  proceedsWriting names steps s h

theorem invoke_writes {ε : Type} {start : Starter} {s t : Session}
    {result : Except RunFailure Outcome}
    (hwalk : (runPipeline start s.pipeline).KeepsTo (writing names))
    (h : (invoke (runPipeline start) : Run ε _).run s = .answered result t) :
    s.attributes.SetTo names t.attributes :=
  invoke_of_walk .trans (fun _ hattributes => writing_of_eq hattributes)
    (fun ended => hwalk.endsIn ended) h

end Walk

namespace Guarded

/-- The names that may be set once the first block of a guarded valve has failed: that of the failure,
if it is caught, and those that the other blocks write, or the valves behind in the walk. -/
inductive WritesLater (catchBlock finallyBlock : Option Pipeline) (config : CatchConfig)
    (walks : List Frame) : String → Prop
  | exception : catchBlock.isSome = true →
    WritesLater catchBlock finallyBlock config walks config.normalized.exceptionName
  | handler {p : Pipeline} {key : String} : p ∈ catchBlock → p.Writes key →
    WritesLater catchBlock finallyBlock config walks key
  | last {p : Pipeline} {key : String} : p ∈ finallyBlock → p.Writes key →
    WritesLater catchBlock finallyBlock config walks key
  | rest {f : Frame} {outer : List Frame} {v : Valve} {key : String} : walks = f :: outer →
    v ∈ f.pipeline.valves.drop f.next → v.Writes key →
    WritesLater catchBlock finallyBlock config walks key

variable {steps : Nat} {block : Pipeline} {catchBlock finallyBlock : Option Pipeline}
  {config : CatchConfig} {walks : List Frame}

private theorem handler_writesIn
    (hbuilt : (Valve.guarded (some block) catchBlock finallyBlock config).Built)
    (hbuiltIn : (Valve.guarded (some block) catchBlock finallyBlock config).BuiltIn) {p : Pipeline}
    (hp : p ∈ catchBlock) : p.WritesIn (WritesLater catchBlock finallyBlock config walks) := by
  have hchild : p ∈ (Valve.guarded (some block) catchBlock finallyBlock config).children := by
    simp_all [Valve.children]
  exact ⟨hbuilt.child hchild, hbuiltIn.child hchild, fun key hkey => .handler hp hkey⟩

private theorem last_writesIn
    (hbuilt : (Valve.guarded (some block) catchBlock finallyBlock config).Built)
    (hbuiltIn : (Valve.guarded (some block) catchBlock finallyBlock config).BuiltIn) {p : Pipeline}
    (hp : p ∈ finallyBlock) : p.WritesIn (WritesLater catchBlock finallyBlock config walks) := by
  have hchild : p ∈ (Valve.guarded (some block) catchBlock finallyBlock config).children := by
    simp_all [Valve.children]
  exact ⟨hbuilt.child hchild, hbuiltIn.child hchild, fun key hkey => .last hp hkey⟩

private theorem rest_writesIn
    (hrest : ∀ f outer, walks = f :: outer → f.pipeline.Built ∧ f.pipeline.BuiltIn) :
    RestWritesIn (WritesLater catchBlock finallyBlock config walks) walks := by
  intro f outer hf v hv
  obtain ⟨hp, hbuiltIn⟩ := hrest f outer hf
  have hpipeline : f.pipeline.WritesIn f.pipeline.Writes := ⟨hp, hbuiltIn, fun _ => id⟩
  have hvalve := hpipeline.valve (List.mem_of_mem_drop hv)
  exact ⟨hvalve.built, hvalve.builtIn, fun key hkey => .rest hf hv hkey⟩

private theorem exception_writesLater
    (hbuilt : (Valve.guarded (some block) catchBlock finallyBlock config).Built)
    (hcatch : catchBlock.isSome = true) :
    WritesLater catchBlock finallyBlock config walks config.exceptionName := by
  obtain ⟨handler, rfl⟩ := Option.isSome_iff_exists.mp hcatch
  have hscript : ∀ name script,
      Valve.guarded (some block) (some handler) finallyBlock config ≠ .scripted name script := by
    intro name script h
    cases h
  have hname : config.exceptionName = config.normalized.exceptionName :=
    List.mem_singleton.mp (hbuilt.deeds_written hscript List.mem_cons_self)
  have caught : WritesLater (some handler) finallyBlock config walks config.normalized.exceptionName :=
    .exception rfl
  rwa [← hname] at caught

/-- A guarded valve takes back nothing of what its first block has left when it failed. -/
theorem setTo_after_failure
    (hbuilt : (Valve.guarded (some block) catchBlock finallyBlock config).Built)
    (hbuiltIn : (Valve.guarded (some block) catchBlock finallyBlock config).BuiltIn)
    {u v w : Session} {failure : ValveFailure}
    (hrest : ∀ f outer, u.frames = f :: outer → f.pipeline.Built ∧ f.pipeline.BuiltIn)
    (hfailed : (Walk.runPipeline (Valve.run steps) block).run u = .raised failure v)
    (hended : ((run (Valve.run steps) (some block) catchBlock finallyBlock config).run u).EndsIn w) :
    v.attributes.SetTo (WritesLater catchBlock finallyBlock config u.frames) w.attributes := by
  have steadyWalk (p : Pipeline) : (Walk.runPipeline (Valve.run steps) p).KeepsTo .steady :=
    Walk.runPipeline_steady (Valve.run_keepsTo Conduct.balanced_covers steps) p
  let later := WritesLater catchBlock finallyBlock config u.frames
  let mending := mend (Walk.runPipeline (Valve.run steps)) catchBlock finallyBlock config failure
  have allows : (Conduct.writing later).Allows (Deed.SetsIn later) := Conduct.writing_allows
  have writes : mending.KeepsTo (.writing later) := allows.habit.mend
    (fun p hp => Walk.runPipeline_writes steps (handler_writesIn hbuilt hbuiltIn hp))
    (fun p hp => Walk.runPipeline_writes steps (last_writesIn hbuilt hbuiltIn hp))
    (fun hcatch => exception_writesLater hbuilt hcatch) failure
  have steady : mending.KeepsTo .steady := Conduct.steady_continues.habit.mend
    (fun p _ => steadyWalk p) (fun p _ => steadyWalk p) (fun _ => trivial) failure
  rw [run_eq, Run.run_bind, Flat.run_guarded_of_raised hfailed] at hended
  cases hmend : mending.run v with
  | answered a t =>
    have hframes : t.frames = u.frames :=
      (steady.answered hmend).trans ((steadyWalk block).raised hfailed)
    have behind : RestWritesIn later t.frames := hframes ▸ rest_writesIn hrest
    have proceeded := Walk.proceed_writes steps behind
    rw [hmend] at hended
    exact (writes.answered hmend).trans (hended.session ▸ proceeded)
  | raised e t =>
    rw [hmend] at hended
    exact hended ▸ writes.raised hmend
  | exhausted t =>
    rw [hmend] at hended
    exact hended.elim

end Guarded

/-- A run of built-in valves, however it ends, sets names that its pipeline writes, one after the other:
every other name holds what it held before, and no name is removed. Nor is a value taken back: the
attributes at the end are those at the beginning with everything set, in its order, that the valves, the
iterations and the caught failures of the run set. Each walk in the run, too, sets names that it writes.
When a guarded block has failed, what it has written stays, up to the end of its valve: only the name of
the failure is set, and those that the other blocks and the valves behind in the walk write. -/
theorem attributes_written (steps : Nat) {s : Session} (hbuilt : s.pipeline.Built)
    (hp : s.pipeline.BuiltIn) :
    let start := Valve.run steps
    (∀ result t, s.invoke steps = .answered result t →
      s.attributes.Written s.pipeline.Writes t.attributes ∧ (s.frames = [] → s.Replays t)) ∧
    (∀ p u v, s.pipeline.Nests p → ((Walk.runPipeline start p).run u).EndsIn v →
      u.attributes.Written p.Writes v.attributes) ∧
    ∀ p block catchBlock finallyBlock config u failure v w, s.pipeline.Nests p →
      Valve.guarded (some block) catchBlock finallyBlock config ∈ p.valves →
      u.Walks s.pipeline.Nests → (Walk.runPipeline start block).run u = .raised failure v →
      ((Guarded.run start (some block) catchBlock finallyBlock config).run u).EndsIn w →
      v.attributes.Written (Guarded.WritesLater catchBlock finallyBlock config u.frames)
        w.attributes := by
  intro start
  have writes {p : Pipeline} (h : s.pipeline.Nests p) : p.WritesIn p.Writes :=
    ⟨hbuilt.of_nests h, hp.of_nests h, fun _ => id⟩
  refine ⟨?_, ?_, ?_⟩
  · intro result t h
    have sets := Walk.invoke_writes (ε := Empty) (Walk.runPipeline_writes steps (writes .refl)) h
    exact ⟨sets.written, fun hframes => Walk.invoke_replays hp hframes h⟩
  · intro p u v hnests h
    exact ((Walk.runPipeline_writes steps (writes hnests)).endsIn h).written
  · intro p block catchBlock finallyBlock config u failure v w hnests hmem hwalks hfailed hended
    have hvalve := (writes hnests).valve hmem
    refine (Guarded.setTo_after_failure hvalve.built hvalve.builtIn (fun f outer hf => ?_) hfailed
      hended).written
    have hf : s.pipeline.Nests f.pipeline := hwalks.innermost hf
    exact ⟨hbuilt.of_nests hf, hp.of_nests hf⟩

private def draft : Pipeline :=
  ⟨none, [.setAttribute "draft" (.nat 1), .failing "check" "no"]⟩

private def recovery : Pipeline :=
  ⟨none, [.loop ⟨none, [.breakWith (.level 0)]⟩ { counter := "turn" }]⟩

private def mended : Pipeline :=
  ⟨none, [.guarded (some draft) (some recovery) none { exceptionName := "problem" }]⟩

private theorem mended_built : mended.Built := by
  have tried : draft.Built := by
    have built : Pipeline.build none draft.valves = .ok draft := rfl
    refine .build (fun v hv => .leaf ?_) built
    simp only [draft, List.mem_cons, List.not_mem_nil, or_false] at hv
    rcases hv with rfl | rfl <;> rfl
  have body : (⟨none, [.breakWith (.level 0)]⟩ : Pipeline).Built := by
    have built : Pipeline.build none [.breakWith (.level 0)] = .ok ⟨none, [.breakWith (.level 0)]⟩ := rfl
    exact .build (List.forall_mem_singleton.mpr (.leaf rfl)) built
  have loops : (Valve.loop ⟨none, [.breakWith (.level 0)]⟩ { counter := "turn" }).Built := by
    have built : Valve.buildLoop (some ⟨none, [.breakWith (.level 0)]⟩) { counter := " turn " } =
        .ok (.loop ⟨none, [.breakWith (.level 0)]⟩ { counter := "turn" }) := rfl
    exact .loop (fun p hp => Option.some.inj hp ▸ body) built
  have caught : recovery.Built := by
    have built : Pipeline.build none recovery.valves = .ok recovery := rfl
    exact .build (List.forall_mem_singleton.mpr loops) built
  have guards : (Valve.guarded (some draft) (some recovery) none
      { exceptionName := "problem" }).Built := by
    have built : Valve.buildGuarded (some draft) (some recovery) none { exceptionName := "problem " } =
        .guarded (some draft) (some recovery) none { exceptionName := "problem" } := rfl
    rw [← built]
    exact .guarded (fun p hp => Option.some.inj hp ▸ tried) (fun p hp => Option.some.inj hp ▸ caught)
      nofun
  have built : Pipeline.build none mended.valves = .ok mended := rfl
  exact .build (List.forall_mem_singleton.mpr guards) built

private theorem mended_builtIn : mended.BuiltIn := by
  have leaf {v : Valve} (hv : ∀ name script, v ≠ .scripted name script)
      (hchildren : v.children = []) : v.BuiltIn := .of_leaf hv hchildren
  have tried : draft.BuiltIn := by
    refine .intro fun v hv => ?_
    simp only [draft, List.mem_cons, List.not_mem_nil, or_false] at hv
    rcases hv with rfl | rfl
    · exact leaf nofun rfl
    · exact leaf nofun rfl
  have body : (⟨none, [.breakWith (.level 0)]⟩ : Pipeline).BuiltIn :=
    .intro (List.forall_mem_singleton.mpr (leaf nofun rfl))
  have caught : recovery.BuiltIn :=
    .intro (List.forall_mem_singleton.mpr (.intro nofun (List.forall_mem_singleton.mpr body)))
  refine .intro (List.forall_mem_singleton.mpr (.intro nofun ?_))
  exact List.forall_mem_cons.mpr ⟨tried, List.forall_mem_singleton.mpr caught⟩

private theorem writes_of_leaf {v : Valve} (hleaf : v.children = []) {key : String}
    (h : v.Writes key) : key ∈ v.written := by
  cases h with
  | own hkey => exact hkey
  | child hp _ => simp [hleaf] at hp

private theorem not_mended_writes : ¬mended.Writes "note" := by
  have quiet (v : Valve) (hleaf : v.children = []) (hwritten : "note" ∉ v.written) :
      ¬v.Writes "note" := fun h => hwritten (writes_of_leaf hleaf h)
  have tried : ¬draft.Writes "note" := by
    rintro ⟨hv, h⟩
    simp only [draft, List.mem_cons, List.not_mem_nil, or_false] at hv
    rcases hv with rfl | rfl
    · exact quiet _ rfl (by simp [Valve.written]) h
    · exact quiet _ rfl (by simp [Valve.written]) h
  have caught : ¬recovery.Writes "note" := by
    rintro ⟨hv, h⟩
    obtain rfl := List.mem_singleton.mp hv
    rcases h with hkey | ⟨hp, hv, h⟩
    · have turn : LoopConfig.normalized { counter := "turn" } = { counter := "turn" } := by decide
      simp [Valve.written, turn] at hkey
    · obtain rfl := List.mem_singleton.mp hp
      obtain rfl := List.mem_singleton.mp hv
      exact quiet _ rfl List.not_mem_nil h
  rintro ⟨hv, h⟩
  obtain rfl := List.mem_singleton.mp hv
  rcases h with hkey | ⟨hp, h⟩
  · have problem : CatchConfig.normalized { exceptionName := "problem" } =
        { exceptionName := "problem" } := by decide
    simp [Valve.written, problem] at hkey
  · simp only [Valve.children, Option.toList_some, Option.toList_none, List.append_nil, List.mem_append,
      List.mem_singleton] at hp
    rcases hp with rfl | rfl
    · exact tried h
    · exact caught h

private def draftStart : Session :=
  { Session.start mended .collect {} with attributes := ⟨[("draft", .nat 0), ("note", .bool true)]⟩ }

theorem attributes_written_of_mended :
    ∃ t, draftStart.invoke 6 = .answered (.ok .completed) t ∧
      draftStart.attributes.Written mended.Writes t.attributes ∧ draftStart.Replays t ∧
      (Trail.setSince [] t.trail).map Prod.fst = ["draft", "problem", "turn"] ∧
      t.attributes.get? "note" = some (.bool true) ∧ t.attributes.get? "draft" = some (.nat 1) ∧
      t.attributes.get? "turn" = some (.nat 0) ∧ t.attributes.has "problem" = true := by
  have ended : draftStart.invoke 6 = .answered (.ok .completed) (draftStart.invoke 6).session := rfl
  obtain ⟨law, replayed⟩ :=
    (attributes_written 6 (s := draftStart) mended_built mended_builtIn).1 _ _ ended
  exact ⟨_, ended, law, replayed rfl, rfl, law.framed "note" not_mended_writes, rfl, rfl, rfl⟩

end ValvePipeline
