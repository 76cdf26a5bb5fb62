import Mathlib.Data.List.Chain
import ValvePipeline.Construction
import ValvePipeline.Proofs.LabelBreaks
import ValvePipeline.Proofs.OwnWork

/-!
Labels of built pipelines. A label is checked only where it is declared, against the pipelines below it;
as pipelines are put together from the inside, this makes the labels on every nesting path distinct.
The walks under way in a run without scripts lie on such a path, so a search for a label finds the only
walk that carries it.
-/

set_option autoImplicit false
set_option relaxedAutoImplicit false

namespace ValvePipeline

namespace Pipeline

def HasChild (p q : Pipeline) : Prop :=
  ∃ v ∈ p.valves, q ∈ v.children

/-- The second pipeline is the first one, or nested in it at some depth. -/
def Nests : Pipeline → Pipeline → Prop :=
  Relation.ReflTransGen HasChild

def NestsInside : Pipeline → Pipeline → Prop :=
  Relation.TransGen HasChild

end Pipeline

mutual

/-- The pipeline was put together from parts that were. -/
inductive Pipeline.Built : Pipeline → Prop
  | empty : Pipeline.Built .empty
  | build {label : Option String} {valves : List Valve} {p : Pipeline} :
    (∀ v ∈ valves, Valve.Built v) → Pipeline.build label valves = .ok p → Pipeline.Built p

/-- The valve was put together from pipelines that were. One without children, such as a scripted one,
needs none. -/
inductive Valve.Built : Valve → Prop
  | leaf {v : Valve} : v.children = [] → Valve.Built v
  | loop {body : Option Pipeline} {config : LoopConfig} {v : Valve} :
    (∀ p ∈ body, Pipeline.Built p) → Valve.buildLoop body config = .ok v → Valve.Built v
  | whileLoop {body : Option Pipeline} {condition : Option Condition} {config : LoopConfig}
    {v : Valve} : (∀ p ∈ body, Pipeline.Built p) →
    Valve.buildWhile body condition config = .ok v → Valve.Built v
  | ifThen {condition : Option Condition} {block : Option Pipeline} {v : Valve} :
    (∀ p ∈ block, Pipeline.Built p) → Valve.buildIf condition block = .ok v → Valve.Built v
  | choose {b : ChooseBuilder} {v : Valve} : (∀ p ∈ b.blocks, Pipeline.Built p) →
    (∀ p ∈ b.otherwise, Pipeline.Built p) → b.build = .ok v → Valve.Built v
  | sub {pipeline : Option Pipeline} {v : Valve} : (∀ p ∈ pipeline, Pipeline.Built p) →
    Valve.buildSub pipeline = .ok v → Valve.Built v
  | guarded {tryBlock catchBlock finallyBlock : Option Pipeline} {config : CatchConfig} :
    (∀ p ∈ tryBlock, Pipeline.Built p) → (∀ p ∈ catchBlock, Pipeline.Built p) →
    (∀ p ∈ finallyBlock, Pipeline.Built p) →
    Valve.Built (Valve.buildGuarded tryBlock catchBlock finallyBlock config)

end

theorem ChooseBuilder.mem_children {b : ChooseBuilder} {v : Valve} (h : b.build = .ok v)
    {p : Pipeline} (hp : p ∈ v.children) : p ∈ b.blocks ∨ p ∈ b.otherwise := by
  dsimp only [build] at h
  split at h
  · obtain rfl := Except.ok.inj h
    rcases List.mem_append.mp hp with hp | hp
    · obtain ⟨branch, hbranch, rfl⟩ := List.mem_map.mp hp
      rw [← List.map_uncurry_zip_eq_zipWith] at hbranch
      obtain ⟨⟨condition, block⟩, hpair, rfl⟩ := List.mem_map.mp hbranch
      exact .inl (List.of_mem_zip hpair).2
    · exact .inr (Option.mem_toList.mp hp)
  · cases h

theorem Valve.Built.child {v : Valve} (h : v.Built) {p : Pipeline} (hp : p ∈ v.children) :
    p.Built := by
  cases h with
  | leaf hleaf => simp [hleaf] at hp
  | @loop body config _ hbody hbuild =>
    cases body with
    | none => cases hbuild
    | some body =>
      obtain rfl := Except.ok.inj hbuild
      exact hbody p (by simpa [Valve.children, eq_comm] using hp)
  | @whileLoop body condition config _ hbody hbuild =>
    cases body with
    | none => cases hbuild
    | some body =>
      cases condition with
      | none => cases hbuild
      | some condition =>
        obtain rfl := Except.ok.inj hbuild
        exact hbody p (by simpa [Valve.children, eq_comm] using hp)
  | @ifThen condition block _ hblock hbuild =>
    cases condition with
    | none => cases hbuild
    | some condition =>
      cases block with
      | none => cases hbuild
      | some block =>
        obtain rfl := Except.ok.inj hbuild
        exact hblock p (by simpa [Valve.children, eq_comm] using hp)
  | choose hblocks hotherwise hbuild =>
    rcases ChooseBuilder.mem_children hbuild hp with hp | hp
    · exact hblocks p hp
    · exact hotherwise p hp
  | @sub pipeline _ hpipeline hbuild =>
    cases pipeline with
    | none => cases hbuild
    | some pipeline =>
      obtain rfl := Except.ok.inj hbuild
      exact hpipeline p (by simpa [Valve.children, eq_comm] using hp)
  | guarded htry hcatch hlast =>
    simp only [Valve.buildGuarded, Valve.children, List.mem_append, Option.mem_toList] at hp
    rcases hp with (hp | hp) | hp
    · exact htry p hp
    · exact hcatch p hp
    · exact hlast p hp

theorem Valve.sizeOf_child {v : Valve} {p : Pipeline} (h : p ∈ v.children) :
    sizeOf p < sizeOf v := by
  cases v with
  | choose branches otherwise =>
    rcases List.mem_append.mp h with h | h
    · obtain ⟨b, hb, rfl⟩ := List.mem_map.mp h
      have hsize := List.sizeOf_lt_of_mem hb
      obtain ⟨condition, block⟩ := b
      simp_all only [Valve.choose.sizeOf_spec, Branch.mk.sizeOf_spec]
      omega
    · obtain rfl := Option.mem_toList.mp h
      simp only [Valve.choose.sizeOf_spec, Option.some.sizeOf_spec]
      omega
  | guarded tryBlock catchBlock finallyBlock config =>
    simp only [Valve.children, List.mem_append, Option.mem_toList] at h
    rcases h with (rfl | rfl) | rfl <;>
      simp only [Valve.guarded.sizeOf_spec, Option.some.sizeOf_spec] <;> omega
  | _ => simp_all [Valve.children] <;> omega

namespace Pipeline

theorem HasChild.sizeOf_lt {p q : Pipeline} (h : p.HasChild q) : sizeOf q < sizeOf p := by
  obtain ⟨v, hv, hchild⟩ := h
  have hvalve := List.sizeOf_lt_of_mem hv
  have hsize := Valve.sizeOf_child hchild
  obtain ⟨label, valves⟩ := p
  rw [Pipeline.mk.sizeOf_spec]
  dsimp only at hvalve
  omega

theorem carries_eq (p : Pipeline) (label : String) :
    p.carries label =
      (p.label == some label || p.valves.any fun v => v.children.any (·.carries label)) := by
  have blocks (l : List Pipeline) :
      Outline.blocksCarry label (l.map outline) = l.any (·.carries label) := by
    induction l with
    | nil => rfl
    | cons q l ih => rw [List.map_cons, Outline.blocksCarry, ih, List.any_cons, carries]
  have entries (l : List Valve) : Outline.entriesCarry label (Valve.outlines l) =
      l.any fun v => v.children.any (·.carries label) := by
    induction l with
    | nil => rfl
    | cons v l ih =>
      rw [Valve.outlines, Outline.entriesCarry, Valve.blocks_eq_map, blocks, ih, List.any_cons]
  obtain ⟨own, valves⟩ := p
  rw [carries, outline, Outline.carries, entries]

theorem build_of_checked {label name : String} (h : checkLabel label = .ok name)
    (valves : List Valve) : build (some label) valves =
      if valves.any fun v => v.children.any (·.carries name) then .error (.duplicateLabel name)
      else .ok ⟨some name, valves⟩ := by
  simp [build, h, bind, Except.bind]

theorem build_of_refused {label : String} {e : ValidationError} (h : checkLabel label = .error e)
    (valves : List Valve) : build (some label) valves = .error e := by
  simp [build, h, bind, Except.bind]

structure Labelled (p : Pipeline) (name : String) : Prop where
  trimmed : Text.trim name = name
  nonempty : name ≠ ""
  notTop : name ≠ Signal.topLabel
  single : ∀ v ∈ p.valves, ∀ q ∈ v.children, q.carries name = false

theorem build_eq_ok {label : Option String} {valves : List Valve} {p : Pipeline}
    (h : build label valves = .ok p) :
    p.valves = valves ∧ ∀ name, p.label = some name → p.Labelled name := by
  cases label with
  | none =>
    obtain rfl := Except.ok.inj h
    exact ⟨rfl, nofun⟩
  | some label =>
    cases hchecked : checkLabel label with
    | error e =>
      rw [build_of_refused hchecked] at h
      cases h
    | ok name =>
      rw [build_of_checked hchecked] at h
      split at h
      · cases h
      · rename_i hfree
        obtain rfl := Except.ok.inj h
        refine ⟨rfl, fun other hother => ?_⟩
        obtain rfl := Option.some.inj hother
        obtain ⟨rfl, hblank, htop⟩ := (checkLabel_eq_ok_iff label name).mp hchecked
        refine ⟨Text.trim_trim label, hblank, htop, fun v hv q hq => ?_⟩
        simp only [List.any_eq_true, not_exists, not_and, Bool.not_eq_true] at hfree
        exact hfree v hv q hq

namespace Built

variable {p q : Pipeline}

theorem labelled (h : p.Built) {name : String} (hname : p.label = some name) :
    p.Labelled name := by
  cases h with
  | empty => cases hname
  | build _ hbuild => exact (build_eq_ok hbuild).2 name hname

theorem valve (h : p.Built) {v : Valve} (hv : v ∈ p.valves) : v.Built := by
  cases h with
  | empty => cases hv
  | build hvalves hbuild =>
    rw [(build_eq_ok hbuild).1] at hv
    exact hvalves v hv

theorem of_hasChild (h : p.Built) (hq : p.HasChild q) : q.Built := by
  obtain ⟨v, hv, hchild⟩ := hq
  exact (h.valve hv).child hchild

theorem of_nests (h : p.Built) (hq : p.Nests q) : q.Built := by
  induction hq with
  | refl => exact h
  | tail _ hchild ih => exact ih.of_hasChild hchild

end Built

theorem carries_of_nests {p q : Pipeline} (h : p.Nests q) {label : String}
    (hq : q.label = some label) : p.carries label = true := by
  induction h using Relation.ReflTransGen.head_induction_on with
  | refl =>
    rw [carries_eq, hq]
    simp
  | head hchild _ ih =>
    obtain ⟨v, hv, hchild⟩ := hchild
    rw [carries_eq, Bool.or_eq_true, List.any_eq_true]
    exact .inr ⟨v, hv, List.any_eq_true.mpr ⟨_, hchild, ih⟩⟩

theorem nests_of_carries {label : String} (p : Pipeline) (h : p.carries label = true) :
    ∃ q, p.Nests q ∧ q.label = some label := by
  rw [carries_eq, Bool.or_eq_true, List.any_eq_true] at h
  rcases h with hown | ⟨v, hv, hchild⟩
  · exact ⟨p, .refl, by simpa using hown⟩
  · obtain ⟨c, hc, hcarries⟩ := List.any_eq_true.mp hchild
    have hsize : sizeOf c < sizeOf p := HasChild.sizeOf_lt ⟨v, hv, hc⟩
    obtain ⟨q, hq, hlabel⟩ := nests_of_carries c hcarries
    exact ⟨q, .head ⟨v, hv, hc⟩ hq, hlabel⟩
termination_by sizeOf p

theorem carries_iff (p : Pipeline) (label : String) :
    p.carries label = true ↔ ∃ q, p.Nests q ∧ q.label = some label := by
  constructor
  · exact p.nests_of_carries
  · rintro ⟨q, hq, hlabel⟩
    exact carries_of_nests hq hlabel

theorem Built.label_ne {p q : Pipeline} (h : p.Built) (hq : p.NestsInside q) {a b : String}
    (ha : p.label = some a) (hb : q.label = some b) : a ≠ b := by
  rintro rfl
  obtain ⟨c, ⟨v, hv, hc⟩, hnests⟩ := Relation.TransGen.head'_iff.mp hq
  have hcarries := carries_of_nests hnests hb
  rw [(h.labelled ha).single v hv c hc] at hcarries
  cases hcarries

instance : Trans NestsInside NestsInside NestsInside where
  trans := Relation.TransGen.trans

instance : Trans (flip NestsInside) (flip NestsInside) (flip NestsInside) where
  trans h h' := Relation.TransGen.trans h' h

/-- On a path inward from a pipeline that was built no label occurs twice. -/
theorem Built.labels_nodup {p : Pipeline} (h : p.Built) {path : List Pipeline}
    (hpath : List.IsChain HasChild (p :: path)) :
    ((p :: path).filterMap (·.label)).Nodup := by
  have inward := (hpath.imp fun _ _ hchild => Relation.TransGen.single hchild).pairwise
    (R := NestsInside)
  have hbuilt : ∀ q ∈ p :: path, q.Built := by
    intro q hq
    rcases List.mem_cons.mp hq with rfl | hq
    · exact h
    · exact h.of_nests ((List.pairwise_cons.mp inward).1 q hq).to_reflTransGen
  refine List.pairwise_filterMap.mpr (inward.imp_of_mem fun hq _ hnests a ha b hb => ?_)
  exact (hbuilt _ hq).label_ne hnests ha hb

theorem any_carries_iff (valves : List Valve) (name : String) :
    (valves.any fun v => v.children.any (·.carries name)) = true ↔
      ∃ v ∈ valves, ∃ c ∈ v.children, ∃ q, c.Nests q ∧ q.label = some name := by
  simp only [List.any_eq_true, carries_iff]

theorem code?_of_refused {label : String} {e : ValidationError}
    (h : checkLabel label = .error e) : e.code? = some "CONTRACT-VALVE-BAD_LABEL" := by
  dsimp only [checkLabel] at h
  split at h
  · obtain rfl := Except.error.inj h
    rfl
  · cases h

/-- A build is refused for a second declaration exactly when the label, trimmed and fit for use, is
declared in a pipeline below. -/
theorem build_duplicate_iff (label : Option String) (valves : List Valve) :
    (∃ e, build label valves = .error e ∧
      e.code? = some "CONTRACT-PIPELINE-DUPLICATE_LABEL") ↔
    ∃ own name, label = some own ∧ checkLabel own = .ok name ∧
      ∃ v ∈ valves, ∃ c ∈ v.children, ∃ q, c.Nests q ∧ q.label = some name := by
  constructor
  · rintro ⟨e, hbuild, hcode⟩
    cases label with
    | none => cases hbuild
    | some own =>
      cases hchecked : checkLabel own with
      | error refused =>
        rw [build_of_refused hchecked] at hbuild
        obtain rfl := Except.error.inj hbuild
        rw [code?_of_refused hchecked] at hcode
        exact absurd hcode (by decide)
      | ok name =>
        rw [build_of_checked hchecked] at hbuild
        split at hbuild
        · rename_i hcarried
          exact ⟨own, name, rfl, hchecked, (any_carries_iff valves name).mp hcarried⟩
        · cases hbuild
  · rintro ⟨own, name, rfl, hchecked, hbelow⟩
    rw [build_of_checked hchecked, if_pos ((any_carries_iff valves name).mpr hbelow)]
    exact ⟨_, rfl, rfl⟩

end Pipeline

/-- The walks lie inside one another as their pipelines do, innermost first, and the pipelines were put
together from parts that hold no script. -/
structure Lodged (frames : List Frame) : Prop where
  chain : List.IsChain (fun inner outer => outer.HasChild inner) (frames.map (·.pipeline))
  built : ∀ f ∈ frames, f.pipeline.Built ∧ f.pipeline.BuiltIn

namespace Lodged

variable {a b : List Frame}

theorem nil : Lodged [] :=
  ⟨.nil, nofun⟩

theorem of_pipelines_eq (h : Lodged a) (hsame : b.map (·.pipeline) = a.map (·.pipeline)) :
    Lodged b := by
  refine ⟨hsame ▸ h.chain, fun f hf => ?_⟩
  have hmem : f.pipeline ∈ a.map (·.pipeline) := hsame ▸ List.mem_map_of_mem hf
  obtain ⟨g, hg, hpipeline⟩ := List.mem_map.mp hmem
  exact hpipeline ▸ h.built g hg

theorem enter {f : Frame} {outer : List Frame} (h : Lodged (f :: outer)) {v : Valve}
    (hv : v ∈ f.pipeline.valves) {p : Pipeline} (hp : p ∈ v.children) :
    Lodged ({ pipeline := p } :: f :: outer) := by
  obtain ⟨hbuilt, hbuiltIn⟩ := h.built f List.mem_cons_self
  refine ⟨List.isChain_cons_cons.mpr ⟨⟨v, hv, hp⟩, h.chain⟩, fun g hg => ?_⟩
  rcases List.mem_cons.mp hg with rfl | hg
  · cases hbuiltIn with
    | intro hvalves => exact ⟨hbuilt.of_hasChild ⟨v, hv, hp⟩, (hvalves v hv).child hp⟩
  · exact h.built g hg

theorem outermost {p : Pipeline} (hbuilt : p.Built) (hbuiltIn : p.BuiltIn) :
    Lodged [{ pipeline := p }] := by
  refine ⟨.singleton _, fun f hf => ?_⟩
  obtain rfl := List.mem_singleton.mp hf
  exact ⟨hbuilt, hbuiltIn⟩

theorem pairwise_ne (h : Lodged a) : a.Pairwise fun inner outer =>
    ∀ l, inner.pipeline.label = some l → ∀ m, outer.pipeline.label = some m → l ≠ m := by
  have inward : List.IsChain (flip Pipeline.NestsInside) (a.map (·.pipeline)) :=
    h.chain.imp fun _ _ hchild => Relation.TransGen.single hchild
  have nested : a.Pairwise fun inner outer => outer.pipeline.NestsInside inner.pipeline :=
    List.pairwise_map.mp inward.pairwise
  refine nested.imp_of_mem fun _ houter hnests l hl m hm => ?_
  exact ((h.built _ houter).1.label_ne hnests hm hl).symm

theorem labels_nodup (h : Lodged a) : (a.filterMap (·.pipeline.label)).Nodup :=
  List.pairwise_filterMap.mpr h.pairwise_ne

theorem findLabel_iff {m : Moment} (h : Lodged m.frames) (label : String) (i : Nat) :
    m.findLabel label = some i ↔ ∃ f, m.frames[i]? = some f ∧ f.pipeline.label = some label := by
  have hpairwise := List.pairwise_iff_getElem.mp h.pairwise_ne
  rw [Moment.findLabel, Session.findLabel, List.findIdx?_eq_some_iff_getElem]
  constructor
  · rintro ⟨hi, hfound, -⟩
    exact ⟨m.frames[i], List.getElem?_eq_getElem hi, by simpa using hfound⟩
  · rintro ⟨f, hf, hlabel⟩
    obtain ⟨hi, rfl⟩ := List.getElem?_eq_some_iff.mp hf
    refine ⟨hi, by simpa using hlabel, fun j hj => ?_⟩
    rw [Bool.not_eq_true, beq_eq_false_iff_ne]
    intro hsame
    exact hpairwise j i (Nat.lt_trans hj hi) hi hj label hsame label hlabel rfl

end Lodged

/-- What happens from one session to a later one happens in walks that lie inside one another as their
pipelines do. -/
def Session.Lodges (s t : Session) : Prop :=
  ∃ moments, t.trail = s.trail ++ moments ∧ ∀ m ∈ moments, Lodged m.frames

namespace Session.Lodges

variable {s t u : Session}

theorem of_trail_eq (h : t.trail = s.trail) : s.Lodges t :=
  ⟨[], h.trans (List.append_nil _).symm, nofun⟩

theorem of_moment {m : Moment} (h : t.trail = s.trail ++ [m]) (hm : Lodged m.frames) :
    s.Lodges t :=
  ⟨[m], h, fun _ hr => List.mem_singleton.mp hr ▸ hm⟩

theorem trans (h : s.Lodges t) (h' : t.Lodges u) : s.Lodges u := by
  obtain ⟨a, ha, hlodged⟩ := h
  obtain ⟨b, hb, hlodged'⟩ := h'
  refine ⟨a ++ b, by rw [hb, ha, List.append_assoc], fun m hm => ?_⟩
  rcases List.mem_append.mp hm with hm | hm
  · exact hlodged m hm
  · exact hlodged' m hm

end Session.Lodges

def Hosts (v : Valve) (frames : List Frame) : Prop :=
  ∃ f outer, frames = f :: outer ∧ v ∈ f.pipeline.valves

def Conduct.hosted (v : Valve) : Conduct where
  done s t := t.frames = s.frames ∧ (Lodged s.frames → Hosts v s.frames → s.Lodges t)
  cut s t := Lodged s.frames → Hosts v s.frames → s.Lodges t

theorem Conduct.hosted_continues (v : Valve) : (hosted v).Continues where
  refl _ := ⟨rfl, fun _ _ => .of_trail_eq rfl⟩
  trans h h' := by
    refine ⟨h'.1.trans h.1, fun hlodged hhosts => ?_⟩
    exact (h.2 hlodged hhosts).trans (h'.2 (h.1 ▸ hlodged) (h.1 ▸ hhosts))
  cut_refl _ _ _ := .of_trail_eq rfl
  cut_trans h h' hlodged hhosts :=
    (h.2 hlodged hhosts).trans (h' (h.1 ▸ hlodged) (h.1 ▸ hhosts))
  change {s t} h := by
    refine ⟨h.frames_eq, fun hlodged _ => ?_⟩
    rcases h.trail_eq with htrail | ⟨m, -, rfl⟩
    · exact .of_trail_eq htrail
    · exact .of_moment (s.trail_mark m) hlodged

namespace Walk

def Lodging (steps : Nat) : Prop :=
  ∀ s : Session, Lodged s.frames → s.Lodges ((proceed (Valve.run steps)).run s).session

theorem Lodging.runPipeline {steps : Nat} (h : Lodging steps) {s : Session} {p : Pipeline}
    (hlodged : Lodged s.frames) (hinner : Lodged ({ pipeline := p } :: s.frames)) :
    s.Lodges ((runPipeline (Valve.run steps) p).run s).session := by
  have entered : s.Lodges (s.enterPipeline p) := .of_moment (s.trail_enterPipeline p) hinner
  have walked := entered.trans (h (s.enterPipeline p) hinner)
  have balanced := proceed_keepsTo Conduct.balanced_covers
    (Valve.run_keepsTo Conduct.balanced_covers steps) (s.enterPipeline p)
  simp only [Walk.runPipeline, Run.run_bind, Run.run_update, Run.run_afterwards, Run.run_read]
  generalize (proceed (Valve.run steps)).run (s.enterPipeline p) = ending at walked balanced ⊢
  have left {t : Session} (ht : SameWalks (s.enterPipeline p).frames t.frames)
      (hwalked : s.Lodges t) (failure : Option ValveFailure) :
      s.Lodges (t.leavePipeline failure) := by
    refine hwalked.trans (.of_moment (Session.trail_leavePipeline ..) ?_)
    rwa [show t.frames.tail = s.frames from ht.tail_eq]
  cases ending with
  | answered a t => exact left balanced walked none
  | raised e t => exact left balanced walked (some e)
  | exhausted t => exact walked

theorem Lodging.of_valve {steps : Nat}
    (h : ∀ (s : Session) (v : Valve), Lodged s.frames → Hosts v s.frames →
      s.Lodges ((Valve.run steps v).run s).session) : Lodging steps := by
  intro s hlodged
  have proceeding := proceed_proceeding (Valve.run steps) s
  generalize (proceed (Valve.run steps)).run s = ending at proceeding ⊢
  cases proceeding with
  | waits _ => exact .of_trail_eq rfl
  | outside _ _ => exact .of_trail_eq rfl
  | again _ _ _ => exact .of_trail_eq rfl
  | ends _ _ _ _ => exact .of_trail_eq rfl
  | @starts f outer v _ hframes _ hvalve =>
    have hinside : Lodged (s.enterValve f outer f.next).frames :=
      hlodged.of_pipelines_eq (by rw [hframes]; rfl)
    have entered : s.Lodges (s.enterValve f outer f.next) :=
      .of_moment (Session.trail_mark _ _) hinside
    have hhosts : Hosts v (s.enterValve f outer f.next).frames :=
      ⟨_, outer, rfl, List.mem_of_getElem? hvalve⟩
    have done := entered.trans (h _ v hinside hhosts)
    have balanced := Valve.run_keepsTo Conduct.balanced_covers steps v
      (s.enterValve f outer f.next)
    rw [Run.run_afterwards]
    generalize (Valve.run steps v).run (s.enterValve f outer f.next) = ending
      at done balanced ⊢
    have left {t : Session} (ht : SameWalks (s.enterValve f outer f.next).frames t.frames)
        (hdone : s.Lodges t) (failure : Option ValveFailure) :
        s.Lodges (t.leaveValve f.next f.cursor failure) := by
      refine hdone.trans (.of_moment (Session.trail_leaveValve ..) ?_)
      obtain ⟨g, hg, hpipeline, -, -⟩ := SameWalks.of_cons ht
      rw [Session.frames_leaveValve _ _ _ hg]
      exact hinside.of_pipelines_eq (by simp [Session.enterValve, hpipeline])
    cases ending with
    | answered a t => exact left balanced done none
    | raised e t => exact left balanced done (some e)
    | exhausted t => exact done

theorem Lodging.own {steps : Nat} (h : Lodging steps) (v : Valve) :
    (Flat.work.own (Walk.runPipeline (Valve.run steps)) steps v).KeepsTo (.hosted v) := by
  refine Flat.own_keepsTo (Conduct.hosted_continues v).toAllows steps (fun _ _ => trivial) fun p hp s => ?_
  have steady := runPipeline_steady (Valve.run_keepsTo Conduct.balanced_covers steps) p s
  have walked (hlodged : Lodged s.frames) (hhosts : Hosts v s.frames) :
      s.Lodges ((Walk.runPipeline (Valve.run steps) p).run s).session := by
    obtain ⟨f, outer, hframes, hv⟩ := hhosts
    refine h.runPipeline hlodged ?_
    rw [hframes] at hlodged ⊢
    exact hlodged.enter hv hp
  generalize (Walk.runPipeline (Valve.run steps) p).run s = ending at steady walked ⊢
  cases ending with
  | answered a t => exact ⟨steady, walked⟩
  | raised e t => exact ⟨steady, walked⟩
  | exhausted t => exact walked

private theorem Lodging.valve {steps : Nat} (h : Lodging steps) {s : Session} {v : Valve}
    (hlodged : Lodged s.frames) (hhosts : Hosts v s.frames) :
    s.Lodges ((Valve.run (steps + 1) v).run s).session := by
  have hscript : ∀ name script, v ≠ .scripted name script := by
    obtain ⟨f, outer, hframes, hv⟩ := hhosts
    cases (hlodged.built f (hframes ▸ List.mem_cons_self)).2 with
    | intro hvalves =>
      cases hvalves v hv with
      | intro hscript _ => exact hscript
  have own := h.own v s
  rw [show Valve.run (steps + 1) v = v.work (Valve.run steps) steps from rfl,
    Valve.work_eq_own _ steps hscript, Run.run_bind]
  generalize (Flat.work.own (Walk.runPipeline (Valve.run steps)) steps v).run s = ending at own ⊢
  cases ending with
  | answered a t => exact (own.2 hlodged hhosts).trans (h t (own.1 ▸ hlodged))
  | raised e t => exact own.2 hlodged hhosts
  | exhausted t => exact own hlodged hhosts

/-- In a walk without scripts everything happens in walks that lie inside one another. -/
theorem lodging (steps : Nat) : Lodging steps := by
  induction steps with
  | zero =>
    refine .of_valve fun s v hlodged _ => ?_
    exact .of_trail_eq rfl
  | succ steps ih => exact .of_valve fun s v hlodged hhosts => ih.valve hlodged hhosts

theorem invoke_lodges {s : Session} (hbuilt : s.pipeline.Built) (hbuiltIn : s.pipeline.BuiltIn)
    (hframes : s.frames = []) (steps : Nat) : s.Lodges (s.invoke steps).session := by
  cases hinvoked : s.invoked with
  | true =>
    refine .of_trail_eq ?_
    simp only [Session.invoke, invoke, Run.run_bind, Run.run_read, id_eq, hinvoked, if_true]
    rfl
  | false =>
    have hlaunched : (launched s).frames = [] := (launched_frames s).trans hframes
    have outside : Lodged (launched s).frames := hlaunched ▸ .nil
    have inside : Lodged ({ pipeline := s.pipeline } :: (launched s).frames) :=
      hlaunched ▸ .outermost hbuilt hbuiltIn
    obtain ⟨moments, htrail, hlodged⟩ := (lodging steps).runPipeline outside inside
    exact ⟨moments, by rw [Session.invoke, invoke_trail hinvoked, htrail, launched_trail], hlodged⟩

end Walk

/-- The labels of a pipeline that was put together from parts that were. On every path inward they are
distinct; each is trimmed, not blank and not the one that stands for the outermost scope; a pipeline
carries just the labels that it or a pipeline nested in it declares; and a build is refused for a
second declaration exactly when its own label is declared below. In a run without scripts the
labels of the walks under way are distinct at every moment, so a search for a label finds the only
walk that carries it. -/
theorem Pipeline.labels_wellFormed {p : Pipeline} (hp : p.Built) :
    (∀ path, List.IsChain HasChild (p :: path) → ((p :: path).filterMap (·.label)).Nodup) ∧
    (∀ q, p.Nests q → ∀ label, q.label = some label →
      Text.trim label = label ∧ label ≠ "" ∧ label ≠ Signal.topLabel) ∧
    (∀ label, p.carries label = true ↔ ∃ q, p.Nests q ∧ q.label = some label) ∧
    (∀ label valves, (∀ v ∈ valves, v.Built) →
      ((∃ e, build label valves = .error e ∧
          e.code? = some "CONTRACT-PIPELINE-DUPLICATE_LABEL") ↔
        ∃ own name, label = some own ∧ checkLabel own = .ok name ∧
          ∃ v ∈ valves, ∃ c ∈ v.children, ∃ q, c.Nests q ∧ q.label = some name)) ∧
    (p.BuiltIn → ∀ s : Session, s.pipeline = p → s.frames = [] → ∀ steps,
      ∃ moments, (s.invoke steps).session.trail = s.trail ++ moments ∧ ∀ m ∈ moments,
        (m.frames.filterMap (·.pipeline.label)).Nodup ∧ ∀ label i,
          m.findLabel label = some i ↔
            ∃ f, m.frames[i]? = some f ∧ f.pipeline.label = some label) := by
  refine ⟨fun path hpath => hp.labels_nodup hpath, ?_, p.carries_iff, ?_, ?_⟩
  · intro q hq label hlabel
    have labelled := (hp.of_nests hq).labelled hlabel
    exact ⟨labelled.trimmed, labelled.nonempty, labelled.notTop⟩
  · intro label valves _
    exact build_duplicate_iff label valves
  · rintro hbuiltIn s rfl hframes steps
    obtain ⟨moments, htrail, hlodged⟩ := Walk.invoke_lodges hp hbuiltIn hframes steps
    refine ⟨moments, htrail, fun m hm => ⟨(hlodged m hm).labels_nodup, ?_⟩⟩
    exact (hlodged m hm).findLabel_iff

private def innerScope : Pipeline :=
  ⟨some "inner", [.breakWith (.label "outer")]⟩

private def labelledScopes : Pipeline :=
  ⟨some "outer", [.sub innerScope, .passThrough]⟩

private theorem Pipeline.Built.sub {p : Pipeline} (h : p.Built) : (Valve.sub p).Built := by
  have built : Valve.buildSub (some p) = .ok (.sub p) := rfl
  exact .sub (fun _ hp => Option.some.inj hp ▸ h) built

private theorem innerScope_built : innerScope.Built := by
  have leaf : ∀ v ∈ [Valve.breakWith (.label "outer")], v.Built :=
    fun v hv => List.mem_singleton.mp hv ▸ .leaf rfl
  have built : Pipeline.build (some " inner ") [.breakWith (.label "outer")] = .ok innerScope := rfl
  exact .build leaf built

private theorem labelledScopes_built : labelledScopes.Built := by
  have built : Pipeline.build (some "outer") [.sub innerScope, .passThrough] =
      .ok labelledScopes := rfl
  refine .build (fun v hv => ?_) built
  rcases List.mem_cons.mp hv with rfl | hv
  · exact innerScope_built.sub
  · obtain rfl := List.mem_singleton.mp hv
    exact .leaf rfl

private theorem labelledScopes_builtIn : labelledScopes.BuiltIn := by
  have leaf {v : Valve} (hv : ∀ name script, v ≠ .scripted name script)
      (hchildren : v.children = []) : v.BuiltIn := .of_leaf hv hchildren
  have inner : innerScope.BuiltIn := by
    refine .intro fun v hv => ?_
    obtain rfl := List.mem_singleton.mp hv
    exact leaf nofun rfl
  refine .intro fun v hv => ?_
  rcases List.mem_cons.mp hv with rfl | hv
  · refine .intro nofun fun p hp => ?_
    obtain rfl : p = innerScope := List.mem_singleton.mp hp
    exact inner
  · obtain rfl := List.mem_singleton.mp hv
    exact leaf nofun rfl

private def labelledRun : Session :=
  ((Session.start labelledScopes .collect {}).invoke 3).session

theorem Pipeline.labels_wellFormed_of_labelledScopes :
    ([labelledScopes, innerScope].filterMap (·.label)).Nodup ∧
    (∃ e, build (some "inner") [.sub labelledScopes] = .error e ∧
      e.code? = some "CONTRACT-PIPELINE-DUPLICATE_LABEL") ∧
    ∃ m ∈ labelledRun.trail, m.mark = .request (.label "outer") ∧ m.findLabel "outer" = some 1 := by
  obtain ⟨distinct, -, -, duplicate, run⟩ := labels_wellFormed labelledScopes_built
  have inner : labelledScopes.HasChild innerScope :=
    ⟨.sub innerScope, List.mem_cons_self, List.mem_cons_self⟩
  refine ⟨?_, ?_, ?_⟩
  · exact distinct [innerScope] (.cons_cons inner (.singleton _))
  · refine (duplicate (some "inner") [.sub labelledScopes] fun v hv => ?_).mpr
      ⟨"inner", "inner", rfl, rfl, .sub labelledScopes, List.mem_cons_self, labelledScopes,
        List.mem_cons_self, innerScope, .single inner, rfl⟩
    obtain rfl := List.mem_singleton.mp hv
    exact labelledScopes_built.sub
  · obtain ⟨moments, htrail, hfound⟩ :=
      run labelledScopes_builtIn (Session.start labelledScopes .collect {}) rfl rfl 3
    have hmem : labelledRun.trail[4] ∈ labelledRun.trail := List.getElem_mem _
    obtain rfl : labelledRun.trail = moments := htrail
    have hlabels := (hfound labelledRun.trail[4] hmem).2
    exact ⟨labelledRun.trail[4], hmem, rfl, (hlabels "outer" 1).mpr ⟨_, rfl, rfl⟩⟩

end ValvePipeline
