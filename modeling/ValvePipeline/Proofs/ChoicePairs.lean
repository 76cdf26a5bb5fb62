import ValvePipeline.Construction
import ValvePipeline.Proofs.BoundaryRule

/-!
The pairs of a choice. Conditions and blocks are collected in two lists, and a built choice pairs them by their
places. So a condition keeps the block that it came with when as many conditions as blocks came before the two,
and else it gets the block that came at its place.
-/

set_option autoImplicit false
set_option relaxedAutoImplicit false

namespace ValvePipeline

/-- What is said about a choice that is being put together. -/
inductive ChooseCall where
  | when (c : Condition) (p : Pipeline)
  | condition (c : Condition)
  | block (p : Pipeline)
  | otherwise (p : Pipeline)

namespace ChooseCall

def conditions : ChooseCall → List Condition
  | .when c _ => [c]
  | .condition c => [c]
  | .block _ => []
  | .otherwise _ => []

def blocks : ChooseCall → List Pipeline
  | .when _ p => [p]
  | .condition _ => []
  | .block p => [p]
  | .otherwise _ => []

end ChooseCall

namespace ChooseBuilder

def make (b : ChooseBuilder) : ChooseCall → ChooseBuilder
  | .when c p => b.when c p
  | .condition c => b.condition c
  | .block p => b.block p
  | .otherwise p => b.lastResort p

def ofCalls (calls : List ChooseCall) : ChooseBuilder :=
  calls.foldl make {}

theorem make_eq (b : ChooseBuilder) (call : ChooseCall) :
    (b.make call).conditions = b.conditions ++ call.conditions ∧
      (b.make call).blocks = b.blocks ++ call.blocks := by
  cases call with
  | when c p => exact ⟨rfl, rfl⟩
  | condition c => exact ⟨rfl, (List.append_nil _).symm⟩
  | block p => exact ⟨(List.append_nil _).symm, rfl⟩
  | otherwise p => exact ⟨(List.append_nil _).symm, (List.append_nil _).symm⟩

theorem foldl_make_eq (calls : List ChooseCall) (b : ChooseBuilder) :
    (calls.foldl make b).conditions = b.conditions ++ calls.flatMap (·.conditions) ∧
      (calls.foldl make b).blocks = b.blocks ++ calls.flatMap (·.blocks) := by
  induction calls generalizing b with
  | nil => exact ⟨(List.append_nil _).symm, (List.append_nil _).symm⟩
  | cons call calls ih =>
    obtain ⟨hconditions, hblocks⟩ := ih (b.make call)
    obtain ⟨hcondition, hblock⟩ := b.make_eq call
    rw [hcondition, List.append_assoc] at hconditions
    rw [hblock, List.append_assoc] at hblocks
    exact ⟨hconditions, hblocks⟩

theorem ofCalls_eq (calls : List ChooseCall) :
    (ofCalls calls).conditions = calls.flatMap (·.conditions) ∧
      (ofCalls calls).blocks = calls.flatMap (·.blocks) :=
  foldl_make_eq calls {}

theorem build_eq_ok_iff {b : ChooseBuilder} {v : Valve} : b.build = .ok v ↔
    b.conditions.length = b.blocks.length ∧
      v = .choose (b.conditions.zipWith Branch.mk b.blocks) b.otherwise := by
  unfold build
  by_cases h : b.conditions.length = b.blocks.length
  · simp [h, eq_comm]
  · simp [h]

end ChooseBuilder

def Session.askEach (t : Session) (cs : List Condition) : Session :=
  cs.foldl (fun t c => (t.ask c).2) t

namespace Valve

variable {branch : Branch} {earlier later : List Branch} {otherwise : Option Pipeline} {t : Session}

theorem run_select_of_first (later : List Branch) (otherwise : Option Pipeline)
    (hearlier : ∀ b ∈ earlier, b.condition.holds t.attributes = false)
    (hholds : branch.condition.holds t.attributes = true) :
    (work.select (earlier ++ branch :: later) otherwise).run t =
      .answered (some branch.block) (t.askEach ((earlier ++ [branch]).map (·.condition))) := by
  induction earlier generalizing t with
  | nil =>
    have hanswer : (t.ask branch.condition).1 = true := hholds
    simp only [List.nil_append, work.select, Run.run_bind, Run.run_act, hanswer]
    rfl
  | cons first earlier ih =>
    have hanswer : (t.ask first.condition).1 = false := hearlier first List.mem_cons_self
    have hlater := ih (t := (t.ask first.condition).2)
      (by rw [t.attributes_ask]; exact fun b hb => hearlier b (List.mem_cons_of_mem first hb))
      (by rw [t.attributes_ask]; exact hholds)
    simp only [List.cons_append, work.select, Run.run_bind, Run.run_act, hanswer]
    exact hlater

theorem run_choose_of_first (start : Starter) (steps : Nat) (later : List Branch)
    (otherwise : Option Pipeline) (hearlier : ∀ b ∈ earlier, b.condition.holds t.attributes = false)
    (hholds : branch.condition.holds t.attributes = true) :
    ((Valve.choose (earlier ++ branch :: later) otherwise).work start steps).run t =
      (Walk.runBlock start branch.block).run
        (t.askEach ((earlier ++ [branch]).map (·.condition))) := by
  rw [work, Run.run_bind, run_select_of_first later otherwise hearlier hholds]

end Valve

namespace ChooseBuilder

theorem map_condition_zipWith {cs : List Condition} {ps : List Pipeline} (h : cs.length = ps.length) :
    (cs.zipWith Branch.mk ps).map (·.condition) = cs := by
  induction cs generalizing ps with
  | nil => rfl
  | cons c cs ih =>
    cases ps with
    | nil => cases h
    | cons p ps => rw [List.zipWith_cons_cons, List.map_cons, ih (Nat.succ.inj h)]

theorem exists_block {cs others : List Condition} {c : Condition} {ps : List Pipeline}
    (h : (cs ++ c :: others).length = ps.length) :
    ∃ first p last, ps = first ++ p :: last ∧ cs.length = first.length := by
  have hplace : cs.length < ps.length := by
    rw [← h, List.length_append, List.length_cons]
    omega
  refine ⟨ps.take cs.length, ps[cs.length], ps.drop (cs.length + 1), ?_, ?_⟩
  · rw [List.getElem_cons_drop, List.take_append_drop]
  · rw [List.length_take, Nat.min_eq_left (Nat.le_of_lt hplace)]

variable {before later : List ChooseCall} {c : Condition} {p : Pipeline} {v : Valve}

/-- The branch of a condition that came with a block has the block at the same place among all blocks. That is
the block it came with when as many conditions as blocks came before. When the condition is the first that
holds, the block of its branch runs. -/
theorem choose_pairs (hbuild : (ofCalls (before ++ .when c p :: later)).build = .ok v) :
    ∃ earlier q others otherwise, v = .choose (earlier ++ ⟨c, q⟩ :: others) otherwise ∧
      earlier.map (·.condition) = before.flatMap (·.conditions) ∧
      ((before ++ .when c p :: later).flatMap (·.blocks))[earlier.length]? = some q ∧
      ((before.flatMap (·.conditions)).length = (before.flatMap (·.blocks)).length → q = p) ∧
      ∀ (start : Starter) (steps : Nat) (t : Session),
        (∀ b ∈ earlier, b.condition.holds t.attributes = false) → c.holds t.attributes = true →
        (v.work start steps).run t =
          (Walk.runBlock start q).run (t.askEach (before.flatMap (·.conditions) ++ [c])) := by
  obtain ⟨hlength, rfl⟩ := build_eq_ok_iff.mp hbuild
  obtain ⟨hconditions, hblocks⟩ := ofCalls_eq (before ++ .when c p :: later)
  have hcs : (before ++ .when c p :: later).flatMap (·.conditions) =
      before.flatMap (·.conditions) ++ c :: later.flatMap (·.conditions) := by
    rw [List.flatMap_append, List.flatMap_cons]
    rfl
  have hps : (before ++ .when c p :: later).flatMap (·.blocks) =
      before.flatMap (·.blocks) ++ p :: later.flatMap (·.blocks) := by
    rw [List.flatMap_append, List.flatMap_cons]
    rfl
  rw [hconditions, hblocks, hcs] at hlength ⊢
  obtain ⟨first, q, last, hsplit, hplace⟩ := exists_block hlength
  rw [hsplit, List.zipWith_append hplace, List.zipWith_cons_cons]
  have hearlier := map_condition_zipWith hplace
  have hcount : ((before.flatMap (·.conditions)).zipWith Branch.mk first).length = first.length := by
    rw [List.length_zipWith, hplace, Nat.min_self]
  refine ⟨_, q, _, _, rfl, hearlier, ?_, ?_, ?_⟩
  · rw [hcount, List.getElem?_append_right (Nat.le_refl _), Nat.sub_self, List.getElem?_cons_zero]
  · intro heven
    obtain ⟨-, htail⟩ := List.append_inj (hsplit.symm.trans hps) (hplace.symm.trans heven)
    exact (List.cons.inj htail).1
  · intro start steps t hfirst hholds
    rw [Valve.run_choose_of_first start steps _ _ hfirst hholds, List.map_append, hearlier]
    rfl

theorem choose_pairs_of_even : ∃ v,
    (ofCalls [.condition (.constant false), .block .empty,
      .when (.constant true) ⟨none, [.exit]⟩]).build = .ok v ∧
      ∀ (start : Starter) (steps : Nat) (t : Session), (v.work start steps).run t =
        (Walk.runBlock start ⟨none, [.exit]⟩).run (t.askEach [.constant false, .constant true]) := by
  obtain ⟨v, hbuild⟩ : ∃ v, (ofCalls ([.condition (.constant false), .block .empty] ++
      [.when (.constant true) ⟨none, [.exit]⟩])).build = .ok v := ⟨_, rfl⟩
  obtain ⟨earlier, q, others, otherwise, -, hearlier, -, hown, hruns⟩ := choose_pairs hbuild
  refine ⟨v, hbuild, fun start steps t => ?_⟩
  have hfirst : ∀ b ∈ earlier, b.condition.holds t.attributes = false := by
    intro b hb
    have hmem : b.condition ∈ earlier.map (·.condition) := List.mem_map_of_mem hb
    rw [hearlier] at hmem
    rw [List.mem_singleton.mp hmem]
    rfl
  rw [hruns start steps t hfirst rfl, hown rfl]
  rfl

/-- After a lone condition, a pair is torn apart. -/
theorem choose_pairs_torn :
    ¬∀ (before later : List ChooseCall) (c : Condition) (p : Pipeline) (v : Valve),
      (ofCalls (before ++ .when c p :: later)).build = .ok v →
      ∃ branches otherwise, v = .choose branches otherwise ∧ ⟨c, p⟩ ∈ branches := by
  intro h
  obtain ⟨branches, otherwise, hv, hmem⟩ := h [.condition (.constant false)] [.block .empty]
    (.constant true) ⟨none, [.exit]⟩ _ rfl
  cases hv
  have hbranches : (⟨.constant true, ⟨none, [.exit]⟩⟩ : Branch) ∈
      [⟨.constant false, ⟨none, [.exit]⟩⟩, ⟨.constant true, .empty⟩] := hmem
  rcases List.mem_pair.mp hbranches with heq | heq <;> cases heq

end ChooseBuilder

end ValvePipeline
