import ValvePipeline.Condition

/-!
Negation normal form. Pushing every negation down to the leaves of a condition turns conjunctions under it into
disjunctions and back. The outcome has the same answer, and looks at the same leaves in the same order: a list
that stopped at the first false one stops at the first true one instead, and there the answers are opposite.
-/

set_option autoImplicit false
set_option relaxedAutoImplicit false

namespace ValvePipeline.Condition

/-- The condition is looked at in one piece. A named one is, whatever it is made of: it is known by its name. -/
def isLeaf : Condition → Bool
  | .not _ | .all _ | .any _ => false
  | _ => true

mutual

/-- The condition with its negations at the leaves, or that of its negation. -/
def pushNot (negated : Bool) : Condition → Condition
  | .not c => pushNot (!negated) c
  | .all cs => if negated then .any (pushNotEach true cs) else .all (pushNotEach false cs)
  | .any cs => if negated then .all (pushNotEach true cs) else .any (pushNotEach false cs)
  | leaf => if negated then .not leaf else leaf

def pushNotEach (negated : Bool) : List Condition → List Condition
  | [] => []
  | c :: cs => pushNot negated c :: pushNotEach negated cs

end

def nnf (c : Condition) : Condition :=
  c.pushNot false

inductive IsNormal : Condition → Prop
  | leaf {c : Condition} : c.isLeaf → IsNormal c
  | not {c : Condition} : c.isLeaf → IsNormal (.not c)
  | all {cs : List Condition} : (∀ c ∈ cs, IsNormal c) → IsNormal (.all cs)
  | any {cs : List Condition} : (∀ c ∈ cs, IsNormal c) → IsNormal (.any cs)

/-- The condition comes to this answer by looking at these leaves, in this order. A conjunction looks at its
parts up to the first that does not hold, a disjunction up to the first that does. -/
inductive Evaluates (attributes : Attributes) : Condition → Bool → List Condition → Prop
  | leaf {c : Condition} : c.isLeaf → Evaluates attributes c (c.holds attributes) [c]
  | not {c : Condition} {answer : Bool} {leaves : List Condition} :
    Evaluates attributes c answer leaves → Evaluates attributes (.not c) (!answer) leaves
  | allNil : Evaluates attributes (.all []) true []
  | allStop {c : Condition} {cs leaves : List Condition} : Evaluates attributes c false leaves →
    Evaluates attributes (.all (c :: cs)) false leaves
  | allNext {c : Condition} {cs leaves others : List Condition} {answer : Bool} :
    Evaluates attributes c true leaves → Evaluates attributes (.all cs) answer others →
    Evaluates attributes (.all (c :: cs)) answer (leaves ++ others)
  | anyNil : Evaluates attributes (.any []) false []
  | anyStop {c : Condition} {cs leaves : List Condition} : Evaluates attributes c true leaves →
    Evaluates attributes (.any (c :: cs)) true leaves
  | anyNext {c : Condition} {cs leaves others : List Condition} {answer : Bool} :
    Evaluates attributes c false leaves → Evaluates attributes (.any cs) answer others →
    Evaluates attributes (.any (c :: cs)) answer (leaves ++ others)

variable {attributes : Attributes} {c : Condition} {cs leaves leaves' : List Condition}
  {answer answer' negated : Bool}

theorem pushNot_leaf (h : c.isLeaf) : c.pushNot negated = if negated then .not c else c := by
  cases c <;> first | rfl | simp [isLeaf] at h

/-! ## Every condition is evaluated in one way -/

def notes (attributes : Attributes) (leaves : List Condition) : List String :=
  leaves.flatMap fun leaf => (leaf.eval attributes).2

@[simp] theorem notes_append (leaves leaves' : List Condition) :
    notes attributes (leaves ++ leaves') = notes attributes leaves ++ notes attributes leaves' :=
  List.flatMap_append

theorem Evaluates.eval (h : Evaluates attributes c answer leaves) :
    c.eval attributes = (answer, notes attributes leaves) := by
  induction h with
  | leaf _ => simp [holds, notes]
  | not _ ih => simp [Condition.eval, ih]
  | allNil => rfl
  | anyNil => rfl
  | allStop _ ih => simp [Condition.eval, evalAll, ih]
  | anyStop _ ih => simp [Condition.eval, evalAny, ih]
  | allNext _ _ ih ihs =>
    rw [Condition.eval] at ihs ⊢
    simp [evalAll, ih, ihs]
  | anyNext _ _ ih ihs =>
    rw [Condition.eval] at ihs ⊢
    simp [evalAny, ih, ihs]

mutual

theorem exists_evaluates (attributes : Attributes) :
    ∀ c : Condition, ∃ answer leaves, Evaluates attributes c answer leaves
  | .not c =>
    have ⟨_, _, h⟩ := exists_evaluates attributes c
    ⟨_, _, .not h⟩
  | .all cs => exists_evaluates_all attributes cs
  | .any cs => exists_evaluates_any attributes cs
  | .constant _ | .isSet _ | .equals .. | .isTrue _ | .expression _ | .named .. | .custom .. =>
    ⟨_, _, .leaf rfl⟩

theorem exists_evaluates_all (attributes : Attributes) :
    ∀ cs : List Condition, ∃ answer leaves, Evaluates attributes (.all cs) answer leaves
  | [] => ⟨_, _, .allNil⟩
  | c :: cs =>
    match exists_evaluates attributes c with
    | ⟨false, _, h⟩ => ⟨_, _, .allStop h⟩
    | ⟨true, _, h⟩ =>
      have ⟨_, _, hs⟩ := exists_evaluates_all attributes cs
      ⟨_, _, .allNext h hs⟩

theorem exists_evaluates_any (attributes : Attributes) :
    ∀ cs : List Condition, ∃ answer leaves, Evaluates attributes (.any cs) answer leaves
  | [] => ⟨_, _, .anyNil⟩
  | c :: cs =>
    match exists_evaluates attributes c with
    | ⟨true, _, h⟩ => ⟨_, _, .anyStop h⟩
    | ⟨false, _, h⟩ =>
      have ⟨_, _, hs⟩ := exists_evaluates_any attributes cs
      ⟨_, _, .anyNext h hs⟩

end

theorem Evaluates.answer_eq (h : Evaluates attributes c answer leaves) :
    answer = c.holds attributes := by
  simp [holds, h.eval]

theorem Evaluates.unique (h : Evaluates attributes c answer leaves)
    (h' : Evaluates attributes c answer' leaves') : answer' = answer ∧ leaves' = leaves := by
  refine ⟨h'.answer_eq.trans h.answer_eq.symm, ?_⟩
  -- Where one evaluation stops and the other goes on, the part at that place would have two answers.
  induction h generalizing answer' leaves' with
  | leaf hleaf =>
    cases h' with
    | leaf _ => rfl
    | _ => simp [isLeaf] at hleaf
  | not _ ih =>
    cases h' with
    | not h' => exact ih h'
    | leaf hleaf => simp [isLeaf] at hleaf
  | allNil =>
    cases h' with
    | allNil => rfl
    | leaf hleaf => simp [isLeaf] at hleaf
  | anyNil =>
    cases h' with
    | anyNil => rfl
    | leaf hleaf => simp [isLeaf] at hleaf
  | allStop h ih =>
    cases h' with
    | allStop h' => exact ih h'
    | allNext h' _ => exact absurd (h.answer_eq.trans h'.answer_eq.symm) (by decide)
    | leaf hleaf => simp [isLeaf] at hleaf
  | anyStop h ih =>
    cases h' with
    | anyStop h' => exact ih h'
    | anyNext h' _ => exact absurd (h.answer_eq.trans h'.answer_eq.symm) (by decide)
    | leaf hleaf => simp [isLeaf] at hleaf
  | allNext h _ ih ihs =>
    cases h' with
    | allStop h' => exact absurd (h.answer_eq.trans h'.answer_eq.symm) (by decide)
    | allNext h' hs' => rw [ih h', ihs hs']
    | leaf hleaf => simp [isLeaf] at hleaf
  | anyNext h _ ih ihs =>
    cases h' with
    | anyStop h' => exact absurd (h.answer_eq.trans h'.answer_eq.symm) (by decide)
    | anyNext h' hs' => rw [ih h', ihs hs']
    | leaf hleaf => simp [isLeaf] at hleaf

/-! ## Pushed down to the leaves -/

mutual

theorem isNormal_pushNot (negated : Bool) : ∀ c : Condition, (c.pushNot negated).IsNormal
  | .not c => isNormal_pushNot (!negated) c
  | .all cs => by
    cases negated with
    | false => exact .all (isNormal_pushNotEach false cs)
    | true => exact .any (isNormal_pushNotEach true cs)
  | .any cs => by
    cases negated with
    | false => exact .any (isNormal_pushNotEach false cs)
    | true => exact .all (isNormal_pushNotEach true cs)
  | .constant _ | .isSet _ | .equals .. | .isTrue _ | .expression _ | .named .. | .custom .. => by
    rw [pushNot_leaf rfl]
    cases negated with
    | false => exact .leaf rfl
    | true => exact .not rfl

theorem isNormal_pushNotEach (negated : Bool) :
    ∀ cs : List Condition, ∀ c ∈ pushNotEach negated cs, c.IsNormal
  | [] => nofun
  | c :: cs => List.forall_mem_cons.mpr ⟨isNormal_pushNot negated c, isNormal_pushNotEach negated cs⟩

end

/-- Negations move through an evaluation: it keeps its leaves, and has the opposite answer when the condition
was negated. -/
theorem Evaluates.pushNot (h : Evaluates attributes c answer leaves) (negated : Bool) :
    Evaluates attributes (c.pushNot negated) (answer != negated) leaves := by
  induction h generalizing negated with
  | leaf hleaf =>
    rw [pushNot_leaf hleaf]
    cases negated with
    | false => simpa using Evaluates.leaf hleaf
    | true => simpa using Evaluates.not (.leaf hleaf)
  | not _ ih => simpa [Condition.pushNot] using ih (!negated)
  | allNil =>
    cases negated with
    | false => exact .allNil
    | true => exact .anyNil
  | anyNil =>
    cases negated with
    | false => exact .anyNil
    | true => exact .allNil
  | allStop _ ih =>
    cases negated with
    | false => exact .allStop (ih false)
    | true => exact .anyStop (ih true)
  | anyStop _ ih =>
    cases negated with
    | false => exact .anyStop (ih false)
    | true => exact .allStop (ih true)
  | allNext _ _ ih ihs =>
    cases negated with
    | false => exact .allNext (ih false) (ihs false)
    | true => exact .anyNext (ih true) (ihs true)
  | anyNext _ _ ih ihs =>
    cases negated with
    | false => exact .anyNext (ih false) (ihs false)
    | true => exact .allNext (ih true) (ihs true)

/-- A condition and its negation normal form have the same answer and leave the same notes, and both look at the
same leaves, in the same order and no others. -/
theorem nnf_evaluates (attributes : Attributes) (c : Condition) :
    c.nnf.IsNormal ∧
      c.nnf.eval attributes = c.eval attributes ∧
      ∃ leaves : List Condition,
        (∀ answer looked, Evaluates attributes c answer looked ↔
          answer = c.holds attributes ∧ looked = leaves) ∧
        (∀ answer looked, Evaluates attributes c.nnf answer looked ↔
          answer = c.holds attributes ∧ looked = leaves) ∧
        (c.eval attributes).2 = notes attributes leaves := by
  obtain ⟨answer, leaves, h⟩ := exists_evaluates attributes c
  have hnnf : Evaluates attributes c.nnf answer leaves := by simpa [nnf] using h.pushNot false
  -- One evaluation is all of them.
  have honly {d : Condition} (hd : Evaluates attributes d answer leaves) (answer' : Bool)
      (looked : List Condition) :
      Evaluates attributes d answer' looked ↔ answer' = c.holds attributes ∧ looked = leaves := by
    rw [← h.answer_eq]
    exact ⟨hd.unique, fun ⟨hanswer, hlooked⟩ => hanswer ▸ hlooked ▸ hd⟩
  refine ⟨isNormal_pushNot false c, hnnf.eval.trans h.eval.symm, leaves, honly h, honly hnnf, ?_⟩
  rw [h.eval]

/-- The second of two conditions is not looked at, however the disjunction is negated. -/
example (c d : Condition) :
    (Condition.not (.any [.named "c" (.constant true), .not (.all [c, d])])).nnf.eval {} =
      (false, ["?c=true"]) := rfl

end ValvePipeline.Condition
