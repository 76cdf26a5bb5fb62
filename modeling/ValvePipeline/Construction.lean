import ValvePipeline.Pipeline.Outline
import ValvePipeline.Validation

/-!
Putting pipelines together. Everything a valve needs is checked here, so that a pipeline that was
built has its parts: each composite valve its blocks and condition, each choice its pairs, and each
label is declared once on every path inward.
-/

set_option autoImplicit false
set_option relaxedAutoImplicit false

namespace ValvePipeline

/-- A label without the blanks around it. Blank labels and the one that stands for the outermost
scope are refused. -/
def checkLabel (label : String) : Except ValidationError String :=
  let name := Text.trim label
  if name = "" ∨ name = Signal.topLabel then .error (.badLabel label) else .ok name

theorem checkLabel_eq_ok_iff (label name : String) :
    checkLabel label = .ok name ↔
      name = Text.trim label ∧ Text.trim label ≠ "" ∧ Text.trim label ≠ Signal.topLabel := by
  unfold checkLabel
  by_cases h : Text.trim label = "" ∨ Text.trim label = Signal.topLabel
  · simp only [h, if_true]
    constructor
    · intro contra
      cases contra
    · rintro ⟨_, hblank, htop⟩
      exact absurd h (by simp [hblank, htop])
  · have hne := not_or.1 h
    simp only [h, if_false, Except.ok.injEq]
    exact ⟨fun e => ⟨e.symm, hne.1, hne.2⟩, fun e => e.1.symm⟩

/-- The signal of a break to a label; the reserved label asks for an exit. -/
def labelSignal (label : String) : Except ValidationError Signal :=
  if Text.trim label = Signal.topLabel then .ok .exit else (checkLabel label).map .label

def required {α : Type} (missing : ValidationError) : Option α → Except ValidationError α
  | some part => .ok part
  | none => .error missing

/-- Where a conditional break goes: a count of scopes, unless a label was named after it. -/
structure BreakTarget where
  count : Nat := 0
  label : Option String := none
  deriving DecidableEq, Repr

namespace BreakTarget

def levels (_ : BreakTarget) (count : Nat) : BreakTarget :=
  { count, label := none }

def toLabel (t : BreakTarget) (label : String) : BreakTarget :=
  { t with label := some label }

def signal (t : BreakTarget) : Except ValidationError Signal :=
  match t.label with
  | some label => labelSignal label
  | none => .ok (.level t.count)

end BreakTarget

/-- A choice that is being put together: conditions and blocks in the order in which they came. -/
structure ChooseBuilder where
  conditions : List Condition := []
  blocks : List Pipeline := []
  otherwise : Option Pipeline := none

namespace ChooseBuilder

def condition (b : ChooseBuilder) (c : Condition) : ChooseBuilder :=
  { b with conditions := b.conditions ++ [c] }

def block (b : ChooseBuilder) (p : Pipeline) : ChooseBuilder :=
  { b with blocks := b.blocks ++ [p] }

def when (b : ChooseBuilder) (c : Condition) (p : Pipeline) : ChooseBuilder :=
  (b.condition c).block p

def lastResort (b : ChooseBuilder) (p : Pipeline) : ChooseBuilder :=
  { b with otherwise := some p }

/-- The choice, with conditions and blocks paired by their places. -/
def build (b : ChooseBuilder) : Except ValidationError Valve :=
  let conditions := b.conditions.length
  let blocks := b.blocks.length
  if conditions = blocks then
    .ok (.choose (b.conditions.zipWith Branch.mk b.blocks) b.otherwise)
  else
    .error (.chooseMismatch (min conditions blocks) conditions blocks)

end ChooseBuilder

namespace Valve

def buildBreakToLabel (label : String) : Except ValidationError Valve :=
  (labelSignal label).map .breakWith

def buildBreakIf (condition : Option Condition) (target : BreakTarget) :
    Except ValidationError Valve := do
  let condition ← required (.missingCondition "break-if") condition
  return .breakIf condition (← target.signal)

def buildBreakUnless (condition : Option Condition) (target : BreakTarget) :
    Except ValidationError Valve := do
  let condition ← required (.missingCondition "break-unless") condition
  return .breakUnless condition (← target.signal)

def buildLoop (body : Option Pipeline) (config : LoopConfig) : Except ValidationError Valve := do
  let body ← required (.missingBody "loop" "body") body
  return .loop body config.normalized

/-- A loop with a condition; the body is looked for first. -/
def buildWhile (body : Option Pipeline) (condition : Option Condition) (config : LoopConfig) :
    Except ValidationError Valve := do
  let body ← required (.missingBody "while" "body") body
  let condition ← required (.missingCondition "while") condition
  return .whileLoop condition body config.normalized

def buildIf (condition : Option Condition) (block : Option Pipeline) :
    Except ValidationError Valve := do
  let condition ← required (.missingCondition "if") condition
  let block ← required (.missingBody "if" "block") block
  return .ifThen condition block

def buildSub (pipeline : Option Pipeline) : Except ValidationError Valve := do
  let pipeline ← required (.missingBody "sub-pipeline" "child") pipeline
  return .sub pipeline

def buildGuarded (tryBlock catchBlock finallyBlock : Option Pipeline) (config : CatchConfig) :
    Valve :=
  .guarded tryBlock catchBlock finallyBlock config.normalized

end Valve

namespace Pipeline

/-- A pipeline with a checked label that none of the nested pipelines has. -/
def build (label : Option String) (valves : List Valve) : Except ValidationError Pipeline :=
  match label with
  | none => .ok ⟨none, valves⟩
  | some label => do
    let name ← checkLabel label
    if valves.any fun v => v.children.any (·.carries name) then .error (.duplicateLabel name)
    else .ok ⟨some name, valves⟩

def builtLine (p : Pipeline) : LogLine :=
  .of .trace "Built pipeline"
    [("label", .string p.displayName), ("valves", .nat p.valves.length)]

end Pipeline

abbrev Construction := ExceptT ValidationError (StateM (Array LogLine))

def Pipeline.construct (label : Option String) (valves : List Valve) : Construction Pipeline := do
  let p ← liftExcept (Pipeline.build label valves)
  modify (·.push p.builtLine)
  return p
where
  /-- A check is a construction that logs nothing. -/
  liftExcept (x : Except ValidationError Pipeline) : Construction Pipeline :=
    ExceptT.mk (pure x)

end ValvePipeline
