import ValvePipeline.Pipeline.Basic

/-!
Outlines: what a pipeline looks like from outside. An outline keeps the labels and the descriptions
of the valves, and the tree display is a text of the outline.
-/

set_option autoImplicit false
set_option relaxedAutoImplicit false

namespace ValvePipeline

mutual

/-- The label of a pipeline and an entry for each valve. -/
structure Outline where
  label : Option String
  entries : List Outline.Entry

structure Outline.Entry where
  description : String
  blocks : List Outline

end

namespace Outline

mutual

/-- The outline, or one inside it, has this label. -/
def carries (label : String) : Outline → Bool
  | ⟨own, entries⟩ => own == some label || entriesCarry label entries

def entriesCarry (label : String) : List Entry → Bool
  | [] => false
  | ⟨_, blocks⟩ :: entries => blocksCarry label blocks || entriesCarry label entries

def blocksCarry (label : String) : List Outline → Bool
  | [] => false
  | block :: blocks => carries label block || blocksCarry label blocks

end

def header (label : Option String) : String :=
  match label with
  | some label => "pipeline [" ++ label ++ "]"
  | none => "pipeline"

def line (indent : Nat) (text : String) : String :=
  "".pushn ' ' (2 * indent) ++ text ++ "\n"

mutual

def display (indent : Nat) : Outline → String
  | ⟨label, entries⟩ => line indent (header label) ++ displayEntries indent 0 entries

/-- The display of the entries from some index on, each with its blocks below it. -/
def displayEntries (indent index : Nat) : List Entry → String
  | [] => ""
  | ⟨description, blocks⟩ :: entries =>
    line (indent + 1) (toString index ++ ": " ++ description) ++
      (displayBlocks (indent + 2) blocks ++ displayEntries indent (index + 1) entries)

def displayBlocks (indent : Nat) : List Outline → String
  | [] => ""
  | block :: blocks => display indent block ++ displayBlocks indent blocks

end

end Outline

mutual

def Pipeline.outline : Pipeline → Outline
  | ⟨label, valves⟩ => ⟨label, Valve.outlines valves⟩

def Valve.outlines : List Valve → List Outline.Entry
  | [] => []
  | valve :: valves => ⟨valve.describe, valve.blocks⟩ :: Valve.outlines valves

def Valve.blocks : Valve → List Outline
  | .loop body _ => [body.outline]
  | .whileLoop _ body _ => [body.outline]
  | .ifThen _ block => [block.outline]
  | .choose branches otherwise => Branch.outlines branches ++ Pipeline.outlines? otherwise
  | .sub pipeline => [pipeline.outline]
  | .guarded tryBlock catchBlock finallyBlock _ =>
    Pipeline.outlines? tryBlock ++ Pipeline.outlines? catchBlock ++ Pipeline.outlines? finallyBlock
  | _ => []

def Branch.outlines : List Branch → List Outline
  | [] => []
  | ⟨_, block⟩ :: branches => block.outline :: Branch.outlines branches

def Pipeline.outlines? : Option Pipeline → List Outline
  | none => []
  | some pipeline => [pipeline.outline]

end

namespace Pipeline

/-- The pipeline, or one nested in it at any depth, has this label. -/
def carries (p : Pipeline) (label : String) : Bool :=
  p.outline.carries label

def display (p : Pipeline) : String :=
  p.outline.display 0

end Pipeline

theorem Branch.outlines_eq_map (branches : List Branch) :
    Branch.outlines branches = branches.map fun b => b.block.outline := by
  induction branches with
  | nil => rfl
  | cons b branches ih => cases b; simp [Branch.outlines, ih]

theorem Pipeline.outlines?_eq_map (p : Option Pipeline) :
    Pipeline.outlines? p = p.toList.map Pipeline.outline := by
  cases p <;> rfl

theorem Valve.blocks_eq_map (v : Valve) : v.blocks = v.children.map Pipeline.outline := by
  cases v <;>
    simp [Valve.blocks, Valve.children, Branch.outlines_eq_map, Pipeline.outlines?_eq_map]

theorem Valve.outlines_eq_map (valves : List Valve) :
    Valve.outlines valves = valves.map fun v => ⟨v.describe, v.children.map Pipeline.outline⟩ := by
  induction valves with
  | nil => rfl
  | cons v valves ih => simp [Valve.outlines, Valve.blocks_eq_map, ih]

end ValvePipeline
