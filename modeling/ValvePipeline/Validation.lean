import ValvePipeline.Json.Typed

/-!
Faults found while pipelines are being put together. A fault has a message, the valves it is about,
and diagnostic information: a code, a summary, a hint and named details.
-/

set_option autoImplicit false
set_option relaxedAutoImplicit false

namespace ValvePipeline

structure ContractInfo where
  code : String
  summary : String
  hint : Option String := none
  details : Table String := []
  deriving DecidableEq, Repr

namespace ContractInfo

def detailsJson (info : ContractInfo) : Json :=
  .object (info.details.map fun (key, text) => (key, .string text))

/-- The information with an absent hint and empty details left out. -/
def toDictionary (info : ContractInfo) : Json :=
  .ofFields <|
    [("code", .string info.code), ("summary", .string info.summary)] ++
      (match info.hint with
        | none => []
        | some hint => [("fix_hint", .string hint)]) ++
      (if info.details.isEmpty then [] else [("context", info.detailsJson)])

def toJson (info : ContractInfo) : Json :=
  .ofFields
    [("code", .string info.code), ("summary", .string info.summary),
      ("fix_hint", (info.hint.map .string).getD .null), ("context", info.detailsJson)]

def readDetails? (value : Json) : Option (Table String) := do
  (← value.fields?).mapM fun (key, text) => text.string?.map (key, ·)

def ofJson? (value : Json) : Option ContractInfo := do
  match ← value.parts? ["code", "summary", "fix_hint", "context"] 3 with
  | [code, summary, hint, details] =>
    return { code := ← (← code).string?
             summary := ← (← summary).string?
             hint := ← Json.optional? Json.string? hint
             details := ← Json.defaulted? readDetails? [] details }
  | _ => none

end ContractInfo

def suggestion? (code : String) : Option String :=
  match code with
  | "CONTRACT-VALVE-MISSING_BODY" =>
    some "Supply the child pipeline on the valve builder before calling build()."
  | "CONTRACT-VALVE-MISSING_CONDITION" =>
    some "Supply a condition on the valve builder before calling build()."
  | "CONTRACT-VALVE-CHOOSE_MISMATCH" =>
    some ("Every `when` needs exactly one condition and one block. " ++
      "Prefer `when(condition, block)` over the parallel setters.")
  | "CONTRACT-VALVE-BAD_LABEL" => some "Use a non-empty label without surrounding whitespace."
  | "CONTRACT-PIPELINE-DUPLICATE_LABEL" =>
    some "Rename the inner pipeline's label; a label must identify a single enclosing scope."
  | "CONTRACT-VALVE-BAD_EXPRESSION" =>
    some ("Expressions take the form `name`, `!name` or `name <op> literal` " ++
      "with op one of ==, !=, <, <=, >, >=.")
  | _ => none

structure ValidationError where
  message : String
  valves : List String := []
  info : Option ContractInfo := none
  deriving DecidableEq, Repr

namespace ValidationError

def diagnosis (code summary : String) (details : Table String) : ContractInfo :=
  { code, summary, hint := some ((suggestion? code).getD ""), details }

def missingBody (valve block : String) : ValidationError :=
  { message := valve ++ ": missing required " ++ block ++ " pipeline"
    valves := [valve]
    info := diagnosis "CONTRACT-VALVE-MISSING_BODY" ("No " ++ block ++ " pipeline configured")
      [("block", block)] }

def missingCondition (valve : String) : ValidationError :=
  { message := valve ++ ": missing required condition"
    valves := [valve]
    info := diagnosis "CONTRACT-VALVE-MISSING_CONDITION" "No condition configured" [] }

def chooseMismatch (index conditions blocks : Nat) : ValidationError :=
  let missing := if conditions > blocks then "block" else "condition"
  { message := "choose: when #" ++ toString index ++ " has no " ++ missing ++ " (" ++
      toString conditions ++ " conditions, " ++ toString blocks ++ " blocks)"
    valves := ["choose"]
    info := diagnosis "CONTRACT-VALVE-CHOOSE_MISMATCH"
      "Conditions and blocks must pair up one to one" [("index", toString index)] }

def badLabel (label : String) : ValidationError :=
  { message := "invalid pipeline label '" ++ label ++ "'"
    info := diagnosis "CONTRACT-VALVE-BAD_LABEL" "Labels must be non-blank names" [] }

def duplicateLabel (label : String) : ValidationError :=
  { message := "label '" ++ label ++ "' is declared more than once on one nesting path"
    info := diagnosis "CONTRACT-PIPELINE-DUPLICATE_LABEL"
      "A nested pipeline shadows an enclosing label" [("label", label)] }

def badExpression (expression reason : String) : ValidationError :=
  { message := "invalid condition expression '" ++ expression ++ "': " ++ reason
    info := diagnosis "CONTRACT-VALVE-BAD_EXPRESSION" reason [("expression", expression)] }

def code? (e : ValidationError) : Option String :=
  e.info.map (·.code)

def toDictionary (e : ValidationError) : Json :=
  .ofFields <|
    [("message", .string e.message), ("valves", .texts e.valves)] ++
      match e.info with
      | none => []
      | some info => [("error_info", info.toDictionary)]

end ValidationError

end ValvePipeline
