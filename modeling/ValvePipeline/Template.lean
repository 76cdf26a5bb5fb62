import ValvePipeline.Attributes
import ValvePipeline.Json.Printer

/-!
Message templates. A name in braces is a hole that the attribute of that name fills; a hole whose
name is not set stays as it is written, and so does an opening brace that is never closed.
-/

set_option autoImplicit false
set_option relaxedAutoImplicit false

namespace ValvePipeline.Template

/-- What stands in the place of a hole. A text stands for itself, any other value for its compact
form. -/
def fill (attributes : Attributes) (key : List Char) : List Char :=
  match attributes.get? (String.ofList key) with
  | some (.string s) => s.toList
  | some value => value.print
  | none => '\x7b' :: (key ++ ['\x7d'])

/-- Renders what is left of a template. Inside a hole the part of its name that was read so far is
carried along, last character first. -/
def renderFrom (attributes : Attributes) : Option (List Char) → List Char → List Char
  | none, [] => []
  | some key, [] => '\x7b' :: key.reverse
  | none, c :: cs =>
    if c = '\x7b' then renderFrom attributes (some []) cs
    else c :: renderFrom attributes none cs
  | some key, c :: cs =>
    if c = '\x7d' then fill attributes key.reverse ++ renderFrom attributes none cs
    else renderFrom attributes (some (c :: key)) cs

def render (message : String) (attributes : Attributes) : String :=
  String.ofList (renderFrom attributes none message.toList)

end ValvePipeline.Template
