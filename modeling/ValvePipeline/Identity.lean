import ValvePipeline.Json.Reader
import ValvePipeline.Json.Typed

/-!
Identifiers of 128 bits, and the identity of one run: its own identifier and that of the request it
serves, if there is one.
-/

set_option autoImplicit false
set_option relaxedAutoImplicit false

namespace ValvePipeline

structure Uuid where
  digits : List (Fin 16)
  deriving DecidableEq, Repr, Inhabited

namespace Uuid

def nil : Uuid := ⟨List.replicate 32 0⟩

def groups : List Nat := [8, 4, 4, 4, 12]

def printDigit (d : Fin 16) : Char :=
  Nat.digitChar d

def hyphenate : List Nat → List Char → List Char
  | [], _ => []
  | [n], cs => cs.take n
  | n :: ns, cs => cs.take n ++ '-' :: hyphenate ns (cs.drop n)

def display (u : Uuid) : String :=
  String.ofList (hyphenate groups (u.digits.map printDigit))

/-- Takes the hyphens out of a hyphenated text; they must stand between the groups and nowhere
else. -/
def joinGroups? : List Nat → List Char → Option (List Char)
  | [], cs => if cs.isEmpty then some [] else none
  | [n], cs => if cs.length = n then some cs else none
  | n :: ns, cs =>
    match cs.drop n with
    | '-' :: rest => (joinGroups? ns rest).map (cs.take n ++ ·)
    | _ => none

def readDigit? (c : Char) : Option (Fin 16) := do
  let n ← Json.hexDigit? c
  if h : n < 16 then return ⟨n, h⟩ else none

def ofDigits? (cs : List Char) : Option Uuid :=
  if cs.length = 32 then (cs.mapM readDigit?).map Uuid.mk else none

def urnScheme : List Char := "urn:uuid:".toList

/-- Reads an identifier: bare digits, or the hyphenated form, alone, in braces or after its
scheme. -/
def read? (text : String) : Option Uuid :=
  let cs := text.toList
  if cs.length = 32 then ofDigits? cs
  else
    let inner : Option (List Char) :=
      if cs.length = 36 then some cs
      else if cs.length = 38 then
        if cs.head? = some '\x7b' && cs.getLast? = some '\x7d' then some (cs.drop 1).dropLast
        else none
      else if cs.length = 45 then
        if (cs.take urnScheme.length).map Char.toLower = urnScheme then
          some (cs.drop urnScheme.length)
        else none
      else none
    inner.bind fun cs => (joinGroups? groups cs).bind ofDigits?

def toJson (u : Uuid) : Json :=
  .string u.display

def ofJson? (value : Json) : Option Uuid :=
  value.string?.bind read?

end Uuid

structure Identity where
  invocation : Uuid := .nil
  request : Option Uuid := none
  deriving DecidableEq, Repr, Inhabited

namespace Identity

def fields (i : Identity) : List (String × Json) :=
  ("invocation_id", i.invocation.toJson) ::
    match i.request with
    | none => []
    | some request => [("request_id", request.toJson)]

def toJson (i : Identity) : Json :=
  .ofFields i.fields

/-- The identity with every field present; a missing request is null. -/
def toDictionary (i : Identity) : Json :=
  .ofFields
    [("invocation_id", i.invocation.toJson), ("request_id", (i.request.map Uuid.toJson).getD .null)]

def ofJson? (value : Json) : Option Identity := do
  match ← value.parts? ["invocation_id", "request_id"] 2 with
  | [invocation, request] =>
    return { invocation := ← Uuid.ofJson? (← invocation)
             request := ← Json.optional? Uuid.ofJson? request }
  | _ => none

end Identity

end ValvePipeline
