import ValvePipeline.Binary64.Layout
import ValvePipeline.Json.Basic
import ValvePipeline.Text.Quoted

/-!
Two texts of a value: the compact form, which is read back by the reader, and the inspected form,
which names the kind of every part and is shown inside condition displays.
-/

set_option autoImplicit false
set_option relaxedAutoImplicit false

namespace ValvePipeline

namespace Number

/-- Binary numbers are written out from a hundred-thousandth up to sixteen whole places. -/
def layout : Binary64.Layout :=
  { least := -5, greatest := 15 }

/-- The text of a number. A binary number always shows a point or a power of ten. -/
def print : Number → List Char
  | .int (.ofNat n) => Binary64.digitsOf n
  | .int (.negSucc n) => '-' :: Binary64.digitsOf (n + 1)
  | .float x => x.print layout

end Number

namespace Json

def controlEscape (c : Char) : List Char :=
  let digits := Nat.toDigits 16 c.toNat
  ['\\', 'u'] ++ List.replicate (4 - digits.length) '0' ++ digits

/-- One character inside a string of the compact form. Only quotes, backslashes and control
characters below the space are escaped. -/
def escapedChar (c : Char) : List Char :=
  if c = '"' then ['\\', '"']
  else if c = '\\' then ['\\', '\\']
  else if ' ' ≤ c then [c]
  else if c = '\n' then ['\\', 'n']
  else if c = '\t' then ['\\', 't']
  else if c = '\r' then ['\\', 'r']
  else if c.toNat = 8 then ['\\', 'b']
  else if c.toNat = 12 then ['\\', 'f']
  else controlEscape c

def printText (s : String) : List Char :=
  '"' :: (s.toList.flatMap escapedChar ++ ['"'])

mutual

/-- The compact form: no blanks between the tokens. -/
def print : Json → List Char
  | .null => ['n', 'u', 'l', 'l']
  | .bool true => ['t', 'r', 'u', 'e']
  | .bool false => ['f', 'a', 'l', 's', 'e']
  | .number n => n.print
  | .string s => printText s
  | .array [] => ['[', ']']
  | .array (item :: items) => '[' :: (print item ++ printItems items)
  | .object [] => ['\x7b', '\x7d']
  | .object ((name, value) :: fields) =>
    '\x7b' :: (printText name ++ ':' :: (print value ++ printFields fields))

def printItems : List Json → List Char
  | [] => [']']
  | item :: items => ',' :: (print item ++ printItems items)

def printFields : List (String × Json) → List Char
  | [] => ['\x7d']
  | (name, value) :: fields =>
    ',' :: (printText name ++ ':' :: (print value ++ printFields fields))

end

def compact (value : Json) : String :=
  String.ofList value.print

mutual

def inspect : Json → String
  | .null => "Null"
  | .bool true => "Bool(true)"
  | .bool false => "Bool(false)"
  | .number n => "Number(" ++ String.ofList n.print ++ ")"
  | .string s => "String(" ++ Text.quoted s ++ ")"
  | .array items => "Array [" ++ ", ".intercalate (inspectItems items) ++ "]"
  | .object fields => "Object \x7b" ++ ", ".intercalate (inspectFields fields) ++ "\x7d"

def inspectItems : List Json → List String
  | [] => []
  | item :: items => inspect item :: inspectItems items

def inspectFields : List (String × Json) → List String
  | [] => []
  | (name, value) :: fields =>
    (Text.quoted name ++ ": " ++ inspect value) :: inspectFields fields

end

end Json

end ValvePipeline
