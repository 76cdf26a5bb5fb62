import ValvePipeline.Text.Extending
import ValvePipeline.Text.Unprintable

/-!
Quoted texts, as descriptions and condition displays show them: between double quotes, with the
usual short escapes, and with every character that has no picture of its own spelled by its number.
-/

set_option autoImplicit false
set_option relaxedAutoImplicit false

namespace ValvePipeline.Text

def spelled (c : Char) : List Char :=
  ['\\', 'u', '\x7b'] ++ Nat.toDigits 16 c.toNat ++ ['\x7d']

def quotedChar (c : Char) : List Char :=
  if c = '"' then ['\\', '"']
  else if c = '\\' then ['\\', '\\']
  else if ' ' ≤ c && c ≤ '~' then [c]
  else if c = '\n' then ['\\', 'n']
  else if c = '\t' then ['\\', 't']
  else if c = '\r' then ['\\', 'r']
  else if c.toNat = 0 then ['\\', '0']
  else if isExtending c || isUnprintable c then spelled c
  else [c]

/-- A text between double quotes, with its escapes. -/
def quoted (s : String) : String :=
  String.ofList ('"' :: (s.toList.flatMap quotedChar ++ ['"']))

end ValvePipeline.Text
