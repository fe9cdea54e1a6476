import Stencil.Value
import Stencil.Decimal.Shortest

/-!
# JSON text

`Value.json` writes a value as compact JSON: no blanks, fields in the order of their names, doubles
with the fewest digits that read back. The writers append to a text, so that long lists take no
stack.
-/

namespace Stencil

/-- Doubles are written positionally from `0.00001` up to sixteen digits before the point. -/
def Number.layout : Decimal.Layout := ⟨-5, 15⟩

def Number.text : Number → String
  | .int i => toString i
  | .float f => Decimal.text layout f

namespace Json

/-- The two hexadecimal digits of a code below 256. -/
def hexPair (n : Nat) : List Char := [Nat.digitChar (n / 16), Nat.digitChar (n % 16)]

def escape (c : Char) : List Char :=
  if c = '"' then ['\\', '"']
  else if c = '\\' then ['\\', '\\']
  else if c = '\n' then ['\\', 'n']
  else if c = '\r' then ['\\', 'r']
  else if c = '\t' then ['\\', 't']
  else if c = '\x08' then ['\\', 'b']
  else if c = '\x0c' then ['\\', 'f']
  else if c < ' ' then ['\\', 'u', '0', '0'] ++ hexPair c.toNat
  else [c]

def quoted (s : String) : String := String.ofList ('"' :: s.toList.flatMap escape ++ ['"'])

mutual

def write (out : String) : Value → String
  | .null => out ++ "null"
  | .bool b => out ++ if b then "true" else "false"
  | .number n => out ++ n.text
  | .text s => out ++ quoted s
  | .list items => (writeItems (out.push '[') true items).push ']'
  | .object fields => (writeFields (out.push '{') true fields).push '}'

def writeItems (out : String) (first : Bool) : List Value → String
  | [] => out
  | v :: rest => writeItems (write (if first then out else out.push ',') v) false rest

def writeFields (out : String) (first : Bool) : List (String × Value) → String
  | [] => out
  | (k, v) :: rest =>
    writeFields (write ((if first then out else out.push ',') ++ quoted k ++ ":") v) false rest

end

end Json

def Value.json (v : Value) : String := Json.write "" v

end Stencil
