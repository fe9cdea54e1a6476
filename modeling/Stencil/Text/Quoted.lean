import Stencil.Text.Table.Printable

/-!
# Quoted text

`quote` shows a text between double quotes on one line: quotes and backslashes are escaped, and
characters without a glyph of their own are spelt by letter or by code point.
-/

namespace Stencil.Text

def quoteChar (c : Char) : List Char :=
  if c = '"' then ['\\', '"']
  else if c = '\\' then ['\\', '\\']
  else if c = '\n' then ['\\', 'n']
  else if c = '\t' then ['\\', 't']
  else if c = '\r' then ['\\', 'r']
  else if c.toNat = 0 then ['\\', '0']
  else if unprintable.covers c.toNat then
    ['\\', 'u', '{'] ++ Nat.toDigits 16 c.toNat ++ ['}']
  else [c]

def quote (s : String) : String := String.ofList ('"' :: s.toList.flatMap quoteChar ++ ['"'])

end Stencil.Text
