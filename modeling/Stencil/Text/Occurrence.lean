/-!
# Occurrences of a text in another

Leftmost occurrences that do not overlap. `pieces` cuts a text at the occurrences of a separator,
`replaceAll` puts another text in their place. Both walk the text once and count down the characters
of an occurrence they have passed.
-/

namespace Stencil.Text

/-- Cuts at `sep`; `skip` characters belong to an occurrence already found, `current` holds the
piece so far in reverse. -/
def piecesFrom (sep : List Char) : Nat → List Char → List Char → List (List Char)
  | _, current, [] => [current.reverse]
  | skip + 1, current, _ :: s => piecesFrom sep skip current s
  | 0, current, c :: s =>
    if sep.isPrefixOf (c :: s) then current.reverse :: piecesFrom sep (sep.length - 1) [] s
    else piecesFrom sep 0 (c :: current) s

/-- The parts of `s` between the occurrences of a non-empty `sep`. -/
def pieces (sep s : List Char) : List (List Char) := piecesFrom sep 0 [] s

def replaceFrom (old new : List Char) : Nat → List Char → List Char
  | _, [] => []
  | skip + 1, _ :: s => replaceFrom old new skip s
  | 0, c :: s =>
    if old.isPrefixOf (c :: s) then new ++ replaceFrom old new (old.length - 1) s
    else c :: replaceFrom old new 0 s

/-- `new` before every character and at the end. -/
def interleave (new : List Char) : List Char → List Char
  | [] => new
  | c :: s => new ++ c :: interleave new s

/-- `s` with every occurrence of `old` replaced; an empty `old` occurs at every place. -/
def replaceAll (old new s : List Char) : List Char :=
  if old.isEmpty then interleave new s else replaceFrom old new 0 s

end Stencil.Text
