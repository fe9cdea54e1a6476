import Stencil.Text.Position

/-!
# Source snippets

A `Snippet` shows the lines around a place in a source, each with its number, and a caret under the
column of the place.
-/

namespace Stencil

/-- All lines of the source, the place in it, and the first and last line to show. -/
structure Snippet where
  lines : List String
  line : Nat
  column : Nat
  first : Nat
  last : Nat
  deriving DecidableEq, Repr, Inhabited

namespace Snippet

/-- The snippet of three lines on either side of a line. -/
def around (source : String) (line column : Nat) : Snippet :=
  let lines := (Text.lines source.toList).map String.ofList
  { lines, line, column, first := max (line - 3) 1, last := min (line + 3) lines.length }

def atOffset (source : String) (offset : Nat) : Snippet :=
  let (line, column) := Text.lineColumn source.toList offset
  around source line column

/-- A line number, right-aligned in four columns. -/
def gutter (n : Nat) : String := "".pushn ' ' (4 - (toString n).length) ++ toString n

/-- The caret line for a column. -/
def caret (column : Nat) : String := "     | ".pushn ' ' (column - 1) ++ "^\n"

/-- The given lines, numbered from `n` on, with the caret under the marked one. -/
def rows (line column : Nat) : Nat → List String → String
  | _, [] => ""
  | n, l :: rest =>
    gutter n ++ " | " ++ l ++ "\n" ++ (if n = line then caret column else "") ++
      rows line column (n + 1) rest

def text (s : Snippet) : String :=
  rows s.line s.column s.first ((s.lines.drop (s.first - 1)).take (s.last + 1 - s.first))

end Snippet

end Stencil
