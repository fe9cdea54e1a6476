import Stencil.Text.Table.Casing

/-!
# Case mapping

Full Unicode case mapping. `upcase` maps each character by itself; `downcase` also looks around a
capital sigma, whose lower case is `ς` at the end of a word and `σ` elsewhere.
-/

namespace Stencil.Text

def CaseRuns.image? : CaseRuns → Nat → Option Nat
  | [], _ => none
  | (first, last, stride, image) :: rest, c =>
    if c < first then none
    else if c ≤ last ∧ (c - first) % stride = 0 then some (image + (c - first))
    else image? rest c

/-- The images of a character: its expansion, else the image of its run, else itself. -/
def mapCase (runs : CaseRuns) (expansions : Expansions) (c : Char) : List Char :=
  match expansions.lookup c.toNat with
  | some images => images.map Char.ofNat
  | none =>
    match runs.image? c.toNat with
    | some image => [Char.ofNat image]
    | none => [c]

def upper (c : Char) : List Char := mapCase upperRuns upperExpansions c

def lower (c : Char) : List Char := mapCase lowerRuns lowerExpansions c

def isCased (c : Char) : Bool := cased.covers c.toNat

def isCaseIgnorable (c : Char) : Bool := caseIgnorable.covers c.toNat

def upcase (s : List Char) : List Char := s.flatMap upper

/-- A cased letter follows, ignorable characters aside. -/
def casedFollows (s : List Char) : Bool :=
  match s.dropWhile isCaseIgnorable with
  | [] => false
  | c :: _ => isCased c

/-- Lower case of `s`; `inWord` says that a cased letter precedes, ignorable characters aside. -/
def downcaseFrom (inWord : Bool) : List Char → List Char
  | [] => []
  | c :: s =>
    let image := if c = 'Σ' then [if inWord && !casedFollows s then 'ς' else 'σ'] else lower c
    image ++ downcaseFrom (if isCaseIgnorable c then inWord else isCased c) s

def downcase (s : List Char) : List Char := downcaseFrom false s

/-- The first character in upper case, the rest in lower case. -/
def capitalize : List Char → List Char
  | [] => []
  | c :: s => upper c ++ downcase s

end Stencil.Text
