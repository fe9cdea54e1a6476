import Stencil.Text.Occurrence

/-!
# Paths

A `Path` is a sequence of steps between slashes, from the root directory if it is absolute. Empty
steps do not count, and `.` does only where a relative path starts. `Path.normalize` resolves `.` and
`..` on the text alone, without looking at any file.
-/

namespace Stencil

inductive Path.Step where
  | current
  | parent
  | name (s : String)
  deriving DecidableEq, Repr, Inhabited

structure Path where
  absolute : Bool
  steps : List Path.Step
  deriving DecidableEq, Repr, Inhabited

namespace Path

def Step.text : Step → String
  | .current => "."
  | .parent => ".."
  | .name s => s

/-- The step between two slashes, if it counts. -/
def Step.ofChars? (s : List Char) : Option Step :=
  if s = [] ∨ s = ['.'] then none
  else if s = ['.', '.'] then some .parent
  else some (.name (String.ofList s))

def ofChars (s : List Char) : Path :=
  let pieces := Text.pieces ['/'] s
  let start := if pieces.head? = some ['.'] then [Step.current] else []
  ⟨s.head? = some '/', start ++ pieces.filterMap Step.ofChars?⟩

def ofString (s : String) : Path := ofChars s.toList

def text (p : Path) : String :=
  (if p.absolute then "/" else "") ++ "/".intercalate (p.steps.map Step.text)

/-- `p` as seen from `base`; an absolute path stands for itself. -/
def join (base p : Path) : Path := if p.absolute then p else ⟨base.absolute, base.steps ++ p.steps⟩

/-- `root` leads to `p`: it is made of the first steps of `p`. -/
def within (p root : Path) : Bool := root.absolute == p.absolute && root.steps.isPrefixOf p.steps

/-- One step from a normal path. A step to the parent takes the last step back; where there is none
it stays. -/
def enter (steps : List Step) : Step → List Step
  | .current => steps
  | .parent => if steps.isEmpty then [.parent] else steps.dropLast
  | .name s => steps ++ [.name s]

def normalize (p : Path) : Path := ⟨p.absolute, p.steps.foldl enter []⟩

/-- The text after the last point of a name; none if that point comes first. -/
def nameExtension? (s : List Char) : Option (List Char) :=
  let s := s.reverse
  match s.dropWhile (· != '.') with
  | [] | [_] => none
  | _ => some (s.takeWhile (· != '.')).reverse

/-- The extension of the name that the path ends with. -/
def extension? (p : Path) : Option String :=
  match p.steps.getLast? with
  | some (.name s) => (nameExtension? s.toList).map String.ofList
  | _ => none

/-- Appends an extension to a name that has none. -/
def withExtension (name extname : String) : String :=
  if extname.isEmpty || (ofString name).extension?.isSome then name else name ++ extname

@[simp] theorem absolute_normalize (p : Path) : p.normalize.absolute = p.absolute := rfl

@[simp] theorem absolute_join (base p : Path) :
    (base.join p).absolute = (base.absolute || p.absolute) := by
  unfold join
  split <;> simp_all

theorem normalize_join {base p : Path} (h : p.absolute = false) :
    (base.join p).normalize = ⟨base.absolute, p.steps.foldl enter base.normalize.steps⟩ := by
  simp [join, h, normalize]

end Path

end Stencil
