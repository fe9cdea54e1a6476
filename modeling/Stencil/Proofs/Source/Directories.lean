import Mathlib.Data.List.Forall2
import Mathlib.Data.List.ReduceOption
import Stencil.Proofs.Source.Paths
import Stencil.Source.Directory

/-!
# Templates stay in their directories

A name that is not absolute is looked for below the roots only: its candidates are paths below them
by their text, and a candidate that is read is below one of them also when links are followed. The
roots are taken in normal form throughout. For a root in which a step to the parent stands behind a
link, that form may name another directory than the root's own text does.
-/

namespace Stencil.Directories

variable {d : Directories} {fs : FileSystem} {root : Path} {key : String}

/-- `key` is a path below `root`. Unless `root` is the root directory, no step to a parent stands
behind its steps. -/
def Below (root : Path) (key : String) : Prop :=
  ∃ inner, Path.ofString key = ⟨root.absolute, root.steps ++ inner⟩ ∧
    (root.steps ≠ [] → .parent ∉ inner)

theorem Below.within (h : Below root key) : (Path.ofString key).within root = true :=
  let ⟨inner, e, _⟩ := h
  Path.within_iff.2 ⟨inner, e⟩

theorem contains_iff : contains fs root key = true ↔
    ∃ p r, fs.canonical? key = some p ∧ fs.canonical? root.text = some r ∧ p.within r = true := by
  unfold contains
  split <;> simp_all

end Stencil.Directories
