import Stencil.Error

/-!
# Template sources

A `SourceReader` says where the template of a name may be found and what is there. Candidates are
listed without looking, so that a cache can be asked first; each candidate is also the key under
which a cache keeps the template.
-/

namespace Stencil

structure SourceReader where
  /-- The keys that a name may stand for, in the order in which they are tried. -/
  candidates : String → List String
  /-- The text of a key; `Error.sourceNotFound` if there is none. -/
  read : String → Except Error String
  /-- The text of a key for callers who can wait. -/
  readLater : String → Except Error String := read

end Stencil
