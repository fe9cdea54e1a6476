import Stencil.Source.Path
import Stencil.Source.Reader

/-!
# Templates in directories

`Directories` looks for templates below root directories, one candidate for each root. A name that
leaves its root by `..` has no candidate there, and a file that a link places outside its root is not
found. What is on disk is asked of a `FileSystem`.
-/

namespace Stencil

/-- Why a file cannot be read. -/
inductive ReadFault where
  | missing
  | unreadable (reason : String)
  deriving DecidableEq, Repr, Inhabited

/-- What is asked of a file system; files are named by the text of a path. -/
structure FileSystem where
  workingDirectory : Path
  isFile : String → Bool
  /-- The path of an existing file without links, `.` and `..`. -/
  canonical? : String → Option Path
  readText : String → Except ReadFault String

structure Directories where
  /-- Searched in order. -/
  roots : List String
  extname : String
  deriving DecidableEq, Repr, Inhabited

namespace Directories

/-- The roots as absolute, normal paths. -/
def absoluteRoots (d : Directories) (fs : FileSystem) : List Path :=
  d.roots.map fun root => (fs.workingDirectory.join (Path.ofString root)).normalize

/-- The key of a requested path below a root, unless it leads out of the root. -/
def candidate? (requested root : Path) : Option String :=
  let p := (root.join requested).normalize
  if p.within root then some p.text else none

/-- One key for each root that the name stays in; an absolute name is its own key. -/
def candidates (d : Directories) (fs : FileSystem) (name : String) : List String :=
  let requested := Path.ofString (Path.withExtension name d.extname)
  if requested.absolute then [requested.normalize.text]
  else (d.absoluteRoots fs).filterMap (candidate? requested)

/-- The file is below the root also when all links are followed. -/
def contains (fs : FileSystem) (root : Path) (key : String) : Bool :=
  match fs.canonical? key, fs.canonical? root.text with
  | some p, some r => p.within r
  | _, _ => false

/-- Reads a file; one below a root must be contained in the first such root. -/
def read (d : Directories) (fs : FileSystem) (key : String) : Except Error String :=
  let root? := (d.absoluteRoots fs).find? fun root => (Path.ofString key).within root
  if fs.isFile key && root?.all (contains fs · key) then
    match fs.readText key with
    | .ok text => .ok text
    | .error .missing => .error (.sourceNotFound key)
    | .error (.unreadable reason) => .error (.unreadable reason)
  else .error (.sourceNotFound key)

def reader (d : Directories) (fs : FileSystem) : SourceReader where
  candidates := d.candidates fs
  read := d.read fs

end Directories

end Stencil
