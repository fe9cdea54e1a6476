import Stencil.Source.Directory

/-!
# File trees in memory

A `FileTree` is a file system held in memory: files, directories and symbolic links, each under the
names on the way from the root directory. `FileTree.resolve?` follows a path through it, and
`FileTree.fileSystem` lets templates be looked for in it.
-/

namespace Stencil

inductive FileTree.Entry where
  | file (bytes : ByteArray)
  | directory
  | link (target : String)

structure FileTree where
  entries : List (List String × FileTree.Entry)

namespace FileTree

def empty : FileTree := ⟨[]⟩

/-- The entry at a place; the root directory is always there. -/
def get? (t : FileTree) (place : List String) : Option Entry :=
  if place.isEmpty then some .directory else t.entries.lookup place

def insert (t : FileTree) (place : List String) (e : Entry) : FileTree :=
  ⟨(place, e) :: t.entries.filter (·.1 != place)⟩

def erase (t : FileTree) (place : List String) : FileTree :=
  ⟨t.entries.filter (·.1 != place)⟩

def isDirectory (t : FileTree) (place : List String) : Bool :=
  match t.get? place with
  | some .directory => true
  | _ => false

/-- What stands between the slashes of a path text. -/
def piecesOf (path : String) : List String := (Text.pieces ['/'] path.toList).map String.ofList

/-- The names on a path. Empty pieces and `.` are none: they stay where they are. -/
def namesOf (path : String) : List String :=
  (piecesOf path).filter fun name => name != "" && name != "."

/-- A path that ends in a `.`, with or without slashes behind it. -/
def endsInDot (path : String) : Bool := ((piecesOf path).filter (· != "")).getLast? = some "."

/-- A `.` for a path that ends in a slash or in `.`: it asks for a directory. -/
def closingOf (path : String) : List String :=
  if (piecesOf path).getLast? = some "" ∨ endsInDot path then ["."] else []

/-- The steps of a path text. -/
def stepsOf (path : String) : List String := namesOf path ++ closingOf path

def isAbsolute (path : String) : Bool := path.toList.head? = some '/'

/-- A path text is not empty, is not longer than any path may be, and has no zero character. -/
def isPath (path : String) : Bool :=
  !path.isEmpty && path.utf8ByteSize < 4096 && path.toList.all (·.toNat != 0)

/-- An entry may have any name of at most 255 bytes but that of the directory above. -/
def isName (name : String) : Bool := name != ".." && name.utf8ByteSize ≤ 255

/-- What a path is followed for. -/
inductive Purpose where
  /-- To find the entry it leads to. -/
  | finding
  /-- To put an entry at its end: the last name may be missing from its directory. -/
  | placing
deriving DecidableEq

/-- The place that steps lead to, with at most `links` links followed on the way. -/
def resolve? (t : FileTree) (purpose : Purpose) (links : Nat) (here : List String)
    (steps : List String) : Option (List String) :=
  match steps with
  | [] => some here
  | step :: rest =>
    if !t.isDirectory here then none
    else if step = "." then resolve? t purpose links here rest
    else if step = ".." then resolve? t purpose links here.dropLast rest
    else
      match t.get? (here ++ [step]) with
      | none =>
        if purpose = .placing ∧ rest.isEmpty ∧ isName step then some (here ++ [step]) else none
      | some (.link target) =>
        match links with
        | 0 => none
        | links + 1 =>
          resolve? t purpose links (if isAbsolute target then [] else here) (stepsOf target ++ rest)
      | some _ => resolve? t purpose links (here ++ [step]) rest
termination_by (links, steps.length)

/-- As many links are followed for one path. -/
def linkLimit : Nat := 40

/-- Where a path starts, as seen from a working directory. -/
def startOf (working : List String) (path : String) : List String :=
  if isAbsolute path then [] else working

/-- The place of a path as seen from a working directory. -/
def locate? (t : FileTree) (working : List String) (path : String) : Option (List String) :=
  if isPath path then t.resolve? .finding linkLimit (startOf working path) (stepsOf path) else none

/-! ## Changes -/

/-- Goes through directories from `here`, and makes those that are missing. It stops at a file and
at a link that leads nowhere. -/
def makeDirectories (t : FileTree) (here : List String) : List String → FileTree
  | [] => t
  | name :: rest =>
    match t.resolve? .finding linkLimit here [name] with
    | some there => if t.isDirectory there then makeDirectories t there rest else t
    | none =>
      if isName name ∧ (t.get? (here ++ [name])).isNone then
        makeDirectories (t.insert (here ++ [name]) .directory) (here ++ [name]) rest
      else t

/-- Makes a directory and those on the way to it. One that a last `.` stands in is not made, as it is
asked for and not named. -/
def makeDirectory (t : FileTree) (working : List String) (path : String) : FileTree :=
  let names := if endsInDot path then (namesOf path).dropLast else namesOf path
  if isPath path then t.makeDirectories (startOf working path) names else t

/-- Writes a file, and makes the directories on the way to it. If a link is there, the file that it
leads to is written, whether it was there before or not. -/
def writeFile (t : FileTree) (working : List String) (path : String) (bytes : ByteArray) :
    FileTree :=
  if isPath path then
    let start := startOf working path
    let t := t.makeDirectories start (namesOf path).dropLast
    match t.resolve? .placing linkLimit start (stepsOf path) with
    | some place => if t.isDirectory place then t else t.insert place (.file bytes)
    | none => t
  else t

/-- The directory that a path's last name belongs to, and that name. A path that asks for a directory
belongs to none. -/
def ending? (t : FileTree) (working : List String) (path : String) :
    Option (List String × String) :=
  match (namesOf path).getLast?, closingOf path with
  | some name, [] =>
    match t.resolve? .finding linkLimit (startOf working path) (namesOf path).dropLast with
    | some parent => if t.isDirectory parent then some (parent, name) else none
    | none => none
  | _, _ => none

/-- Puts a link into a directory that has no entry of that name. -/
def makeLink (t : FileTree) (working : List String) (target path : String) : FileTree :=
  match t.ending? working path with
  | some (parent, name) =>
    if isPath path ∧ isPath target ∧ isName name ∧ (t.get? (parent ++ [name])).isNone then
      t.insert (parent ++ [name]) (.link target)
    else t
  | none => t

/-- Removes a file or a link; directories stay. -/
def remove (t : FileTree) (working : List String) (path : String) : FileTree :=
  match t.ending? working path with
  | some (parent, name) =>
    if t.isDirectory (parent ++ [name]) then t else t.erase (parent ++ [name])
  | none => t

/-! ## As a file system -/

def file? (t : FileTree) (working : List String) (path : String) : Option ByteArray :=
  match (t.locate? working path).bind t.get? with
  | some (.file bytes) => some bytes
  | _ => none

def readText (t : FileTree) (working : List String) (path : String) : Except ReadFault String :=
  match t.file? working path with
  | none =>
    if (t.locate? working path).isSome then .error (.unreadable "Is a directory (os error 21)")
    else .error .missing
  | some bytes =>
    match String.fromUTF8? bytes with
    | some text => .ok text
    | none => .error (.unreadable "stream did not contain valid UTF-8")

def fileSystem (t : FileTree) (working : List String) : FileSystem where
  workingDirectory := ⟨true, working.map .name⟩
  isFile path := (t.file? working path).isSome
  canonical? path := (t.locate? working path).map fun place => ⟨true, place.map .name⟩
  readText := t.readText working

end FileTree

end Stencil
