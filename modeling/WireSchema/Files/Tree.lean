import WireSchema.Files.System
import WireSchema.Text.Hex

/-!
# File trees

A `FileTree` is a file system as a value: a finite map from component lists to directories and
files. The effect of a program on a tree is a new tree.
-/

namespace WireSchema

/-- What stands at a place in a tree. -/
inductive Entry where
  /-- A directory. -/
  | directory
  /-- A file with a text. -/
  | text (content : String)
  /-- A file whose bytes are not a text. -/
  | binary (content : List UInt8)
deriving DecidableEq, Repr

/-- A file with the given bytes. -/
def Entry.ofBytes (bytes : ByteArray) : Entry :=
  match String.fromUTF8? bytes with
  | some content => .text content
  | none => .binary bytes.toList

/-- A file system as a value. The root directory is always there. -/
structure FileTree where
  /-- The entries by their components, in the order in which they were made. -/
  entries : List (List String × Entry)
deriving DecidableEq, Repr

namespace FileTree

/-- The tree with nothing but the root directory. -/
def empty : FileTree := ⟨[]⟩

/-- What stands at a place. -/
def entry? (t : FileTree) (place : List String) : Option Entry :=
  if place = [] then some .directory else t.entries.lookup place

/-- Put an entry at a place, or replace the one that is there. -/
def insertEntry (place : List String) (entry : Entry) :
    List (List String × Entry) → List (List String × Entry)
  | [] => [(place, entry)]
  | (p, e) :: entries =>
    if p = place then (p, entry) :: entries else (p, e) :: insertEntry place entry entries

/-- Put an entry at a place. -/
def insert (t : FileTree) (place : List String) (entry : Entry) : FileTree :=
  ⟨insertEntry place entry t.entries⟩

/-- The place that a component leads to. -/
def step (here : List String) (component : String) : List String :=
  if component = ".." then here.dropLast else here ++ [component]

/-- The number of bytes that a name can have. -/
def nameLimit : Nat := 255

/-- The place that components lead to. Everything on the way must be a directory; nothing need
stand at the place itself. -/
def locateFrom (t : FileTree) (here : List String) : List String → Except FileFault (List String)
  | [] => .ok here
  | component :: components =>
    if nameLimit < Text.utf8Length component.toList then .error .nameTooLong
    else
      match components with
      | [] => .ok (step here component)
      | rest@(_ :: _) =>
        match t.entry? (step here component) with
        | some .directory => t.locateFrom (step here component) rest
        | some _ => .error .notDirectory
        | none => .error .notFound

/-- The place that components lead to from the root. No name can have the character zero. -/
def locate (t : FileTree) (components : List String) : Except FileFault (List String) :=
  if components.any (·.toList.contains '\x00') then .error .badName
  else t.locateFrom [] components

/-- What stands at a path. -/
def find (t : FileTree) (path : Path) : Except FileFault Entry := do
  let place ← t.locate path.components
  match t.entry? place with
  | some .directory => .ok .directory
  | some entry => if path.namesDirectory then .error .notDirectory else .ok entry
  | none => .error .notFound

/-- Whether there is a directory at a path. -/
def isDirectory (t : FileTree) (path : Path) : Bool :=
  t.find path matches .ok .directory

/-- The entries directly inside the directory at a place, by name. -/
def inside (t : FileTree) (place : List String) : List (String × Entry) :=
  t.entries.filterMap fun (p, entry) =>
    match p.getLast? with
    | some name => if p.dropLast = place then some (name, entry) else none
    | none => none

/-- The names of the files directly inside the directory at a place. -/
def filesInside (t : FileTree) (place : List String) : List String :=
  (t.inside place).filterMap fun (name, entry) =>
    match entry with
    | .directory => none
    | _ => some name

/-- The names of the files in a directory. -/
def fileNames (t : FileTree) (path : Path) : Except FileFault (List String) := do
  match ← t.find path with
  | .directory =>
    let place ← t.locate path.components
    .ok (t.filesInside place)
  | _ => .error .notDirectory

/-- The content of a file. -/
def readText (t : FileTree) (path : Path) : Except FileFault String := do
  match ← t.find path with
  | .text content => .ok content
  | .binary _ => .error .notText
  | .directory => .error .isDirectory

/-- Make a file with some content, or replace the content of a file. -/
def writeText (t : FileTree) (path : Path) (content : String) : Except FileFault FileTree := do
  let place ← t.locate path.components
  if path.namesDirectory || t.entry? place == some .directory then .error .isDirectory
  else .ok (t.insert place (.text content))

/-- Make a directory, unless it is there. Behind a single dot nothing can be made, so there the
directory must be there. -/
def makeDirectory (t : FileTree) (path : Path) : Except FileFault FileTree := do
  let place ← t.locate path.components
  match t.entry? place with
  | some .directory => .ok t
  | some _ => .error (if path.endsInDot then .notDirectory else .alreadyExists)
  | none => if path.endsInDot then .error .notFound else .ok (t.insert place .directory)

/-- The state after an operation that may fail; a failure changes nothing. -/
def update (t : FileTree) : Except FileFault FileTree → Except FileFault Unit × FileTree
  | .ok next => (.ok (), next)
  | .error fault => (.error fault, t)

/-- The entries below a place, by the components that lead to them from there. -/
def below (t : FileTree) (place : List String) : List (List String × Entry) :=
  t.entries.filterMap fun (p, entry) =>
    if place.isPrefixOf p && place.length < p.length then some (p.drop place.length, entry)
    else none

end FileTree

instance : FileSystem (StateM FileTree) where
  isDirectory path := fun t => (t.isDirectory path, t)
  fileNames path := fun t => (t.fileNames path, t)
  readText path := fun t => (t.readText path, t)
  makeDirectory path := fun t => t.update (t.makeDirectory path)
  writeText path content := fun t => t.update (t.writeText path content)

end WireSchema
