import WireSchema.Files.Fault
import WireSchema.Files.Path

/-!
# File systems

What a program needs of a file system is the class `FileSystem`. A program written against the class
runs on the files of the machine and on a file system that is a value.

A directory with all directories above it is made by `makeDirectories`. The directory itself is
tried first, and what is above it only if something on the way is missing. What was made stays, even
if the directory itself cannot be made then.
-/

namespace WireSchema

/-- The operations on files and directories, in some monad. -/
class FileSystem (m : Type → Type) where
  /-- Whether there is a directory at a path. -/
  isDirectory : Path → m Bool
  /-- The names of the files in a directory. -/
  fileNames : Path → m (Except FileFault (List String))
  /-- The content of a file. -/
  readText : Path → m (Except FileFault String)
  /-- Make a directory, unless it is there. -/
  makeDirectory : Path → m (Except FileFault Unit)
  /-- Make a file with some content, or replace the content of a file. -/
  writeText : Path → String → m (Except FileFault Unit)

namespace FileSystem

variable {m : Type → Type} [Monad m] [FileSystem m]

/-- Make the first of some directories, each of which is above the one before it. The others are
made only if the first one finds something missing. -/
def makeFirst : List Path → m (Except FileFault Unit)
  | [] => return .ok ()
  | path :: above => do
    match ← makeDirectory path with
    | .error .notFound =>
      match ← makeFirst above with
      | .ok () => makeDirectory path
      | .error fault => return .error fault
    | result => return result

/-- Make a directory and all directories above it that are missing. -/
def makeDirectories (path : Path) : m (Except FileFault Unit) :=
  makeFirst (path :: path.above)

end FileSystem

end WireSchema
