/-!
# File faults

The ways in which reading or writing a file or directory can fail.
-/

namespace WireSchema

/-- Why an operation on a file or directory failed. -/
inductive FileFault where
  /-- There is nothing at the path. -/
  | notFound
  /-- A file stands where a directory is needed. -/
  | notDirectory
  /-- A file stands where a directory is to be made. -/
  | alreadyExists
  /-- A directory stands where a file is needed. -/
  | isDirectory
  /-- The content of a file is not UTF-8. -/
  | notText
  /-- A name is longer than names can be. -/
  | nameTooLong
  /-- A name has a character that names cannot have. -/
  | badName
  /-- Anything else, in the words of the system. -/
  | other (text : String)
deriving DecidableEq, Repr

/-- The wording of a fault. -/
def FileFault.message : FileFault → String
  | .notFound => "No such file or directory (os error 2)"
  | .notDirectory => "Not a directory (os error 20)"
  | .alreadyExists => "File exists (os error 17)"
  | .isDirectory => "Is a directory (os error 21)"
  | .notText => "stream did not contain valid UTF-8"
  | .nameTooLong => "File name too long (os error 36)"
  | .badName => "file name contained an unexpected NUL byte"
  | .other text => text

end WireSchema
