import WireSchema.Text.Blank

/-!
# Paths

A path is kept as the text it was given as, because error texts show it. What it refers to depends
on its **components**, and on how it ends: behind a slash or a single dot there can only be a
directory.
-/

namespace WireSchema

/-- A path to a file or directory. -/
structure Path where
  /-- The path as given. -/
  text : String
deriving DecidableEq, Repr

namespace Path

/-- The path of an entry of a directory. An absolute name stands for itself. -/
def child (dir : Path) (name : String) : Path :=
  if name.toList.head? = some '/' then ⟨name⟩
  else if dir.text = "" ∨ dir.text.toList.getLast? = some '/' then ⟨dir.text ++ name⟩
  else ⟨dir.text ++ "/" ++ name⟩

/-- What stands between the slashes of a path; repeated slashes mean nothing. -/
def pieces (p : Path) : List (List Char) :=
  (p.text.toList.splitOn '/').filter (· ≠ [])

/-- The components of a path: its pieces without single dots, which lead nowhere. -/
def components (p : Path) : List String :=
  (p.pieces.filter (· ≠ ['.'])).map String.ofList

/-- Whether the last piece is a single dot. -/
def endsInDot (p : Path) : Bool :=
  p.pieces.getLast? == some ['.']

/-- Whether a path can only refer to a directory: it ends in a slash or in a single dot. -/
def namesDirectory (p : Path) : Bool :=
  p.endsInDot || p.text.toList.getLast? == some '/'

/-- The nonempty beginnings of a list that are shorter than it, the longest first. -/
def beginnings {α : Type} : List α → List (List α)
  | [] => []
  | [_] => []
  | x :: xs => (beginnings xs).map (x :: ·) ++ [[x]]

/-- The paths of the directories above a path, the nearest first, as far as the path names them. -/
def above (p : Path) : List Path :=
  let root := if p.text.toList.head? = some '/' then "/" else ""
  (beginnings p.components).map fun components => ⟨root ++ "/".intercalate components⟩

/-- The extension of a file name: what follows its last dot, unless nothing stands before the
dot. -/
def extension? (name : String) : Option String :=
  let reversed := name.toList.reverse
  if name = ".." then none
  else
    match Text.splitFirst? '.' reversed with
    | none => none
    | some (extension, stem) =>
      if stem.isEmpty then none else some (String.ofList extension.reverse)

end Path

end WireSchema
