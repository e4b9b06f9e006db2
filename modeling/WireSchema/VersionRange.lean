import WireSchema.Text.Blank
import WireSchema.Text.Numeral

/-!
# Version ranges

Messages and their fields carry the range of versions in which they exist. A range is closed and
has one of four texts: `3` (one version), `0-7`, `2+` (**open ended**: up to the greatest version
there is) and `none` (**empty**).

A range with `highest < lowest` is empty whatever its bounds; the operations return the canonical
empty range `none`.
-/

namespace WireSchema

/-- A version of a message. -/
abbrev Version := Int

/-- The integers that can be written as a bound of a range. -/
def Version.bounds : Bounds := .signed 16

/-- The greatest version; an open-ended range ends here. -/
def Version.greatest : Version := 32767

/-- The versions from `lowest` to `highest`, both included. -/
structure VersionRange where
  /-- The first version. -/
  lowest : Version
  /-- The last version. -/
  highest : Version
deriving DecidableEq, Repr

namespace VersionRange

/-- The canonical empty range. -/
def none : VersionRange := ⟨0, -1⟩

/-- The range without a finite upper bound. -/
def startingAt (lowest : Version) : VersionRange := ⟨lowest, Version.greatest⟩

/-- Whether the range has no version. -/
def isEmpty (r : VersionRange) : Bool :=
  r.highest < r.lowest

/-- Whether the range has no finite upper bound. -/
def isOpenEnded (r : VersionRange) : Bool :=
  !r.isEmpty && r.highest == Version.greatest

/-- Whether the range has the version `v`. -/
def contains (r : VersionRange) (v : Version) : Bool :=
  !r.isEmpty && r.lowest ≤ v && v ≤ r.highest

/-- Whether every version of `r` is one of `s`. -/
def isSubsetOf (r s : VersionRange) : Bool :=
  r.isEmpty || (!s.isEmpty && s.lowest ≤ r.lowest && r.highest ≤ s.highest)

/-- The versions of both ranges. -/
def intersect (r s : VersionRange) : VersionRange :=
  if r.isEmpty || s.isEmpty then none
  else
    let both : VersionRange := ⟨max r.lowest s.lowest, min r.highest s.highest⟩
    if both.isEmpty then none else both

/-- The versions of the range, ascending. -/
def toList (r : VersionRange) : List Version :=
  (List.range (r.highest - r.lowest + 1).toNat).map fun (i : Nat) => r.lowest + (i : Int)

/-! ### Text -/

/-- The text of a range. -/
def toText (r : VersionRange) : String :=
  if r.isEmpty then "none"
  else if r.isOpenEnded then toString r.lowest ++ "+"
  else if r.lowest = r.highest then toString r.lowest
  else toString r.lowest ++ "-" ++ toString r.highest

/-- What is wrong with the text of a range. -/
inductive Fault where
  /-- The text is blank. -/
  | empty
  /-- A bound is not an integer. -/
  | badBound (bound : String) (fault : Numeral.Fault)
  /-- A bound is below zero. -/
  | negative
  /-- The bounds are in the wrong order. -/
  | reversed
deriving DecidableEq, Repr

/-- The wording of a fault. -/
def Fault.message : Fault → String
  | .empty => "empty range"
  | .badBound bound fault => "bad bound '" ++ bound ++ "': " ++ fault.message
  | .negative => "versions must not be negative"
  | .reversed => "lowest version is greater than highest"

/-- A text that is not a version range. -/
structure Malformed where
  /-- The text as given. -/
  text : String
  /-- What is wrong with it. -/
  fault : Fault
deriving DecidableEq, Repr

/-- The wording for a malformed text. -/
def Malformed.message (m : Malformed) : String :=
  "invalid version range '" ++ m.text ++ "': " ++ m.fault.message

/-- Read a bound: an integer, possibly between blanks, that is not negative. -/
def readBound (cs : List Char) : Except Fault Version :=
  match Numeral.read 10 Version.bounds (Text.dropBlanks cs) with
  | .error fault => .error (.badBound (String.ofList cs) fault)
  | .ok n => if n < 0 then .error .negative else .ok n

/-- Read a range from a text without blanks around it. A plus sign at the end is looked for
before a hyphen. -/
def readTrimmed (cs : List Char) : Except Fault VersionRange :=
  if cs = [] then .error .empty
  else if cs = "none".toList then .ok none
  else
    match Text.dropLast? '+' cs with
    | some bound => return startingAt (← readBound bound)
    | Option.none =>
      match Text.splitFirst? '-' cs with
      | some (low, high) => do
        let lowest ← readBound low
        let highest ← readBound high
        if highest < lowest then .error .reversed else .ok ⟨lowest, highest⟩
      | Option.none => do
        let single ← readBound cs
        .ok ⟨single, single⟩

/-- Read a range. -/
def read (text : String) : Except Malformed VersionRange :=
  match readTrimmed (Text.dropBlanks text.toList) with
  | .ok r => .ok r
  | .error fault => .error ⟨text, fault⟩

end VersionRange

end WireSchema
