import WireSchema.Backend.Basic

/-!
# Manifests

A directory of generated modules has a **manifest** that lists them. Modules are listed in the order
of their names, except that a number at the end of a name counts as a number: `v2` comes before
`v10`.
-/

namespace WireSchema.Manifest

/-- What a module is sorted by. -/
structure Key where
  /-- The name without the digits at its end. -/
  stem : String
  /-- The number at its end, if there is one that fits in 64 bits. -/
  number : Option Nat
  /-- The whole name, which separates names such as `v1` and `v01`. -/
  name : String
deriving DecidableEq, Repr

/-- The value of digits, if there are any and it fits in 64 bits. -/
def numberOf? (digits : List Char) : Option Nat :=
  if digits.isEmpty then none
  else
    let value := digits.foldl (fun value c => value * 10 + (c.toNat - '0'.toNat)) 0
    if (Bounds.unsigned 64).contains value then some value else none

/-- The sort key of a module. -/
def Key.ofName (name : String) : Key :=
  let reversed := name.toList.reverse
  { stem := String.ofList (reversed.dropWhile Char.isDigit).reverse
    number := numberOf? (reversed.takeWhile Char.isDigit).reverse
    name := name }

/-- Whether a number comes before another one; a missing number comes first. -/
def numberBefore : Option Nat → Option Nat → Bool
  | none, some _ => true
  | some m, some n => m < n
  | _, none => false

/-- Whether a key comes before another one: by stem, then by number, then by name. -/
def Key.before (a b : Key) : Bool :=
  a.stem < b.stem ||
    (a.stem == b.stem &&
      (numberBefore a.number b.number || (a.number == b.number && a.name < b.name)))

/-- Whether a module may be listed before another one. -/
def inOrder (a b : String) : Bool :=
  !(Key.ofName b).before (Key.ofName a)

/-- Keep one of several equal neighbours. -/
def dropRepeats : List String → List String
  | [] => []
  | [name] => [name]
  | first :: second :: rest =>
    if first = second then dropRepeats (second :: rest)
    else first :: dropRepeats (second :: rest)

/-- The modules as the manifest lists them: sorted, each once. -/
def arrange (modules : List String) : List String :=
  dropRepeats (modules.mergeSort inOrder)

/-- The text of the manifest for some modules. -/
def text (b : Backend) (modules : List String) : String :=
  b.manifest (arrange modules)

end WireSchema.Manifest
