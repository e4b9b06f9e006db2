import WireSchema.Instance
import WireSchema.Json.Printer
import WireSchema.Schema.Error

/-!
# The reserved entry for unknown tagged fields

A fixture may give tagged fields that the schema does not know, as an array of pairs `[tag, data]`
or of objects with the keys `tag` and `data`. Tags are integers of 32 bits that are not negative,
and data is hexadecimal.
-/

namespace WireSchema.TaggedField

/-- The tag and the data of an entry. -/
def parts (index : Nat) : Json → Except TaggedEntryFault (Json × Json)
  | .array [tag, data] => .ok (tag, data)
  | .object members =>
    match members.lookup "tag", members.lookup "data" with
    | some tag, some data => .ok (tag, data)
    | _, _ => .error (.missingKeys index)
  | entry => .error (.notPair index entry.kind)

/-- A tag. -/
def readTag (index : Nat) (tag : Json) : Except TaggedEntryFault Int :=
  match tag.integer? with
  | some n =>
    if 0 ≤ n ∧ (Bounds.signed 32).contains n then .ok n
    else .error (.badTag index tag.compact)
  | none => .error (.badTag index tag.compact)

/-- The data of a field. -/
def readData (index : Nat) : Json → Except TaggedEntryFault (List UInt8)
  | .string text =>
    match Hex.decode text with
    | .ok bytes => .ok bytes
    | .error fault => .error (.notHex index fault)
  | _ => .error (.notString index)

/-- The entries of the array, the first of which has the given index. -/
def readFrom (index : Nat) : List Json → Except TaggedEntryFault (List TaggedField)
  | [] => .ok []
  | entry :: entries => do
    let (tag, data) ← parts index entry
    let tag ← readTag index tag
    let data ← readData index data
    let rest ← readFrom (index + 1) entries
    .ok (⟨tag, data⟩ :: rest)

/-- Read the reserved entry. -/
def readEntry : Json → Except TaggedEntryFault (List TaggedField)
  | .array entries => readFrom 0 entries
  | value => .error (.notArray value.kind)

/-- Read the reserved entry of a fixture. -/
def read (value : Json) : Except SchemaError (List TaggedField) :=
  match readEntry value with
  | .ok fields => .ok fields
  | .error fault => .error (.malformedTagged fault)

end WireSchema.TaggedField
