import WireSchema.Json.Printer
import WireSchema.Json.Reader
import WireSchema.Schema.Basic

/-!
# Schema documents

A document is a JSON text that describes one message. Its records have named attributes, all of
them optional at this stage; a record is written as an object, or as an array of its attributes in
order. Attributes that are not known are ignored: their values only have to be written correctly.

`MessageRecord.read?` reads a document. Which records describe a message is decided afterwards.
-/

namespace WireSchema.Schema

open Json (Written)

/-! ### Records -/

/-- A field as a document describes it. -/
structure FieldRecord where
  name : Option String
  type : Option String
  versions : Option String
  taggedVersions : Option String
  tag : Option Int
  nullableVersions : Option String
  default : Option Json
  about : Option String
  fields : Option (List FieldRecord)

/-- A shared struct as a document describes it. -/
structure StructRecord where
  name : Option String
  versions : Option String
  fields : Option (List FieldRecord)

/-- A message as a document describes it. -/
structure MessageRecord where
  name : Option String
  apiKey : Option Int
  role : MessageRole
  validVersions : Option String
  flexibleVersions : Option String
  fields : Option (List FieldRecord)
  commonStructs : List StructRecord

/-! ### Attributes of a record -/

/-- The attributes of a record that were written, by name. -/
abbrev Attributes := List (String × Written)

/-- The members of an object with their keys as texts. -/
def namedMembers? : List (List Json.Piece × Written) → Option Attributes
  | [] => some []
  | (key, tree) :: members =>
    match Json.stringOf? key, namedMembers? members with
    | some name, some named => some ((name, tree) :: named)
    | _, _ => none

/-- The attributes of a record. As an object it may leave out any of the `names` and repeat none;
as an array it gives the first `required` of them at least, in order, and no further elements. -/
def attributes? (names : List String) (required : Nat) : Written → Option Attributes
  | .object members => do
    let named ← namedMembers? members
    if names.all fun name => (named.filter (·.1 == name)).length ≤ 1 then some named else none
  | .array items =>
    if required ≤ items.length ∧ items.length ≤ names.length then some (names.zip items) else none
  | _ => none

/-- The value of an attribute; `null` counts as absent. -/
def given? (attributes : Attributes) (name : String) : Option Written :=
  match attributes.lookup name with
  | some .null => none
  | tree? => tree?

/-- Read an attribute that may be absent. -/
def optional? {α : Type} (read? : Written → Option α) : Option Written → Option (Option α)
  | none => some none
  | some tree => (read? tree).map some

/-- A text. -/
def text? : Written → Option String
  | .string pieces => Json.stringOf? pieces
  | _ => none

/-- An integer within bounds. -/
def integer? (bounds : Bounds) : Written → Option Int
  | .number literal =>
    match Json.numberOf? literal with
    | some (.integer n) => if bounds.contains n then some n else none
    | _ => none
  | _ => none

/-- A role: its name, or an object with its name as only key and `null` as value. -/
def role? : Written → Option MessageRole
  | .string pieces => (Json.stringOf? pieces).bind MessageRole.ofName?
  | .object [(key, .null)] => (Json.stringOf? key).bind MessageRole.ofName?
  | _ => none

/-- The items of an array inside which `limit` containers may still be nested. -/
def list? {α : Type} (limit : Nat) (read? : Nat → Written → Option α) : Written → Option (List α)
  | .array items =>
    match limit with
    | 0 => none
    | inner + 1 => items.mapM (read? inner)
  | _ => none

/-! ### Reading -/

/-- The attributes of a field. -/
def FieldRecord.attributeNames : List String :=
  ["name", "type", "versions", "taggedVersions", "tag", "nullableVersions", "default", "about",
    "fields"]

/-- The attributes of a shared struct. -/
def StructRecord.attributeNames : List String :=
  ["name", "versions", "fields"]

/-- The attributes of a message. -/
def MessageRecord.attributeNames : List String :=
  ["name", "apiKey", "type", "validVersions", "flexibleVersions", "fields", "commonStructs"]

/-- A field whose default may have `limit` containers inside each other, and whose nested fields are
read by `nested?`. -/
def FieldRecord.readWith? (limit : Nat) (nested? : List Written → Option (List FieldRecord))
    (tree : Written) : Option FieldRecord := do
  let attributes ← attributes? attributeNames attributeNames.length tree
  let given := given? attributes
  let name ← optional? text? (given "name")
  let type ← optional? text? (given "type")
  let versions ← optional? text? (given "versions")
  let taggedVersions ← optional? text? (given "taggedVersions")
  let tag ← optional? (integer? (.signed 32)) (given "tag")
  let nullableVersions ← optional? text? (given "nullableVersions")
  let default ← optional? (Written.value? limit) (given "default")
  let about ← optional? text? (given "about")
  let fields ←
    match given "fields" with
    | none => some none
    | some (.array items) => (nested? items).map some
    | some _ => none
  some ⟨name, type, versions, taggedVersions, tag, nullableVersions, default, about, fields⟩

/-- A field in which at most `limit` containers stand inside each other. -/
def FieldRecord.ofWritten? : Nat → Written → Option FieldRecord
  | 0, _ => none
  | 1, tree => readWith? 0 (fun _ => none) tree
  | inner + 2, tree => readWith? (inner + 1) (fun items => items.mapM (ofWritten? inner)) tree

/-- A shared struct in which at most `limit` containers stand inside each other. -/
def StructRecord.ofWritten? : Nat → Written → Option StructRecord
  | 0, _ => none
  | limit + 1, tree => do
    let attributes ← attributes? attributeNames attributeNames.length tree
    let given := given? attributes
    let name ← optional? text? (given "name")
    let versions ← optional? text? (given "versions")
    let fields ← optional? (list? limit FieldRecord.ofWritten?) (given "fields")
    some ⟨name, versions, fields⟩

/-- A message in which at most `limit` containers stand inside each other. The role and the shared
structs have a value of their own when they are absent, and may not be `null`. -/
def MessageRecord.ofWritten? : Nat → Written → Option MessageRecord
  | 0, _ => none
  | limit + 1, tree => do
    let attributes ← attributes? attributeNames (attributeNames.length - 1) tree
    let given := given? attributes
    let name ← optional? text? (given "name")
    let apiKey ← optional? (integer? (.signed 16)) (given "apiKey")
    let role ← optional? role? (attributes.lookup "type")
    let validVersions ← optional? text? (given "validVersions")
    let flexibleVersions ← optional? text? (given "flexibleVersions")
    let fields ← optional? (list? limit FieldRecord.ofWritten?) (given "fields")
    let commonStructs ←
      optional? (list? limit StructRecord.ofWritten?) (attributes.lookup "commonStructs")
    some ⟨name, apiKey, role.getD .data, validVersions, flexibleVersions, fields,
      commonStructs.getD []⟩

/-- Read a document without comments. -/
def MessageRecord.read? (text : String) : Option MessageRecord :=
  (Written.ofText? text).bind (ofWritten? Json.nestingLimit)

end WireSchema.Schema
