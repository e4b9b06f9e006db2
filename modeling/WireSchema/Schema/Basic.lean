import WireSchema.FieldType
import WireSchema.Text.Casing
import WireSchema.VersionRange

/-!
# Message schemas

A **message** has a top-level struct and structs that are shared by name; a **struct** has fields in
order; a **field** has a type, the versions in which it exists, and possibly the definition of the
struct that its type refers to.

Ranges are *effective* here: the versions of a field lie within those of the struct around it. Which
schemas are accepted is decided when a document is loaded (`WireSchema.Schema.Load`).
-/

namespace WireSchema

/-- The part a message plays in the protocol. -/
inductive MessageRole where
  | request
  | response
  | header
  | data
  | metadata
deriving DecidableEq, Repr

namespace MessageRole

/-- All roles, in the order of their declaration. -/
def all : List MessageRole :=
  [.request, .response, .header, .data, .metadata]

/-- The name of a role in a document. -/
def name : MessageRole → String
  | .request => "request"
  | .response => "response"
  | .header => "header"
  | .data => "data"
  | .metadata => "metadata"

/-- The role of that name. -/
def ofName? (name : String) : Option MessageRole :=
  all.find? (·.name == name)

end MessageRole

mutual

/-- A field of a struct. -/
structure FieldSpec where
  /-- The declared name. -/
  name : String
  /-- The declared type. -/
  type : FieldType
  /-- The versions in which the field exists. -/
  versions : VersionRange
  /-- The versions in which the field is written as a tagged field. -/
  taggedVersions : Option VersionRange
  /-- The tag under which it is then written. -/
  tag : Option Int
  /-- The versions in which the field may be null. -/
  nullableVersions : VersionRange
  /-- The declared default, as a text. -/
  defaultText : Option String
  /-- The documentation. -/
  about : Option String
  /-- The struct that the type refers to, if the field defines it. -/
  inlineStruct : Option StructSpec

/-- A struct: a named sequence of fields. -/
structure StructSpec where
  /-- The name. -/
  name : String
  /-- The versions in which the struct exists. -/
  versions : VersionRange
  /-- The fields, in order. -/
  fields : List FieldSpec

end

namespace FieldSpec

/-- Whether the field exists at a version. -/
def existsAt (f : FieldSpec) (v : Version) : Bool :=
  f.versions.contains v

/-- Whether the field is tagged at a version. -/
def isTaggedAt (f : FieldSpec) (v : Version) : Bool :=
  match f.taggedVersions with
  | some tagged => tagged.contains v
  | none => false

/-- Whether the field may be null at a version. -/
def isNullableAt (f : FieldSpec) (v : Version) : Bool :=
  f.nullableVersions.contains v

end FieldSpec

namespace StructSpec

/-- The names of the fields, in order. -/
def fieldNames (s : StructSpec) : List String :=
  s.fields.map (·.name)

/-- The field of that name. -/
def field? (s : StructSpec) (name : String) : Option FieldSpec :=
  s.fields.find? (·.name == name)

/-- The **projection** of a struct to a version: the fields that exist there, in order. It is the
one rule for what a struct has at a version, for declarations and for instances alike. -/
def fieldsAt (s : StructSpec) (v : Version) : List FieldSpec :=
  s.fields.filter (·.existsAt v)

/-- The names and types of the fields, in order. -/
def shape (s : StructSpec) : List (String × FieldType) :=
  s.fields.map fun f => (f.name, f.type)

/-- Whether two structs have the same field names and types in the same order. -/
def sameShape (s t : StructSpec) : Bool :=
  s.shape == t.shape

end StructSpec

/-- A message. -/
structure MessageSpec where
  /-- The name. -/
  name : String
  /-- The number that identifies requests and responses. -/
  apiKey : Option Int
  /-- The role. -/
  role : MessageRole
  /-- The versions of the message. -/
  validVersions : VersionRange
  /-- The versions that carry tagged fields unknown to the schema. -/
  flexibleVersions : VersionRange
  /-- The top-level struct, which bears the name of the message. -/
  struct : StructSpec
  /-- The structs declared beside it, to be shared by name. -/
  commonStructs : List StructSpec

namespace MessageSpec

/-- The name without a trailing `Data`, unless nothing else is left. -/
def displayName (m : MessageSpec) : String :=
  let suffix := "Data".toList
  let cs := m.name.toList
  let stem := cs.take (cs.length - suffix.length)
  if stem ++ suffix = cs ∧ stem ≠ [] then String.ofList stem else m.name

/-- The name of the module that is generated for the message. -/
def moduleName (m : MessageSpec) : String :=
  Text.snakeCase m.displayName

/-- Whether a version carries tagged fields unknown to the schema. -/
def isFlexibleAt (m : MessageSpec) (v : Version) : Bool :=
  m.flexibleVersions.contains v

end MessageSpec

end WireSchema
