import WireSchema.Registry

/-!
# Messages at a version

A generated unit declares the structs of one message as they are at **one version**: the top-level
struct, the structs it reaches through fields that exist at that version, and every common struct.

`MessageSpec.atVersion` lists them in the order of declaration. The top-level struct comes first;
the structs that only this message uses follow where a depth-first walk first meets them, each
before what it refers to itself; then every common struct comes once, in the order in which they
became common, each followed by what only it reaches.
-/

namespace WireSchema

/-- A field as one version sees it. -/
structure FieldAt where
  /-- The declared name. -/
  name : String
  /-- The type. -/
  type : FieldType
  /-- Whether the field is tagged at the version. -/
  tagged : Bool
  /-- The declared tag, whether or not the field is tagged at the version. -/
  tag : Option Int
  /-- Whether the field may be null at the version. -/
  nullable : Bool
  /-- The declared default. -/
  defaultText : Option String
  /-- The documentation. -/
  about : Option String
deriving DecidableEq, Repr

/-- A struct as one version sees it. -/
structure StructAt where
  /-- The name. -/
  name : String
  /-- The fields that exist at the version, in order. -/
  fields : List FieldAt
  /-- Whether this is the top-level struct of the message. -/
  isTopLevel : Bool
  /-- Whether this is a common struct. -/
  isCommon : Bool
  /-- Whether instances carry tagged fields unknown to the schema. -/
  hasUnknownTagged : Bool
deriving DecidableEq, Repr

/-- The structs that one version of a message needs, in the order of declaration. -/
structure MessageAt where
  /-- The name of the message. -/
  name : String
  /-- The role of the message. -/
  role : MessageRole
  /-- The version. -/
  version : Version
  /-- The structs. -/
  structs : List StructAt
deriving DecidableEq, Repr

/-- The top-level struct. -/
def MessageAt.topLevel? (m : MessageAt) : Option StructAt :=
  m.structs.find? (·.isTopLevel)

/-- A field at a version. -/
def FieldSpec.atVersion (f : FieldSpec) (v : Version) : FieldAt where
  name := f.name
  type := f.type
  tagged := f.isTaggedAt v
  tag := f.tag
  nullable := f.isNullableAt v
  defaultText := f.defaultText
  about := f.about

/-- A struct at a version. -/
def StructSpec.atVersion (s : StructSpec) (v : Version) (flexible isTopLevel isCommon : Bool) :
    StructAt where
  name := s.name
  fields := (s.fieldsAt v).map (·.atVersion v)
  isTopLevel := isTopLevel
  isCommon := isCommon
  hasUnknownTagged := flexible

/-- The projection of a struct has no more fields than the struct. -/
theorem StructSpec.length_fieldsAt_le (s : StructSpec) (v : Version) :
    (s.fieldsAt v).length ≤ s.fields.length :=
  List.length_filter_le _ _

/-- The names of the structs in a list. -/
def StructAt.names (structs : List StructAt) : List String :=
  structs.map (·.name)

/-- Follow the fields `pending` to the structs that are neither common nor in `done`, depth first.
Each newly met struct is added to `done`, and its own fields are followed before the rest. -/
def Registry.follow (r : Registry) (v : Version) (flexible : Bool) (pending : List FieldSpec)
    (done : List StructAt) : Except SchemaError (List StructAt) :=
  match pending with
  | [] => .ok done
  | field :: rest =>
    match field.type.structName? with
    | none => r.follow v flexible rest done
    | some _ =>
      match found : r.findStruct field with
      | .error e => .error e
      | .ok spec =>
        if skipped : r.isCommon spec.name ∨ spec.name ∈ StructAt.names done then
          r.follow v flexible rest done
        else
          have : r.weightBeyond (StructAt.names (done ++ [spec.atVersion v flexible false false])) +
              spec.fields.length + 1 ≤ r.weightBeyond (StructAt.names done) := by
            have := Registry.weightBeyond_append (Registry.find?_of_findStruct found)
              (fun mem => skipped (.inr mem))
            simpa [StructAt.names, StructSpec.atVersion] using this
          have : (spec.fieldsAt v).length ≤ spec.fields.length := spec.length_fieldsAt_le v
          r.follow v flexible (spec.fieldsAt v ++ rest)
            (done ++ [spec.atVersion v flexible false false])
termination_by r.weightBeyond (StructAt.names done) + pending.length
decreasing_by
  all_goals
    simp only [List.length_append, List.length_cons]
    omega

/-- Add a common struct, unless a struct of its name is there, and what only it reaches. -/
def Registry.addCommon (r : Registry) (v : Version) (flexible : Bool) (done : List StructAt)
    (spec : StructSpec) : Except SchemaError (List StructAt) :=
  if spec.name ∈ StructAt.names done then .ok done
  else r.follow v flexible (spec.fieldsAt v) (done ++ [spec.atVersion v flexible false true])

namespace MessageSpec

/-- A message can be taken at a version if its versions are finite and the version is one of
them. -/
def checkVersion (m : MessageSpec) (v : Version) : Except SchemaError Unit :=
  if m.validVersions.isOpenEnded then .error (.openEnded m.name m.validVersions.toText)
  else if !m.validVersions.contains v then .error (.unsupportedVersion m.name v m.validVersions)
  else .ok ()

/-- The structs of a message at a version, in the order of declaration. -/
def structsAt (m : MessageSpec) (r : Registry) (v : Version) :
    Except SchemaError (List StructAt) := do
  let flexible := m.isFlexibleAt v
  let own ← r.follow v flexible (m.struct.fieldsAt v) [m.struct.atVersion v flexible true false]
  r.commonStructs.foldlM (r.addCommon v flexible) own

/-- A message at a version. -/
def atVersion (m : MessageSpec) (r : Registry) (v : Version) : Except SchemaError MessageAt := do
  m.checkVersion v
  let structs ← m.structsAt r v
  .ok ⟨m.name, m.role, v, structs⟩

end MessageSpec

end WireSchema
