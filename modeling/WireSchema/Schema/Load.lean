import WireSchema.Schema.Document
import WireSchema.Schema.Error
import WireSchema.Text.Comment

/-!
# Loading schemas

A document becomes a message by checking the **declared rules** in a fixed order, so that of two
faults the same one is always reported:

* required attributes are there, and version ranges can be read;
* a message has a finite, non-empty range of versions;
* a field exists somewhere inside its struct, and its effective versions are its declared ones
  within those of the struct;
* a field has a tag exactly if it has tagged versions, which lie within its declared versions;
* names and tags are unique within a struct;
* nested fields stand only on a field whose type refers to a struct.

`MessageSpec.load` is the whole way from a text to a message.
-/

namespace WireSchema

namespace Schema

/-- An attribute that must be there. -/
def required {α : Type} (place : Place) (key : Attribute) : Option α → Except SchemaError α
  | some value => .ok value
  | none => .error (.missing place key)

/-- Read the version range of an attribute. -/
def readRange (place : Place) (text : String) : Except SchemaError VersionRange :=
  match VersionRange.read text with
  | .ok range => .ok range
  | .error malformed => .error (.badRange place malformed)

/-- Read a version range that is empty if the attribute is absent. -/
def readRangeOrNone (place : Place) : Option String → Except SchemaError VersionRange
  | some text => readRange place text
  | none => .ok .none

/-- The effective versions of a field declared for `declared` in a struct with the versions
`within`. A field may declare itself for no version, but not only for versions outside the
struct. -/
def effectiveVersions (struct field : String) (declared within : VersionRange) :
    Except SchemaError VersionRange :=
  let versions := declared.intersect within
  if !declared.isEmpty && versions.isEmpty then
    .error (.outsideStruct struct field declared within)
  else .ok versions

/-- Read the tagged versions of a field, and keep those in which the field exists. -/
def readTagged (struct field : String) (declared versions : VersionRange) :
    Option String → Except SchemaError (Option VersionRange)
  | none => .ok none
  | some text => do
    let tagged ← readRange (.field struct field) text
    if tagged.isEmpty || tagged.lowest < declared.lowest then
      .error (.badTag struct field (.startsEarly tagged declared))
    else if !tagged.isSubsetOf declared then
      .error (.badTag struct field (.notWithin tagged declared))
    else .ok (some (tagged.intersect versions))

/-- A field has a tag exactly if it has tagged versions, and the tag is not negative. -/
def checkTag (struct field : String) (tagged : Option VersionRange) (tag : Option Int) :
    Except SchemaError Unit :=
  match tagged, tag with
  | some _, none => .error (.badTag struct field .missingTag)
  | none, some tag => .error (.badTag struct field (.missingVersions tag))
  | some _, some tag => if tag < 0 then .error (.badTag struct field (.negative tag)) else .ok ()
  | none, none => .ok ()

/-- The text of a default: a string stands for itself, any other value for its JSON text. -/
def defaultText : Json → String
  | .string s => s
  | value => value.compact

/-- The name and tag of a field are not those of a field before it. -/
def checkUnique (struct : String) (before : List FieldSpec) (field : FieldSpec) :
    Except SchemaError Unit :=
  if before.any (·.name == field.name) then .error (.duplicateField struct field.name)
  else
    match field.tag with
    | none => .ok ()
    | some tag =>
      if before.any (·.tag == some tag) then .error (.duplicateTag struct tag) else .ok ()

mutual

/-- The field that a record describes, in a struct with the versions `within`. -/
def buildField (struct : String) (within : VersionRange) :
    FieldRecord → Except SchemaError FieldSpec
  | ⟨name?, type?, versions?, taggedVersions?, tag, nullableVersions?, default, about, nested⟩ => do
    let name ← required (.unnamedField struct) .name name?
    let typeText ← required (.field struct name) .type type?
    let type := FieldType.read typeText
    let versionsText ← required (.field struct name) .versions versions?
    let declared ← readRange (.field struct name) versionsText
    let versions ← effectiveVersions struct name declared within
    let tagged ← readTagged struct name declared versions taggedVersions?
    checkTag struct name tagged tag
    let nullable ← readRangeOrNone (.field struct name) nullableVersions?
    let inlineStruct ← buildInline (.field struct name) typeText versions type.structName? nested
    .ok ⟨name, type, versions, tagged, tag, nullable, default.map defaultText, about, inlineStruct⟩

/-- The struct `target?` that the records nested in a field describe. Only a field whose type refers
to a struct has nested records. -/
def buildInline (place : Place) (typeText : String) (versions : VersionRange)
    (target? : Option String) : Option (List FieldRecord) → Except SchemaError (Option StructSpec)
  | none => .ok none
  | some records =>
    match target? with
    | none => .error (.invalid place (.nestedFields typeText))
    | some structName => do
      let fields ← buildFields structName versions [] records
      .ok (some ⟨structName, versions, fields⟩)

/-- The fields that a list of records describes, after the fields `before` of the same struct. -/
def buildFields (struct : String) (within : VersionRange) (before : List FieldSpec) :
    List FieldRecord → Except SchemaError (List FieldSpec)
  | [] => .ok []
  | record :: records => do
    let field ← buildField struct within record
    checkUnique struct before field
    let fields ← buildFields struct within (field :: before) records
    .ok (field :: fields)

end

/-- The shared struct that a record describes. -/
def buildCommonStruct (message : String) (record : StructRecord) :
    Except SchemaError StructSpec := do
  let name ← required (.unnamedCommonStruct message) .name record.name
  let versionsText ← required (.commonStruct name) .versions record.versions
  let versions ← readRange (.commonStruct name) versionsText
  let records ← required (.commonStruct name) .fields record.fields
  let fields ← buildFields name versions [] records
  .ok ⟨name, versions, fields⟩

/-- The versions of a message: a finite range that is not empty. -/
def readValidVersions (message text : String) : Except SchemaError VersionRange := do
  let valid ← readRange (.message message) text
  if valid.isOpenEnded then .error (.openEnded message text)
  else if valid.isEmpty then .error (.invalid (.message message) .noVersion)
  else .ok valid

/-- The message that a record describes. -/
def buildMessage (record : MessageRecord) : Except SchemaError MessageSpec := do
  let name ← required .unnamedMessage .name record.name
  let validText ← required (.message name) .validVersions record.validVersions
  let valid ← readValidVersions name validText
  let flexible ← readRangeOrNone (.message name) record.flexibleVersions
  let records ← required (.message name) .fields record.fields
  let fields ← buildFields name valid [] records
  let commonStructs ← record.commonStructs.mapM (buildCommonStruct name)
  .ok ⟨name, record.apiKey, record.role, valid, flexible, ⟨name, valid, fields⟩, commonStructs⟩

end Schema

/-- Load a message from the text of a document, which may have comments. -/
def MessageSpec.load (text : String) : Except SchemaError MessageSpec :=
  match Schema.MessageRecord.read? (Text.stripComments text) with
  | none => .error .notJson
  | some record => Schema.buildMessage record

end WireSchema
