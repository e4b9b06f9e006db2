import WireSchema.Decimal.Literal
import WireSchema.FieldType
import WireSchema.Files.Fault
import WireSchema.Json.Basic
import WireSchema.Text.Uuid
import WireSchema.VersionRange

/-!
# Schema errors

Everything that can be wrong with a schema, or with a question asked about one, as causes. The
wording of each is in `SchemaError.message`.
-/

namespace WireSchema

/-- The part of a document that an error is about. -/
inductive Place where
  /-- A message whose name is not known. -/
  | unnamedMessage
  /-- A message. -/
  | message (name : String)
  /-- A shared struct of a message whose name is not known. -/
  | unnamedCommonStruct (message : String)
  /-- A shared struct. -/
  | commonStruct (name : String)
  /-- A field of a struct whose name is not known. -/
  | unnamedField (struct : String)
  /-- A field of a struct. -/
  | field (struct field : String)
  /-- A field, as a message's instances see it. -/
  | instanceField (message field : String)
deriving DecidableEq, Repr

/-- The wording of a place. -/
def Place.text : Place → String
  | .unnamedMessage => "message"
  | .message name => "message " ++ name
  | .unnamedCommonStruct owner => "message " ++ owner ++ ": common struct"
  | .commonStruct name => "common struct " ++ name
  | .unnamedField owner => "struct " ++ owner ++ ": field"
  | .field owner name => "struct " ++ owner ++ "." ++ name
  | .instanceField owner name => owner ++ "." ++ name

/-- The attributes that an error can be about. -/
inductive Attribute where
  | name
  | type
  | versions
  | validVersions
  | fields
  | default
deriving DecidableEq, Repr

/-- The name of an attribute in a document. -/
def Attribute.text : Attribute → String
  | .name => "name"
  | .type => "type"
  | .versions => "versions"
  | .validVersions => "validVersions"
  | .fields => "fields"
  | .default => "default"

/-- Why the value of an attribute is unusable. -/
inductive AttributeFault where
  /-- A message has no version at all. -/
  | noVersion
  /-- A field of a type without a struct declares nested fields. -/
  | nestedFields (type : String)
  /-- A default is neither of the two truth values. -/
  | notBoolean (text : String)
  /-- A default is not an integer. -/
  | notInteger (text : String) (fault : Numeral.Fault)
  /-- A default is an integer that the type does not have. -/
  | outOfRange (n : Int) (width : IntWidth)
  /-- A default is not a number. -/
  | notNumber (text : String) (fault : Decimal.Fault)
  /-- A default is not a UUID. -/
  | notUuid (text : String) (fault : Uuid.Fault)
deriving DecidableEq, Repr

namespace AttributeFault

/-- The attribute at fault. -/
def key : AttributeFault → Attribute
  | .noVersion => .validVersions
  | .nestedFields _ => .fields
  | _ => .default

/-- The wording of a fault. -/
def message : AttributeFault → String
  | .noVersion => "a message must support at least one version"
  | .nestedFields type => "type '" ++ type ++ "' cannot declare nested fields"
  | .notBoolean text => "'" ++ text ++ "' is not a boolean"
  | .notInteger text fault => "'" ++ text ++ "' is not an integer: " ++ fault.message
  | .outOfRange n width => toString n ++ " is out of range for " ++ width.name
  | .notNumber text fault => "'" ++ text ++ "' is not a number: " ++ fault.message
  | .notUuid text fault => "'" ++ text ++ "' is not a UUID: " ++ fault.message

end AttributeFault

/-- What is wrong with the tagging of a field. -/
inductive TagFault where
  /-- The tagged versions are empty or start before the field does. -/
  | startsEarly (tagged declared : VersionRange)
  /-- The tagged versions go beyond those of the field. -/
  | notWithin (tagged declared : VersionRange)
  /-- There are tagged versions and no tag. -/
  | missingTag
  /-- There is a tag and no tagged versions. -/
  | missingVersions (tag : Int)
  /-- The tag is below zero. -/
  | negative (tag : Int)
deriving DecidableEq, Repr

/-- The wording of a fault. -/
def TagFault.message : TagFault → String
  | .startsEarly tagged declared =>
    "taggedVersions " ++ tagged.toText ++ " must start at or after versions " ++ declared.toText
  | .notWithin tagged declared =>
    "taggedVersions " ++ tagged.toText ++ " is not within versions " ++ declared.toText
  | .missingTag => "tagged fields must declare a tag"
  | .missingVersions tag => "tag " ++ toString tag ++ " given without taggedVersions"
  | .negative tag => "tag " ++ toString tag ++ " is negative"

/-- What is wrong with the reserved fixture entry for unknown tagged fields. -/
inductive TaggedEntryFault where
  /-- The entry is not an array. -/
  | notArray (found : Json.Kind)
  /-- An object lacks one of its two keys. -/
  | missingKeys (index : Nat)
  /-- An element is neither a pair nor an object. -/
  | notPair (index : Nat) (found : Json.Kind)
  /-- A tag, given by its JSON text, is not an integer in range. -/
  | badTag (index : Nat) (tag : String)
  /-- Data is not a string. -/
  | notString (index : Nat)
  /-- Data is not hexadecimal. -/
  | notHex (index : Nat) (fault : Hex.Fault)
deriving DecidableEq, Repr

/-- The wording of a fault. -/
def TaggedEntryFault.message : TaggedEntryFault → String
  | .notArray found => "expected an array, found " ++ found.text
  | .missingKeys index => "entry " ++ toString index ++ " needs 'tag' and 'data'"
  | .notPair index found =>
    "entry " ++ toString index ++ " must be a [tag, data] pair, found " ++ found.text
  | .badTag index tag => "entry " ++ toString index ++ " has invalid tag " ++ tag
  | .notString index => "entry " ++ toString index ++ " data must be a hex string"
  | .notHex index fault => "entry " ++ toString index ++ " data is not hex: " ++ fault.message

/-- What is wrong with a schema. -/
inductive SchemaError where
  /-- The document is not JSON of the right form. -/
  | notJson
  /-- The document cannot be read. -/
  | unreadable (path : String) (fault : FileFault)
  /-- A required attribute is absent. -/
  | missing (place : Place) (key : Attribute)
  /-- An attribute has an unusable value. -/
  | invalid (place : Place) (fault : AttributeFault)
  /-- A version range cannot be read. -/
  | badRange (place : Place) (malformed : VersionRange.Malformed)
  /-- The versions of a message have no finite upper bound. -/
  | openEnded (message range : String)
  /-- A field never exists inside its struct. -/
  | outsideStruct (struct field : String) (versions structVersions : VersionRange)
  /-- The tagging of a field is wrong. -/
  | badTag (struct field : String) (fault : TagFault)
  /-- A struct has two fields of one name. -/
  | duplicateField (struct field : String)
  /-- A struct has two fields with one tag. -/
  | duplicateTag (struct : String) (tag : Int)
  /-- Two definitions share a name and differ in shape. -/
  | conflictingStruct (name : String)
  /-- A field refers to a struct that is not defined. -/
  | unresolvedType (field typeName : String)
  /-- A field that refers to no struct was asked for one. -/
  | notStruct (field : String) (type : FieldType)
  /-- A message does not have a version. -/
  | unsupportedVersion (message : String) (version : Version) (valid : VersionRange)
  /-- The reserved fixture entry is malformed. -/
  | malformedTagged (fault : TaggedEntryFault)
deriving DecidableEq, Repr

/-- The wording of a schema error. -/
def SchemaError.message : SchemaError → String
  | .notJson => "invalid schema document: json"
  | .unreadable path fault => "failed to read schema " ++ path ++ ": " ++ fault.message
  | .missing place key => place.text ++ ": missing required attribute '" ++ key.text ++ "'"
  | .invalid place fault =>
    place.text ++ ": invalid attribute '" ++ fault.key.text ++ "': " ++ fault.message
  | .badRange place malformed => place.text ++ ": " ++ malformed.message
  | .openEnded owner range =>
    "message " ++ owner ++ " does not specify a maximum version (validVersions '" ++ range ++ "')"
  | .outsideStruct struct field versions structVersions =>
    "struct " ++ struct ++ ": field '" ++ field ++ "' versions " ++ versions.toText ++
      " do not overlap struct versions " ++ structVersions.toText
  | .badTag struct field fault =>
    "struct " ++ struct ++ ": field '" ++ field ++ "' has invalid tagged versions: " ++
      fault.message
  | .duplicateField struct field =>
    "struct " ++ struct ++ ": field '" ++ field ++ "' is declared more than once"
  | .duplicateTag struct tag =>
    "struct " ++ struct ++ ": tag " ++ toString tag ++ " is used by more than one field"
  | .conflictingStruct name => "struct '" ++ name ++ "' is defined twice with different fields"
  | .unresolvedType field typeName =>
    "field '" ++ field ++ "' references unknown struct type '" ++ typeName ++ "'"
  | .notStruct field type =>
    "field '" ++ field ++ "' of type '" ++ type.toText ++ "' is not struct-typed"
  | .unsupportedVersion owner version valid =>
    "message " ++ owner ++ " does not support version " ++ toString version ++
      " (validVersions " ++ valid.toText ++ ")"
  | .malformedTagged fault => "malformed _unknown_tagged_fields: " ++ fault.message

end WireSchema
