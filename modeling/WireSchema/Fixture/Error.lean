import WireSchema.Schema.Error

/-!
# Fixture errors

Why a fixture does not describe an instance of a message, as causes. The wording of each is in
`FixtureError.message`.
-/

namespace WireSchema

/-- What a field expects of a JSON value. -/
inductive Expected where
  | boolean
  | integer
  | number
  | string
  | hex
  | uuid
  | object
deriving DecidableEq, Repr

/-- The wording of an expectation. -/
def Expected.text : Expected → String
  | .boolean => "a boolean"
  | .integer => "an integer"
  | .number => "a number"
  | .string => "a string"
  | .hex => "a hex string"
  | .uuid => "a UUID string"
  | .object => "an object"

/-- Why a value does not fit its field. -/
inductive ValueFault where
  /-- The fixture itself is not an object. -/
  | rootNotObject (found : Json.Kind)
  /-- The fixture itself gives no instance. -/
  | rootNull
  /-- The value is of the wrong kind. -/
  | mismatch (expected : Expected) (found : Json.Kind)
  /-- The integer is not one of the field's width. -/
  | outOfRange (n : Int) (width : IntWidth)
  /-- The text is not hexadecimal. -/
  | badHex (fault : Hex.Fault)
  /-- The text is not a UUID. -/
  | badUuid (text : String) (fault : Uuid.Fault)
  /-- The field does not exist at the version. -/
  | absent (versions : VersionRange)
  /-- A scalar that is not tagged was given as null. -/
  | nullScalar
  /-- An item of a scalar kind was given as null. -/
  | nullItem
  /-- The field does not refer to a struct. -/
  | notStruct
  /-- The field is not an array. -/
  | notArrayField
  /-- The value of an array field is not an array. -/
  | notArray
deriving DecidableEq, Repr

/-- The wording of a fault. -/
def ValueFault.message : ValueFault → String
  | .rootNotObject found => "top-level fixture must be an object, found " ++ found.text
  | .rootNull => "top-level fixture is null"
  | .mismatch expected found => "expected " ++ expected.text ++ ", found " ++ found.text
  | .outOfRange n width => toString n ++ " is out of range for " ++ width.name
  | .badHex fault => "invalid hex: " ++ fault.message
  | .badUuid text fault => "invalid UUID '" ++ text ++ "': " ++ fault.message
  | .absent versions => "field is not present at this version (versions " ++ versions.toText ++ ")"
  | .nullScalar => "null is only allowed for fields tagged at this version"
  | .nullItem => "array elements of this kind cannot be null"
  | .notStruct => "not a struct-typed field"
  | .notArrayField => "not an array field"
  | .notArray => "expected an array"

/-- Why a fixture cannot be materialized. -/
inductive FixtureError where
  /-- The schema is at fault, or the reserved entry of the fixture. -/
  | schema (error : SchemaError)
  /-- A field has a type that has no values. -/
  | unsupportedType (message : String) (version : Version) (field : String) (type : FieldType)
  /-- A value does not fit its field. -/
  | value (message : String) (version : Version) (field : String) (fault : ValueFault)
  /-- A key stands for no declared field; the names tried are listed. -/
  | unknownKey (key : String) (tried : List String)
  /-- A struct has no field of that name. -/
  | fieldNotFound (field struct : String)
deriving DecidableEq, Repr

/-- The wording of a fixture error. -/
def FixtureError.message : FixtureError → String
  | .schema error => error.message
  | .unsupportedType owner version field type =>
    owner ++ " v" ++ toString version ++ ": field '" ++ field ++ "' has unsupported kind '" ++
      type.toText ++ "'"
  | .value owner version field fault =>
    owner ++ " v" ++ toString version ++ ": field '" ++ field ++ "': " ++ fault.message
  | .unknownKey key tried =>
    "no declared field matches fixture key '" ++ key ++ "' (tried " ++ ", ".intercalate tried ++ ")"
  | .fieldNotFound field struct => "field '" ++ field ++ "' not found in struct '" ++ struct ++ "'"

end WireSchema
