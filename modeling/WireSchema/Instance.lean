import WireSchema.Decimal.Shortest
import WireSchema.FieldType
import WireSchema.Json.Basic
import WireSchema.Text.Uuid

/-!
# Instances

An **instance** is a struct with a value for each of its fields. Values are typed: there is one form
of value for each kind of field, and `null` for what is absent. An instance is written as a JSON
object with its fields in order; tagged fields that the schema does not know come last.
-/

namespace WireSchema

/-- A tagged field that the schema does not know, as raw bytes. -/
structure TaggedField where
  /-- The tag. -/
  tag : Int
  /-- The bytes. -/
  data : List UInt8
deriving DecidableEq, Repr

mutual

/-- A typed value. -/
inductive Value where
  /-- Nothing. -/
  | null
  /-- A truth value. -/
  | bool (b : Bool)
  /-- An integer of some width. -/
  | int (width : IntWidth) (n : Int)
  /-- A double. -/
  | float64 (x : Float)
  /-- A text. -/
  | string (s : String)
  /-- Opaque bytes. -/
  | bytes (data : List UInt8)
  /-- A UUID. -/
  | uuid (u : Uuid)
  /-- An opaque batch of records. -/
  | records (data : List UInt8)
  /-- A struct. -/
  | struct (i : Instance)
  /-- A sequence of values. -/
  | array (items : List Value)

/-- A struct with a value for each of its fields. -/
structure Instance where
  /-- The name of the struct. -/
  name : String
  /-- The fields with their values, in order. -/
  fields : List (String × Value)
  /-- The tagged fields that the schema does not know. -/
  unknownTagged : List TaggedField

end

/-- The key of fixtures and instances under which unknown tagged fields stand. -/
def unknownTaggedKey : String := "_unknown_tagged_fields"

namespace Instance

/-- The names of the fields, in order. -/
def fieldNames (i : Instance) : List String :=
  i.fields.map (·.1)

/-- The value of a field. -/
def get? (i : Instance) (name : String) : Option Value :=
  i.fields.lookup name

/-- Give the field of that name a new value. -/
def setIn (name : String) (value : Value) : List (String × Value) → List (String × Value)
  | [] => []
  | (n, v) :: fields => if n = name then (n, value) :: fields else (n, v) :: setIn name value fields

/-- Give a field a new value, if the instance has it. -/
def set? (i : Instance) (name : String) (value : Value) : Option Instance :=
  if i.fieldNames.contains name then
    some ⟨i.name, setIn name value i.fields, i.unknownTagged⟩
  else none

/-- Give a field a new value; without the field, nothing changes. -/
def set (i : Instance) (name : String) (value : Value) : Instance :=
  (i.set? name value).getD i

/-- Add unknown tagged fields. -/
def addTagged (i : Instance) (more : List TaggedField) : Instance :=
  ⟨i.name, i.fields, i.unknownTagged ++ more⟩

end Instance

/-! ### JSON form -/

/-- An unknown tagged field, with its bytes in hexadecimal. -/
def TaggedField.toJson (f : TaggedField) : Json :=
  .object [("tag", .ofInt f.tag), ("data", .string (Hex.encode f.data))]

/-- The member for unknown tagged fields, which is left out if there are none. -/
def TaggedField.members : List TaggedField → List (String × Json)
  | [] => []
  | tagged => [(unknownTaggedKey, .array (tagged.map toJson))]

mutual

/-- The JSON form of a value: bytes in hexadecimal, and `null` for a double that is not finite. -/
def Value.toJson : Value → Json
  | .null => .null
  | .bool b => .bool b
  | .int _ n => .ofInt n
  | .float64 x => if Decimal.isFinite x then .number (.float x) else .null
  | .string s => .string s
  | .bytes data => .string (Hex.encode data)
  | .uuid u => .string u.toText
  | .records data => .string (Hex.encode data)
  | .struct i => i.toJson
  | .array items => .array (Value.itemsToJson items)

/-- The JSON form of an instance. -/
def Instance.toJson : Instance → Json
  | ⟨_, fields, tagged⟩ => .object (Value.fieldsToJson fields ++ TaggedField.members tagged)

/-- The JSON forms of the items of an array. -/
def Value.itemsToJson : List Value → List Json
  | [] => []
  | item :: items => item.toJson :: Value.itemsToJson items

/-- The fields of an instance as members of an object. -/
def Value.fieldsToJson : List (String × Value) → List (String × Json)
  | [] => []
  | (name, value) :: fields => (name, value.toJson) :: Value.fieldsToJson fields

end

end WireSchema
