import WireSchema.Text.Blank
import WireSchema.Text.Numeral

/-!
# Field types

The declared kind of a field: a scalar, a text or byte kind, a struct referred to by name, or an
array of one of these. A type text that no consumer knows is kept as `unsupported`, so that it
fails only where a field of that type is used.
-/

namespace WireSchema

/-- The integer kinds. -/
inductive IntWidth where
  /-- 8 bits with a sign. -/
  | int8
  /-- 16 bits with a sign. -/
  | int16
  /-- 16 bits without a sign. -/
  | uint16
  /-- 32 bits with a sign. -/
  | int32
  /-- 32 bits without a sign. -/
  | uint32
  /-- 64 bits with a sign. -/
  | int64
deriving DecidableEq, Repr

namespace IntWidth

/-- The name of the kind in a schema. -/
def name : IntWidth → String
  | .int8 => "int8"
  | .int16 => "int16"
  | .uint16 => "uint16"
  | .int32 => "int32"
  | .uint32 => "uint32"
  | .int64 => "int64"

/-- The integers of the kind. -/
def bounds : IntWidth → Bounds
  | .int8 => .signed 8
  | .int16 => .signed 16
  | .uint16 => .unsigned 16
  | .int32 => .signed 32
  | .uint32 => .unsigned 32
  | .int64 => .signed 64

end IntWidth

/-- The declared kind of a field. -/
inductive FieldType where
  /-- A truth value. -/
  | bool
  /-- An integer of some width. -/
  | int (width : IntWidth)
  /-- A double. -/
  | float64
  /-- A text. -/
  | string
  /-- Opaque bytes. -/
  | bytes
  /-- A UUID. -/
  | uuid
  /-- An opaque batch of records. -/
  | records
  /-- The struct of that name. -/
  | struct (name : String)
  /-- A sequence of elements. -/
  | array (element : FieldType)
  /-- A type text that is none of the above. -/
  | unsupported (raw : String)
deriving DecidableEq, Repr

namespace FieldType

/-- The kinds that have a name of their own. -/
def keywords : List (String × FieldType) :=
  [("bool", .bool), ("int8", .int .int8), ("int16", .int .int16), ("uint16", .int .uint16),
    ("int32", .int .int32), ("uint32", .int .uint32), ("int64", .int .int64),
    ("float64", .float64), ("string", .string), ("bytes", .bytes), ("uuid", .uuid),
    ("records", .records)]

/-- The text of a type. -/
def toText : FieldType → String
  | .bool => "bool"
  | .int width => width.name
  | .float64 => "float64"
  | .string => "string"
  | .bytes => "bytes"
  | .uuid => "uuid"
  | .records => "records"
  | .struct name => name
  | .array element => "[]" ++ element.toText
  | .unsupported raw => raw

/-- The kinds that hold one number or truth value and have no null form. -/
def isScalar : FieldType → Bool
  | .bool | .int _ | .float64 => true
  | _ => false

/-- The struct a type refers to, directly or as element of an array. -/
def structName? : FieldType → Option String
  | .struct name => some name
  | .array element => element.structName?
  | _ => none

/-! ### Reading -/

/-- The text without an array marker, which may stand before or after the element. -/
def dropMarker? (cs : List Char) : Option (List Char) :=
  match cs with
  | '[' :: ']' :: element => some element
  | _ =>
    match cs.reverse with
    | ']' :: '[' :: element => some element.reverse
    | _ => none

/-- Read a type that is not an array: a keyword, or a struct if it starts with a capital. -/
def readElement (cs : List Char) : FieldType :=
  match keywords.lookup (String.ofList cs) with
  | some type => type
  | none =>
    match cs with
    | c :: _ => if c.isUpper then .struct (String.ofList cs) else .unsupported (String.ofList cs)
    | [] => .unsupported ""

/-- Whether a type can be the element of an array. -/
def isElement : FieldType → Bool
  | .array _ | .unsupported _ => false
  | _ => true

/-- Read a type from a text without blanks around it. What stands beside an array marker must be
a supported type without a marker of its own. -/
def readTrimmed (cs : List Char) : FieldType :=
  match dropMarker? cs with
  | none => readElement cs
  | some marked =>
    let inner := Text.dropBlanks marked
    let element := readElement inner
    if (dropMarker? inner).isNone && element.isElement then .array element
    else .unsupported (String.ofList cs)

/-- Read the type of a field. -/
def read (text : String) : FieldType :=
  readTrimmed (Text.dropBlanks text.toList)

end FieldType

end WireSchema
