import WireSchema.Fixture.Default
import WireSchema.Fixture.Tagged

/-!
# Materializing fixtures

A fixture is a JSON object that gives values for some fields of a message. Its **instance** starts
out with the defaults, and the members of the fixture overwrite them one by one in their order.

A `null` for a scalar is accepted only where the field is tagged, and keeps the default; a null UUID
keeps the default too; every other kind of field takes null as its value.
-/

namespace WireSchema.Materializer

open Fixture (Node)

/-! ### Values without parts -/

/-- The integer of a width in a JSON value. -/
def convertInteger (width : IntWidth) (value : Json) : Except ValueFault Value :=
  match value.integer? with
  | none => .error (.mismatch .integer value.kind)
  | some n =>
    if width.bounds.contains n then .ok (.int width n) else .error (.outOfRange n width)

/-- The double in a JSON value. -/
def convertFloat : Json → Except ValueFault Value
  | .number (.integer n) => .ok (.float64 (Decimal.doubleOfInt n))
  | .number (.float x) => .ok (.float64 x)
  | value => .error (.mismatch .number value.kind)

/-- The bytes in a JSON value. -/
def convertHex : Json → Except ValueFault (List UInt8)
  | .string text =>
    match Hex.decode text with
    | .ok bytes => .ok bytes
    | .error fault => .error (.badHex fault)
  | value => .error (.mismatch .hex value.kind)

/-- The UUID in a JSON value. -/
def convertUuid : Json → Except ValueFault Value
  | .string text =>
    match Uuid.read text with
    | .ok u => .ok (.uuid u)
    | .error fault => .error (.badUuid text fault)
  | value => .error (.mismatch .uuid value.kind)

/-- Attach the label and the message to a fault. -/
def locate {α : Type} (m : Materializer) (label : String) :
    Except ValueFault α → Except FixtureError α
  | .ok a => .ok a
  | .error fault => .error (m.valueError label fault)

/-- Convert a JSON value of a kind that has no parts, or report why it does not have the parts that
the kind needs. -/
def convertLeaf (m : Materializer) (node : Node) (type : FieldType) (label : String)
    (value : Json) : Except FixtureError Value :=
  match type with
  | .bool =>
    match value with
    | .bool b => .ok (.bool b)
    | _ => .error (m.valueError label (.mismatch .boolean value.kind))
  | .int width => m.locate label (convertInteger width value)
  | .float64 => m.locate label (convertFloat value)
  | .string =>
    match value with
    | .string s => .ok (.string s)
    | _ => .error (m.valueError label (.mismatch .string value.kind))
  | .bytes => m.locate label ((convertHex value).map .bytes)
  | .records => m.locate label ((convertHex value).map .records)
  | .uuid => m.locate label (convertUuid value)
  | .struct _ =>
    match value with
    | .null => .ok .null
    | _ =>
      match node.struct? with
      | none => .error (m.valueError node.name .notStruct)
      | some _ => .error (m.valueError node.name (.mismatch .object value.kind))
  | .array _ =>
    match node.element? with
    | none => .error (m.valueError label .notArrayField)
    | some _ => .error (m.valueError label .notArray)
  | .unsupported _ => .error (m.unsupported label type)

/-! ### Nulls -/

/-- What a null does to a field: nothing if it keeps the default. -/
def nullField (m : Materializer) (field : FieldSpec) : Except FixtureError (Option Value) :=
  match field.type with
  | .bool | .int _ | .float64 =>
    if field.isTaggedAt m.version then .ok none
    else .error (m.valueError field.name .nullScalar)
  | .uuid => .ok none
  | .unsupported _ => .error (m.unsupported field.name field.type)
  | _ => .ok (some .null)

/-- The value of a null in an array. -/
def nullItem (m : Materializer) (type : FieldType) (label : String) : Except FixtureError Value :=
  match type with
  | .bool | .int _ | .float64 => .error (m.valueError label .nullItem)
  | .uuid => .ok (.uuid .zero)
  | .unsupported _ => .error (m.unsupported label type)
  | _ => .ok .null

/-! ### Structs and arrays -/

/-- Whether a JSON value is null. -/
def isNull : Json → Bool
  | .null => true
  | _ => false

/-- The label of an item of an array. -/
def itemLabel (label : String) (index : Nat) : String :=
  label ++ "[" ++ toString index ++ "]"

/-- The instance that a fixture's members are assigned to: the defaults of the struct at a
position. -/
def start (m : Materializer) (node : Node) : Except FixtureError Instance :=
  match node.struct? with
  | none => .error (m.valueError node.name .notStruct)
  | some spec => m.defaultInstance spec

/-- The field that a key stands for, and its position. The field must exist at the version. -/
def select (m : Materializer) (node : Node) (key : String) :
    Except FixtureError (FieldSpec × Node) := do
  let canonical ← Fixture.normalize node.knownNames key
  let child ← node.child m.registry canonical
  match child.field? with
  | none => .error (.fieldNotFound canonical node.structName)
  | some field =>
    if field.existsAt m.version then .ok (field, child)
    else .error (m.valueError field.name (.absent field.versions))

/-- The unknown tagged fields of a fixture. -/
def readTagged (value : Json) : Except FixtureError (List TaggedField) :=
  match TaggedField.read value with
  | .ok fields => .ok fields
  | .error e => .error (.schema e)

mutual

/-- Convert a JSON value of the given kind at a position. -/
def convert (m : Materializer) (node : Node) (type : FieldType) (label : String) :
    Json → Except FixtureError Value
  | .object members =>
    match type with
    | .struct _ => do
      let defaults ← m.start node
      let i ← assign m node defaults members
      .ok (.struct i)
    | _ => convertLeaf m node type label (.object members)
  | .array items =>
    match type, node.element? with
    | .array _, some element => do
      let values ← convertItems m node element label 0 items
      .ok (.array values)
    | _, _ => convertLeaf m node type label (.array items)
  | .null => convertLeaf m node type label .null
  | .bool b => convertLeaf m node type label (.bool b)
  | .number n => convertLeaf m node type label (.number n)
  | .string s => convertLeaf m node type label (.string s)

/-- Convert the items of an array, the first of which has the given index. -/
def convertItems (m : Materializer) (node : Node) (element : FieldType) (label : String)
    (index : Nat) : List Json → Except FixtureError (List Value)
  | [] => .ok []
  | item :: items => do
    let value ←
      if isNull item then m.nullItem element (itemLabel label index)
      else convert m node element (itemLabel label index) item
    let values ← convertItems m node element label (index + 1) items
    .ok (value :: values)

/-- Assign the members of a fixture to the fields of an instance, in order. -/
def assign (m : Materializer) (node : Node) (i : Instance) :
    List (String × Json) → Except FixtureError Instance
  | [] => .ok i
  | (key, value) :: members =>
    if key = unknownTaggedKey then do
      let tagged ← readTagged value
      assign m node (i.addTagged tagged) members
    else do
      let (field, child) ← m.select node key
      let value? ←
        if isNull value then m.nullField field
        else do
          let converted ← convert m child field.type field.name value
          .ok (some converted)
      match value? with
      | none => assign m node i members
      | some converted => assign m node (i.set field.name converted) members

end

/-- Convert an item of an array. -/
def convertItem (m : Materializer) (node : Node) (type : FieldType) (label : String)
    (item : Json) : Except FixtureError Value :=
  if isNull item then m.nullItem type label else m.convert node type label item

/-- The instance that a JSON value gives at the position of a struct; null gives none. -/
def materialize (m : Materializer) (node : Node) (value : Json) :
    Except FixtureError (Option Instance) :=
  match value with
  | .null => .ok none
  | .object members => do
    let defaults ← m.start node
    let i ← m.assign node defaults members
    .ok (some i)
  | _ =>
    match node.struct? with
    | none => .error (m.valueError node.name .notStruct)
    | some _ => .error (m.valueError node.name (.mismatch .object value.kind))

/-- The position of the top-level struct. -/
def root (m : Materializer) : Node :=
  .root m.message.struct

/-- The instance of a whole fixture, which must be an object. -/
def materializeRoot (m : Materializer) (fixture : Json) : Except FixtureError Instance :=
  match fixture with
  | .object _ => do
    match ← m.materialize m.root fixture with
    | some i => .ok i
    | none => .error (m.valueError m.message.name .rootNull)
  | _ => .error (m.valueError m.message.name (.rootNotObject fixture.kind))

end WireSchema.Materializer

namespace WireSchema

/-- The instance of a fixture for a message at a version, with a registry of its own. -/
def MessageSpec.materialize (message : MessageSpec) (v : Version) (fixture : Json) :
    Except FixtureError Instance :=
  match Registry.ofMessage message with
  | .error e => .error (.schema e)
  | .ok registry => do
    let m ← Materializer.new message registry v
    m.materializeRoot fixture

end WireSchema
