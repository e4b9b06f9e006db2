import WireSchema.Fixture.Key
import WireSchema.Registry

/-!
# Positions in a message

A `Node` is a position in the tree of a message: its top-level struct, or a declared field together
with the struct that the field refers to. Structs are looked up in a registry, so the tree may be
infinite; only the part that a fixture reaches is ever visited.
-/

namespace WireSchema.Fixture

/-- A position in the tree of a message. -/
inductive Node where
  /-- The top-level struct. -/
  | root (struct : StructSpec)
  /-- A field, with the struct it refers to, directly or as element of an array. -/
  | field (field : FieldSpec) (struct : Option StructSpec)

namespace Node

/-- The field at a position. -/
def field? : Node → Option FieldSpec
  | .root _ => none
  | .field f _ => some f

/-- The struct at a position. -/
def struct? : Node → Option StructSpec
  | .root s => some s
  | .field _ s => s

/-- The name of a position: that of the field, or of the top-level struct. -/
def name : Node → String
  | .root s => s.name
  | .field f _ => f.name

/-- The name of the struct at a position, or of the position if it has none. -/
def structName (node : Node) : String :=
  match node.struct? with
  | some s => s.name
  | none => node.name

/-- The type of the elements, at an array field. -/
def element? : Node → Option FieldType
  | .field f _ =>
    match f.type with
    | .array element => some element
    | _ => none
  | .root _ => none

/-- Whether a position is a field that is tagged at a version. -/
def isTaggedAt (node : Node) (v : Version) : Bool :=
  match node.field? with
  | some f => f.isTaggedAt v
  | none => false

/-- The declared names of the fields of the struct at a position. -/
def knownNames (node : Node) : List String :=
  match node.struct? with
  | some s => s.fieldNames
  | none => []

/-- The position of a field, with its struct looked up. -/
def ofField (r : Registry) (f : FieldSpec) : Except FixtureError Node :=
  match f.type.structName? with
  | none => .ok (.field f none)
  | some _ =>
    match r.findStruct f with
    | .error e => .error (.schema e)
    | .ok s => .ok (.field f (some s))

/-- The field declared under a name. -/
def declared? (node : Node) (name : String) : Option FieldSpec :=
  node.struct?.bind (·.field? name)

/-- The field that a name stands for: the one declared under it, or under its alias. -/
def lookup (node : Node) (name : String) : Except FixtureError FieldSpec :=
  match (node.declared? name).or ((alias? name).bind node.declared?) with
  | some f => .ok f
  | none => .error (.fieldNotFound name node.structName)

/-- The position of the field that a name stands for. -/
def child (r : Registry) (node : Node) (name : String) : Except FixtureError Node := do
  let f ← node.lookup name
  ofField r f

/-- The position that a list of names leads to. -/
def descend (r : Registry) : Node → List String → Except FixtureError Node
  | node, [] => .ok node
  | node, name :: names => do
    let next ← node.child r name
    descend r next names

end Node

end WireSchema.Fixture
