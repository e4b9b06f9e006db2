import WireSchema.AtVersion
import WireSchema.Fixture.Node
import WireSchema.Instance

/-!
# Default instances

Before a fixture is read, an instance holds the default of every field that exists at its version:
the declared default if there is one, and otherwise a zero value of its type. A struct field
defaults to the default instance of its struct, unless that struct is already being built around
it: then the default is `null`, which is what makes recursive schemas work.

The names of the structs under construction form a **path**. It bounds the construction: every step
inward adds a defined name that was not on it.
-/

namespace WireSchema

/-- What instances are built for: a message, its structs, and a version. -/
structure Materializer where
  /-- The message. -/
  message : MessageSpec
  /-- The structs it refers to. -/
  registry : Registry
  /-- The version. -/
  version : Version

namespace Materializer

/-- The materializer of a message for one of its versions. -/
def new (message : MessageSpec) (registry : Registry) (version : Version) :
    Except FixtureError Materializer :=
  match message.checkVersion version with
  | .error e => .error (.schema e)
  | .ok () => .ok ⟨message, registry, version⟩

/-- The error for a value that does not fit. -/
def valueError (m : Materializer) (label : String) (fault : ValueFault) : FixtureError :=
  .value m.message.name m.version label fault

/-- The error for a type that has no values. -/
def unsupported (m : Materializer) (label : String) (type : FieldType) : FixtureError :=
  .unsupportedType m.message.name m.version label type

end Materializer

/-! ### Declared defaults -/

namespace Default

/-- An integer default: decimal, or hexadecimal behind `0x`. -/
def readInteger (text : String) : Except Numeral.Fault Int :=
  match text.toList with
  | '0' :: 'x' :: digits => Numeral.read 16 (.signed 64) digits
  | '0' :: 'X' :: digits => Numeral.read 16 (.signed 64) digits
  | cs => Numeral.read 10 (.signed 64) cs

/-- The value of a default text for a type; nothing for a type whose defaults are not written as
texts. -/
def ofText (type : FieldType) (text : String) : Except AttributeFault (Option Value) :=
  match type with
  | .bool =>
    if text = "true" then .ok (some (.bool true))
    else if text = "false" then .ok (some (.bool false))
    else .error (.notBoolean text)
  | .int width =>
    match readInteger text with
    | .error fault => .error (.notInteger text fault)
    | .ok n =>
      if width.bounds.contains n then .ok (some (.int width n)) else .error (.outOfRange n width)
  | .float64 =>
    match Decimal.readDouble text with
    | .error fault => .error (.notNumber text fault)
    | .ok x => .ok (some (.float64 x))
  | .string => .ok (some (.string text))
  | .uuid =>
    match Uuid.read text with
    | .error fault => .error (.notUuid text fault)
    | .ok u => .ok (some (.uuid u))
  | _ => .ok none

/-- The zero value of a type; none for structs, which have instances instead, and for types that
have no values. -/
def zero? : FieldType → Option Value
  | .bool => some (.bool false)
  | .int width => some (.int width 0)
  | .float64 => some (.float64 0.0)
  | .string => some (.string "")
  | .bytes => some (.bytes [])
  | .uuid => some (.uuid .zero)
  | .records => some (.records [])
  | .array _ => some (.array [])
  | .struct _ | .unsupported _ => none

end Default

namespace Materializer

/-- The declared default of a field, if it has one that counts. The text `null` stands for null
where the field may be null. -/
def declaredDefault (m : Materializer) (field : FieldSpec) : Except FixtureError (Option Value) :=
  match field.defaultText with
  | none => .ok none
  | some text =>
    if text = "null" ∧ field.isNullableAt m.version then .ok (some .null)
    else
      match Default.ofText field.type text with
      | .ok value? => .ok value?
      | .error fault =>
        .error (.schema (.invalid (.instanceField m.message.name field.name) fault))

/-! ### Construction -/

/-- How the default of a field is obtained. -/
inductive DefaultStep where
  /-- It is known. -/
  | value (v : Value)
  /-- It is the default instance of a struct. -/
  | inside (spec : StructSpec)

/-- How the default of a field is obtained, inside the structs on `path`. -/
def defaultStep (m : Materializer) (path : List String) (field : FieldSpec) :
    Except FixtureError DefaultStep :=
  match m.declaredDefault field with
  | .error e => .error e
  | .ok (some value) => .ok (.value value)
  | .ok none =>
    match field.type with
    | .struct name =>
      if name ∈ path then .ok (.value .null)
      else
        match m.registry.findStruct field with
        | .error e => .error (.schema e)
        | .ok spec => .ok (.inside spec)
    | type =>
      match Default.zero? type with
      | some value => .ok (.value value)
      | none => .error (m.unsupported field.name field.type)

/-- A struct to be entered is the definition of its name, and is not on the path. -/
theorem defaultStep_inside {m : Materializer} {path : List String} {field : FieldSpec}
    {spec : StructSpec} (h : m.defaultStep path field = .ok (.inside spec)) :
    m.registry.find? spec.name = some spec ∧ spec.name ∉ path := by
  unfold defaultStep at h
  split at h
  · cases h
  · cases h
  · split at h
    · rename_i name type
      split at h
      · cases h
      · rename_i fresh
        split at h
        · cases h
        · rename_i found
          cases h
          refine ⟨Registry.find?_of_findStruct found, ?_⟩
          simp only [Registry.findStruct, type, FieldType.structName?] at found
          split at found
          · cases found
          · rename_i found'
            cases found
            rw [Registry.name_of_find? found']
            exact fresh
    · split at h <;> cases h

/-- A construction that failed, with the structs that were being built. -/
structure Unfinished where
  /-- Why it failed. -/
  error : FixtureError
  /-- The names of the structs under construction, the outermost first. -/
  path : List String

/-- The defaults of fields, in order, inside the structs on `path`. -/
def defaultFields (m : Materializer) (path : List String) (fields : List FieldSpec) :
    Except Unfinished (List (String × Value)) :=
  match fields with
  | [] => .ok []
  | field :: rest =>
    match step : m.defaultStep path field with
    | .error e => .error ⟨e, path⟩
    | .ok (.value value) => do
      let others ← m.defaultFields path rest
      .ok ((field.name, value) :: others)
    | .ok (.inside spec) => do
      have := Registry.weightBeyond_append (defaultStep_inside step).1 (defaultStep_inside step).2
      have := spec.length_fieldsAt_le m.version
      let inner ← m.defaultFields (path ++ [spec.name]) (spec.fieldsAt m.version)
      let others ← m.defaultFields path rest
      .ok ((field.name, .struct ⟨spec.name, inner, []⟩) :: others)
termination_by m.registry.weightBeyond path + fields.length
decreasing_by
  all_goals
    simp only [List.length_cons]
    omega

/-- The default instance of a struct, inside the structs on `path`. -/
def defaultInstanceIn (m : Materializer) (path : List String) (spec : StructSpec) :
    Except Unfinished Instance := do
  let fields ← m.defaultFields (path ++ [spec.name]) (spec.fieldsAt m.version)
  .ok ⟨spec.name, fields, []⟩

/-- The default instance of a struct. -/
def defaultInstance (m : Materializer) (spec : StructSpec) : Except FixtureError Instance :=
  match m.defaultInstanceIn [] spec with
  | .ok i => .ok i
  | .error unfinished => .error unfinished.error

end Materializer

end WireSchema
