import WireSchema.Proofs.ByteTexts
import WireSchema.Proofs.Grounded

/-!
# Instances are read back from their JSON form

The JSON form of an instance forgets the types of its values: bytes and UUIDs become texts, all
integers become numbers, and the members of an object are named by the fields. Read as a fixture for
the same message and version it gives the instance back, because the types are in the schema.

There are two ways to lose something on the way. A *value* may be written as something else: a
double that is not finite as null, or a field under a key that stands for another one; these are
excluded by hypotheses. And a *fixture* may be refused: a member of a fixture addresses its field,
which resolves the struct that the field refers to, although the default of the field was built
without it. So an instance can be read back exactly if the structs of all instances in it are
`Readable`.
-/

namespace WireSchema

/-! ### Values and their parts -/

mutual

/-- The doubles in a value, at any depth. -/
def Value.floats : Value → List Float
  | .float64 x => [x]
  | .struct i => i.floats
  | .array items => Value.itemsFloats items
  | _ => []

/-- The doubles in an instance. -/
def Instance.floats : Instance → List Float
  | ⟨_, fields, _⟩ => Value.fieldsFloats fields

/-- The doubles in the items of an array. -/
def Value.itemsFloats : List Value → List Float
  | [] => []
  | item :: items => item.floats ++ Value.itemsFloats items

/-- The doubles in the fields of an instance. -/
def Value.fieldsFloats : List (String × Value) → List Float
  | [] => []
  | (_, value) :: fields => value.floats ++ Value.fieldsFloats fields

end

/-- All doubles of a list are finite. -/
def AllFinite (xs : List Float) : Prop :=
  ∀ x ∈ xs, Decimal.isFinite x = true

theorem allFinite_append {xs ys : List Float} :
    AllFinite (xs ++ ys) ↔ AllFinite xs ∧ AllFinite ys :=
  List.forall_mem_append

theorem Materializer.isNull_toJson {value : Value} (finite : AllFinite value.floats) :
    isNull value.toJson = true ↔ value = .null := by
  cases value with
  | float64 x =>
      have : Decimal.isFinite x = true := finite x (by simp [Value.floats])
      simp [Value.toJson, this, isNull]
  | struct i =>
      obtain ⟨name, fields, tagged⟩ := i
      simp [Value.toJson, Instance.toJson, isNull]
  | _ => simp [Value.toJson, Json.ofInt, isNull]

/-! ### Structs that fixtures can address -/

/-- A member of a fixture can address a field: its type has values, and if it refers to a struct,
the struct is defined. -/
structure FieldSpec.Addressable (r : Registry) (f : FieldSpec) : Prop where
  supported : ∀ raw, f.type ≠ .unsupported raw
  defined : ∀ name, f.type.structName? = some name → ∃ spec, r.find? name = some spec

/-- What the proofs need of a struct of a loaded message. -/
structure StructSpec.Regular (d : StructSpec) : Prop where
  flat : ∀ f ∈ d.fields, f.type.IsFlat
  names : d.fieldNames.Nodup

theorem StructSpec.field?_of_mem {d : StructSpec} (names : d.fieldNames.Nodup) {f : FieldSpec}
    (mem : f ∈ d.fields) : d.field? f.name = some f := by
  unfold fieldNames at names
  unfold field?
  generalize d.fields = fields at names mem
  induction fields with
  | nil => cases mem
  | cons g fields ih =>
      obtain ⟨new, names⟩ := List.nodup_cons.1 names
      rw [List.find?_cons]
      rcases List.mem_cons.1 mem with rfl | mem
      · simp
      · have differs : (g.name == f.name) = false := by
          simp only [beq_eq_false_iff_ne]
          intro same
          exact new (List.mem_map.2 ⟨f, mem, same.symm⟩)
        rw [differs]
        exact ih names mem

namespace Materializer

open Fixture (Node)

variable {m : Materializer}

/-- The instances that an instance of the message consists of, each with its struct: itself with the
top-level struct, and those nested in it with what the registry defines under their names. -/
inductive Occurs (m : Materializer) (i : Instance) : StructSpec → Instance → Prop where
  | root : Occurs m i m.message.struct i
  | nested {d : StructSpec} {j : Instance} (within : j.Within i)
      (found : m.registry.find? j.name = some d) : Occurs m i d j

/-- An instance can be written so that its fields are found again: no name of a field has a meaning
of its own as a key, and no scalar is null. -/
structure Plain (m : Materializer) (d : StructSpec) (j : Instance) : Prop where
  keys : ∀ name ∈ j.fieldNames, name ≠ unknownTaggedKey ∧ Fixture.synonym? name = none
  scalars : ∀ f ∈ d.fieldsAt m.version, f.type.isScalar = true → (f.name, Value.null) ∉ j.fields

/-- A fixture can give all fields of a struct. -/
structure Readable (m : Materializer) (d : StructSpec) : Prop where
  addressable : ∀ f ∈ d.fieldsAt m.version, f.Addressable m.registry
  hasDefault : ∃ i, m.defaultInstance d = .ok i

/-! ### Addressing fields -/

theorem ofField_succeeds_iff {r : Registry} {f : FieldSpec} :
    (∃ node, Node.ofField r f = .ok node) ↔
      ∀ name, f.type.structName? = some name → ∃ spec, r.find? name = some spec := by
  unfold Node.ofField Registry.findStruct
  cases target : f.type.structName? with
  | none => simp
  | some name => cases found : r.find? name <;> simp [found]

theorem ofField_of_findStruct {r : Registry} {f : FieldSpec} {spec : StructSpec} {node : Node}
    (found : r.findStruct f = .ok spec) (position : Node.ofField r f = .ok node) :
    node = .field f (some spec) := by
  have target := (Registry.findStruct_eq_ok.1 found).1
  simp only [Node.ofField, target, found, Except.ok.injEq] at position
  exact position.symm

/-- A declared name that is no synonym stands for its own field. -/
theorem select_name {node : Node} {d : StructSpec} (here : node.struct? = some d)
    (names : d.fieldNames.Nodup) {f : FieldSpec} (mem : f ∈ d.fieldsAt m.version)
    (plain : Fixture.synonym? f.name = none) {field : FieldSpec} {child : Node} :
    m.select node f.name = .ok (field, child) ↔
      field = f ∧ Node.ofField m.registry f = .ok child := by
  obtain ⟨listed, present⟩ := List.mem_filter.1 mem
  have known : f.name ∈ d.fieldNames := List.mem_map_of_mem listed
  have normal : Fixture.normalize node.knownNames f.name = .ok f.name := by
    simp [Fixture.normalize, Fixture.isKnown, plain, Node.knownNames, here, known]
  have looked : node.lookup f.name = .ok f := by
    simp [Node.lookup, Node.declared?, here, StructSpec.field?_of_mem names listed]
  rw [select_eq, normal]
  simp only [bind, Except.bind, looked]
  cases Node.ofField m.registry f with
  | error e => simp
  | ok node' => simp [present, eq_comm]

/-! ### One member -/

theorem setIn_append {name : String} {old value : Value} {done rest : List (String × Value)}
    (new : name ∉ done.map (·.1)) :
    Instance.setIn name value (done ++ (name, old) :: rest) = done ++ (name, value) :: rest := by
  induction done with
  | nil => simp [Instance.setIn]
  | cons entry done ih =>
      simp only [List.map_cons, List.mem_cons, not_or] at new
      simp [Instance.setIn, Ne.symm new.1, ih new.2]

theorem set_append {n name : String} {old value : Value} {done rest : List (String × Value)}
    {tagged : List TaggedField} (new : name ∉ done.map (·.1)) :
    Instance.set ⟨n, done ++ (name, old) :: rest, tagged⟩ name value =
      ⟨n, done ++ (name, value) :: rest, tagged⟩ := by
  simp [Instance.set, Instance.set?, Instance.fieldNames, setIn_append new]

/-- A default of a field: null if the field has that as its default. -/
def DefaultOf (v : Version) (f : FieldSpec) (entry : String × Value) : Prop :=
  entry.1 = f.name ∧
    (f.defaultText = some "null" → f.isNullableAt v = true → entry.2 = .null)

theorem defaultOf_of_defaultFields {path : List String} {fields : List FieldSpec}
    {values : List (String × Value)} (run : m.defaultFields path fields = .ok values) :
    List.Forall₂ (DefaultOf m.version) fields values := by
  refine (holdsDefault_of_defaultFields run).imp ?_
  rintro field ⟨name, value⟩ ⟨named, holds⟩
  refine ⟨named, fun default nullable => ?_⟩
  have given : m.declaredDefault field = .ok (some .null) := by
    simp [declaredDefault, default, nullable]
  cases holds with
  | value step =>
      cases obtained_of_defaultStep step with
      | declared given' => simpa [given] using given'.symm
      | zero absent => simp [given] at absent
      | cut => rfl
  | struct step =>
      cases obtained_of_defaultStep step with
      | inside absent => simp [given] at absent

/-- The member of a field replaces its default by its value. A null UUID is the exception: it leaves
the default as it is, which then is null as well. -/
theorem assigns_toJson {node child : Node} {f : FieldSpec} {value old : Value} {n : String}
    {done rest : List (String × Value)} {tagged : List TaggedField}
    (ordinary : f.name ≠ unknownTaggedKey) (selected : m.select node f.name = .ok (f, child))
    (supported : ∀ raw, f.type ≠ .unsupported raw) (new : f.name ∉ done.map (·.1))
    (default : DefaultOf m.version f (f.name, old)) (fits : value.FitsField m.registry m.version f)
    (scalar : f.type.isScalar = true → value ≠ .null) (finite : AllFinite value.floats)
    (converted : value ≠ .null → m.convert child f.type f.name value.toJson = .ok value) :
    m.Assigns node ⟨n, done ++ (f.name, old) :: rest, tagged⟩ (f.name, value.toJson)
      ⟨n, done ++ (f.name, value) :: rest, tagged⟩ := by
  have replaced : Instance.set ⟨n, done ++ (f.name, old) :: rest, tagged⟩ f.name value =
      ⟨n, done ++ (f.name, value) :: rest, tagged⟩ := set_append new
  by_cases null : value = .null
  · have written : isNull value.toJson = true := (isNull_toJson finite).2 null
    subst null
    cases type : f.type with
    | bool | int | float64 => exact absurd rfl (scalar (by rw [type]; rfl))
    | unsupported raw => exact absurd type (supported raw)
    | uuid =>
        have same : old = .null := by
          rcases fits with fits | ⟨-, declared, nullable⟩
          · rw [type] at fits
            cases fits with
            | null hasNull => cases hasNull
          · exact default.2 declared nullable
        rw [same]
        exact .keep ordinary selected written (by simp [nullField, type])
    | string | bytes | records | struct | array =>
        rw [← replaced]
        exact .null ordinary selected written (by simp [nullField, type])
  · have written : isNull value.toJson = false := by simpa using (isNull_toJson finite).not.2 null
    rw [← replaced]
    exact .value ordinary selected written (converted null)

/-! ### Unknown tagged fields -/

theorem readFrom_toJson (index : Nat) {tagged : List TaggedField}
    (tags : ∀ t ∈ tagged, 0 ≤ t.tag ∧ t.tag ≤ 2147483647) :
    TaggedField.readFrom index (tagged.map TaggedField.toJson) = .ok tagged := by
  induction tagged generalizing index with
  | nil => rfl
  | cons t tagged ih =>
      obtain ⟨⟨low, high⟩, tags⟩ := List.forall_mem_cons.1 tags
      have inRange : (Bounds.signed 32).contains t.tag = true := by
        simp [Bounds.signed_32, Bounds.contains]
        omega
      have wide : (Bounds.signed 64).contains t.tag = true := by
        simp [Bounds.signed_64, Bounds.contains]
        omega
      have parts : TaggedField.parts index t.toJson =
          .ok (.ofInt t.tag, .string (Hex.encode t.data)) := rfl
      have tag : TaggedField.readTag index (.ofInt t.tag) = .ok t.tag := by
        simp [TaggedField.readTag, Json.ofInt, Json.integer?, wide, low, inRange]
      have data : TaggedField.readData index (.string (Hex.encode t.data)) = .ok t.data := by
        simp [TaggedField.readData, Hex.decode_encode]
      simp [TaggedField.readFrom, parts, tag, data, ih _ tags, bind, Except.bind]

theorem assign_members {node : Node} {n : String} {fields : List (String × Value)}
    {tagged : List TaggedField} (tags : ∀ t ∈ tagged, 0 ≤ t.tag ∧ t.tag ≤ 2147483647) :
    m.assign node ⟨n, fields, []⟩ (TaggedField.members tagged) = .ok ⟨n, fields, tagged⟩ := by
  cases tagged with
  | nil => rfl
  | cons t tagged =>
      have read : readTagged (.array ((t :: tagged).map TaggedField.toJson)) =
          .ok (t :: tagged) := by
        rw [readTagged, TaggedField.read, TaggedField.readEntry, readFrom_toJson 0 tags]
      exact assign_cons.2 ⟨_, .tagged read, rfl⟩

/-! ### Values without parts -/

/-- The integers of every width are among those that a JSON value holds. -/
theorem integer?_ofInt {width : IntWidth} {n : Int} (inRange : width.bounds.contains n = true) :
    (Json.ofInt n).integer? = some n := by
  have wide : -9223372036854775808 ≤ width.bounds.low ∧
      width.bounds.high ≤ 9223372036854775807 := by
    cases width <;> decide
  have within : (Bounds.signed 64).contains n = true := by
    simp only [Bounds.contains, Bounds.signed_64, Bool.and_eq_true, decide_eq_true_eq] at inRange ⊢
    omega
  simp [Json.ofInt, Json.integer?, within]

theorem nullItem_of_hasNull {type : FieldType} {label : String} (h : type.hasNull = true) :
    m.nullItem type label = .ok .null := by
  cases type with
  | string | bytes | records | struct | array => rfl
  | _ => cases h

theorem convertItems_of_cons {node : Node} {element : FieldType} {label : String} {index : Nat}
    {item : Json} {items : List Json} {value : Value} {values : List Value}
    (first : m.convertItem node element (itemLabel label index) item = .ok value)
    (others : m.convertItems node element label (index + 1) items = .ok values) :
    m.convertItems node element label index (item :: items) = .ok (value :: values) := by
  unfold convertItem at first
  rw [convertItems]
  split at first <;> rename_i null <;>
    simp [null, bind, Except.bind, first, others]

/-! ### Reading back -/

mutual

/-- A value is read back from its JSON form at the field where it stands. -/
theorem convert_toJson (regular : ∀ d ∈ m.registry.definitions, d.Regular) :
    ∀ (value : Value) {node : Node} {field : FieldSpec} {type : FieldType} {label : String},
      Node.ofField m.registry field = .ok node → field.type.IsFlat →
      type = field.type ∨ field.type = .array type →
      value.Fits m.registry m.version field type → value ≠ .null → AllFinite value.floats →
      m.Nested (fun d j => m.Plain d j ∧ m.Readable d) value →
      m.convert node type label value.toJson = .ok value
  | .null, _, _, _, _, _, _, _, _, notNull, _, _ => absurd rfl notNull
  | .bool b, _, _, _, _, _, _, _, fits, _, _, _ => by
      cases fits
      simp [Value.toJson, convert, convertLeaf]
  | .int width n, _, _, _, _, _, _, _, fits, _, _, _ => by
      cases fits with
      | int inRange =>
          have read := integer?_ofInt inRange
          simp only [Json.ofInt] at read
          simp [Value.toJson, Json.ofInt, convert, convertLeaf, convertInteger, locate, read,
            inRange]
  | .float64 x, _, _, _, _, _, _, _, fits, _, finite, _ => by
      cases fits
      have : Decimal.isFinite x = true := finite x (by simp [Value.floats])
      simp [Value.toJson, this, convert, convertLeaf, convertFloat, locate]
  | .string s, _, _, _, _, _, _, _, fits, _, _, _ => by
      cases fits
      simp [Value.toJson, convert, convertLeaf]
  | .bytes data, _, _, _, _, _, _, _, fits, _, _, _ => by
      cases fits
      simp [Value.toJson, convert, convertLeaf, convertHex, Hex.decode_encode, locate, Except.map]
  | .uuid u, _, _, _, _, _, _, _, fits, _, _, _ => by
      cases fits
      simp [Value.toJson, convert, convertLeaf, convertUuid, Uuid.read_toText, locate]
  | .records data, _, _, _, _, _, _, _, fits, _, _, _ => by
      cases fits
      simp [Value.toJson, convert, convertLeaf, convertHex, Hex.decode_encode, locate, Except.map]
  | .struct ⟨name, fields, tagged⟩, node, field, type, label, position, _, _, fits, _, finite,
      nested => by
      cases fits with
      | @struct _ _ spec _ found conforms =>
          obtain rfl := ofField_of_findStruct found position
          have defined := (Registry.findStruct_eq_ok.1 found).2
          obtain ⟨here, inner⟩ := nested_struct.1 nested
          obtain ⟨plain, readable⟩ := here spec (by rw [conforms.name]; exact defined)
          obtain ⟨defaults, built⟩ := readable.hasDefault
          have run : m.assign (.field field (some spec)) defaults
              (Value.fieldsToJson fields ++ TaggedField.members tagged) = .ok _ :=
            assign_toJson regular ⟨name, fields, tagged⟩ rfl
              (regular spec (Registry.mem_of_find? defined)) readable plain conforms built finite
              inner
          rw [Value.toJson, Instance.toJson, convert]
          exact Outcome.bind_eq_ok.2 ⟨defaults, built, Outcome.bind_eq_ok.2 ⟨_, run, rfl⟩⟩
  | .array items, node, field, type, label, position, flat, typed, fits, _, finite, nested => by
      cases fits with
      | @array _ element _ each =>
          -- The elements of a flat type are no arrays, so this is the type of the field.
          have type : field.type = .array element := by
            rcases typed with same | inside
            · exact same.symm
            · cases flat _ inside
          have run : m.convertItems node element label 0 (Value.itemsToJson items) = .ok items :=
            convertItems_toJson regular items position flat type each finite (nested_array.1 nested)
          simp only [Value.toJson, convert, element?_of_ofField position type]
          exact Outcome.bind_eq_ok.2 ⟨items, run, rfl⟩

/-- The items of an array are read back. -/
theorem convertItems_toJson (regular : ∀ d ∈ m.registry.definitions, d.Regular) :
    ∀ (items : List Value) {node : Node} {field : FieldSpec} {element : FieldType} {label : String}
      {index : Nat}, Node.ofField m.registry field = .ok node → field.type.IsFlat →
      field.type = .array element →
      (∀ item ∈ items, item.Fits m.registry m.version field element) →
      AllFinite (Value.itemsFloats items) →
      (∀ item ∈ items, m.Nested (fun d j => m.Plain d j ∧ m.Readable d) item) →
      m.convertItems node element label index (Value.itemsToJson items) = .ok items
  | [], _, _, _, _, _, _, _, _, _, _, _ => by rw [Value.itemsToJson, convertItems]
  | item :: items, node, field, element, label, index, position, flat, type, each, finite,
      nested => by
      obtain ⟨fits, each⟩ := List.forall_mem_cons.1 each
      obtain ⟨finite, finites⟩ := allFinite_append.1 finite
      obtain ⟨here, nested⟩ := List.forall_mem_cons.1 nested
      refine convertItems_of_cons ?_
        (convertItems_toJson regular items position flat type each finites nested)
      unfold convertItem
      by_cases null : item = .null
      · rw [if_pos ((isNull_toJson finite).2 null)]
        subst null
        cases fits with
        | null hasNull => exact nullItem_of_hasNull hasNull
      · rw [if_neg ((isNull_toJson finite).not.2 null)]
        exact convert_toJson regular item position flat (.inr type) fits null finite here

/-- An instance is read back from its JSON form, on top of the defaults of its struct. -/
theorem assign_toJson (regular : ∀ d ∈ m.registry.definitions, d.Regular) :
    ∀ (i : Instance) {node : Node} {d : StructSpec} {defaults : Instance},
      node.struct? = some d → d.Regular → m.Readable d → m.Plain d i →
      i.Conforms m.registry m.version d → m.defaultInstance d = .ok defaults →
      AllFinite i.floats →
      (∀ entry ∈ i.fields, m.Nested (fun d j => m.Plain d j ∧ m.Readable d) entry.2) →
      m.assign node defaults
        (Value.fieldsToJson i.fields ++ TaggedField.members i.unknownTagged) = .ok i
  | ⟨name, fields, tagged⟩, node, d, defaults, here, regularHere, readable, plain, conforms, built,
      finite, nested => by
      obtain ⟨values, hvalues, rfl⟩ := defaultInstance_eq_ok.1 built
      cases conforms with
      | mk each tags =>
          have names : ((d.fieldsAt m.version).map (·.name)).Nodup :=
            regularHere.names.sublist (List.filter_sublist.map _)
          show m.assign node ⟨d.name, [] ++ values, []⟩ _ = _
          refine assign_fieldsToJson regular fields here regularHere
            (fun f mem => ⟨mem, readable.addressable f mem⟩) names each
            (defaultOf_of_defaultFields hvalues) ?_ plain.scalars finite nested
            (assign_members tags)
          intro entry mem
          exact plain.keys entry.1 (List.mem_map_of_mem mem)

/-- The fields of an instance are read back one after the other: those `done` have their values, the
others their defaults. -/
theorem assign_fieldsToJson (regular : ∀ d ∈ m.registry.definitions, d.Regular) :
    ∀ (values : List (String × Value)) {node : Node} {d : StructSpec} {fs : List FieldSpec}
      {done defaults : List (String × Value)} {n : String} {more : List (String × Json)}
      {out : Instance}, node.struct? = some d → d.Regular →
      (∀ f ∈ fs, f ∈ d.fieldsAt m.version ∧ f.Addressable m.registry) →
      (done.map (·.1) ++ fs.map (·.name)).Nodup →
      Instance.FieldsFit m.registry m.version fs values →
      List.Forall₂ (DefaultOf m.version) fs defaults →
      (∀ entry ∈ values, entry.1 ≠ unknownTaggedKey ∧ Fixture.synonym? entry.1 = none) →
      (∀ f ∈ fs, f.type.isScalar = true → (f.name, Value.null) ∉ values) →
      AllFinite (Value.fieldsFloats values) →
      (∀ entry ∈ values, m.Nested (fun d j => m.Plain d j ∧ m.Readable d) entry.2) →
      m.assign node ⟨n, done ++ values, []⟩ more = .ok out →
      m.assign node ⟨n, done ++ defaults, []⟩ (Value.fieldsToJson values ++ more) = .ok out
  | [], _, _, fs, _, defaults, _, _, _, _, _, _, _, each, default, _, _, _, _, run => by
      cases each
      cases default
      exact run
  | (name, value) :: values, node, d, fs, done, defaults, n, more, out, here, regularHere, inside,
      new, each, default, keys, scalars, finite, nested, run => by
      cases default with
      | nil => cases each
      | @cons f entry fs defaults default others =>
          obtain ⟨_, _, same, fits, each⟩ := Instance.fieldsFit_cons each
          cases same
          obtain ⟨_, old⟩ := entry
          obtain rfl : _ = f.name := default.1
          obtain ⟨⟨mem, addressable⟩, inside⟩ := List.forall_mem_cons.1 inside
          obtain ⟨key, keys⟩ := List.forall_mem_cons.1 keys
          obtain ⟨scalar, scalars⟩ := List.forall_mem_cons.1 scalars
          obtain ⟨finite, finites⟩ := allFinite_append.1 finite
          obtain ⟨nestedHere, nested⟩ := List.forall_mem_cons.1 nested
          obtain ⟨child, position⟩ := ofField_succeeds_iff.2 addressable.defined
          have selected := (select_name here regularHere.names mem key.2).2 ⟨rfl, position⟩
          have flat := regularHere.flat f (List.mem_filter.1 mem).1
          have fresh : f.name ∉ done.map (·.1) := by
            intro listed
            exact (List.nodup_append.1 new).2.2 _ listed _ (List.mem_cons_self ..) rfl
          have step : m.Assigns node ⟨n, done ++ (f.name, old) :: defaults, []⟩
              (f.name, value.toJson) ⟨n, done ++ (f.name, value) :: defaults, []⟩ := by
            refine assigns_toJson key.1 selected addressable.supported fresh default fits ?_ finite
              ?_
            · intro isScalar null
              exact scalar isScalar (null ▸ List.mem_cons_self ..)
            · intro notNull
              exact convert_toJson regular value position flat (.inl rfl)
                (fits.resolve_right fun h => notNull h.1) notNull finite nestedHere
          refine assign_cons.2 ⟨_, step, ?_⟩
          rw [List.append_cons] at run ⊢
          refine assign_fieldsToJson regular values here regularHere inside ?_ each others keys
            (fun f mem isScalar listed => scalars f mem isScalar (List.mem_cons_of_mem _ listed))
            finites nested run
          simpa using new

end

/-! ### What reading back shows -/

theorem convert_unsupported {node : Node} {raw label : String} {json : Json} {value : Value} :
    m.convert node (.unsupported raw) label json ≠ .ok value := by
  cases json <;> simp [convert, convertLeaf]

/-- A member that was accepted for a field shows that the field can be addressed. -/
theorem addressable_of_assigns {node : Node} {d : StructSpec} {f : FieldSpec} {json : Json}
    {i next : Instance} (here : node.struct? = some d) (names : d.fieldNames.Nodup)
    (mem : f ∈ d.fieldsAt m.version)
    (key : f.name ≠ unknownTaggedKey ∧ Fixture.synonym? f.name = none)
    (step : m.Assigns node i (f.name, json) next) :
    f.Addressable m.registry ∧
      (isNull json = true ∨ ∃ child value, Node.ofField m.registry f = .ok child ∧
        m.convert child f.type f.name json = .ok value) := by
  have reached : ∀ {field : FieldSpec} {child : Node}, m.select node f.name = .ok (field, child) →
      field = f ∧ Node.ofField m.registry f = .ok child :=
    fun selected => (select_name here names mem key.2).1 selected
  have defined : ∀ {child : Node}, Node.ofField m.registry f = .ok child →
      ∀ name, f.type.structName? = some name → ∃ spec, m.registry.find? name = some spec :=
    fun position => ofField_succeeds_iff.1 ⟨_, position⟩
  generalize same : (f.name, json) = member at step
  cases step with
  | tagged => exact absurd (congrArg Prod.fst same) key.1
  | keep _ selected null kept =>
      cases same
      obtain ⟨rfl, position⟩ := reached selected
      refine ⟨⟨?_, defined position⟩, .inl null⟩
      intro raw type
      simp [nullField, type] at kept
  | null _ selected null taken =>
      cases same
      obtain ⟨rfl, position⟩ := reached selected
      refine ⟨⟨?_, defined position⟩, .inl null⟩
      intro raw type
      simp [nullField, type] at taken
  | value _ selected _ converted =>
      cases same
      obtain ⟨rfl, position⟩ := reached selected
      refine ⟨⟨?_, defined position⟩, .inr ⟨_, _, position, converted⟩⟩
      intro raw type
      rw [type] at converted
      exact convert_unsupported converted

mutual

/-- If the JSON form of a value can be read, the structs of the instances in it are readable. -/
theorem readable_of_convert (regular : ∀ d ∈ m.registry.definitions, d.Regular) :
    ∀ (value : Value) {node : Node} {field : FieldSpec} {type : FieldType} {label : String}
      {result : Value}, Node.ofField m.registry field = .ok node → field.type.IsFlat →
      type = field.type ∨ field.type = .array type →
      value.Fits m.registry m.version field type → AllFinite value.floats → m.Nested m.Plain value →
      m.convert node type label value.toJson = .ok result →
      m.Nested (fun d _ => m.Readable d) value
  | .struct ⟨name, fields, tagged⟩, node, field, type, label, result, position, _, _, fits, finite,
      plain, run => by
      cases fits with
      | @struct _ _ spec _ found conforms =>
          obtain rfl := ofField_of_findStruct found position
          have defined : m.registry.find? spec.name = some spec :=
            (Registry.findStruct_eq_ok.1 found).2
          obtain ⟨plainHere, plain⟩ := nested_struct.1 plain
          rw [Value.toJson, Instance.toJson, convert] at run
          obtain ⟨defaults, built, run⟩ := Outcome.bind_eq_ok.1 run
          obtain ⟨i, assigned, -⟩ := Outcome.bind_eq_ok.1 run
          obtain ⟨addressable, inner⟩ := readable_of_assign regular ⟨name, fields, tagged⟩ rfl
            (regular spec (Registry.mem_of_find? defined))
            (plainHere spec (by rw [conforms.name]; exact defined)) conforms finite plain assigned
          refine nested_struct.2 ⟨?_, inner⟩
          intro d found'
          rw [conforms.name, defined] at found'
          cases found'
          exact ⟨addressable, defaults, built⟩
  | .array items, node, field, type, label, result, position, flat, typed, fits, finite, plain,
      run => by
      cases fits with
      | @array _ element _ each =>
          have type : field.type = .array element := by
            rcases typed with same | inside
            · exact same.symm
            · cases flat _ inside
          simp only [Value.toJson, convert, element?_of_ofField position type] at run
          obtain ⟨values, run, -⟩ := Outcome.bind_eq_ok.1 run
          exact nested_array.2 (readable_of_convertItems regular items position flat type each
            finite (nested_array.1 plain) run)
  | .null, _, _, _, _, _, _, _, _, _, _, _, _ => by rintro j ⟨⟩
  | .bool _, _, _, _, _, _, _, _, _, _, _, _, _ => by rintro j ⟨⟩
  | .int _ _, _, _, _, _, _, _, _, _, _, _, _, _ => by rintro j ⟨⟩
  | .float64 _, _, _, _, _, _, _, _, _, _, _, _, _ => by rintro j ⟨⟩
  | .string _, _, _, _, _, _, _, _, _, _, _, _, _ => by rintro j ⟨⟩
  | .bytes _, _, _, _, _, _, _, _, _, _, _, _, _ => by rintro j ⟨⟩
  | .uuid _, _, _, _, _, _, _, _, _, _, _, _, _ => by rintro j ⟨⟩
  | .records _, _, _, _, _, _, _, _, _, _, _, _, _ => by rintro j ⟨⟩

theorem readable_of_convertItems (regular : ∀ d ∈ m.registry.definitions, d.Regular) :
    ∀ (items : List Value) {node : Node} {field : FieldSpec} {element : FieldType} {label : String}
      {index : Nat} {results : List Value}, Node.ofField m.registry field = .ok node →
      field.type.IsFlat → field.type = .array element →
      (∀ item ∈ items, item.Fits m.registry m.version field element) →
      AllFinite (Value.itemsFloats items) → (∀ item ∈ items, m.Nested m.Plain item) →
      m.convertItems node element label index (Value.itemsToJson items) = .ok results →
      ∀ item ∈ items, m.Nested (fun d _ => m.Readable d) item
  | [], _, _, _, _, _, _, _, _, _, _, _, _, _ => fun _ mem => nomatch mem
  | item :: items, node, field, element, label, index, results, position, flat, type, each, finite,
      plain, run => by
      obtain ⟨fits, each⟩ := List.forall_mem_cons.1 each
      obtain ⟨finite, finites⟩ := allFinite_append.1 finite
      obtain ⟨plainHere, plain⟩ := List.forall_mem_cons.1 plain
      obtain ⟨result, others, rfl, first, rest⟩ := convertItems_cons run
      refine List.forall_mem_cons.2 ⟨?_,
        readable_of_convertItems regular items position flat type each finites plain rest⟩
      unfold convertItem at first
      split at first
      · rename_i null
        rw [(isNull_toJson finite).1 null]
        rintro j ⟨⟩
      · exact readable_of_convert regular item position flat (.inr type) fits finite plainHere first

theorem readable_of_assign (regular : ∀ d ∈ m.registry.definitions, d.Regular) :
    ∀ (i : Instance) {node : Node} {d : StructSpec} {start out : Instance},
      node.struct? = some d → d.Regular → m.Plain d i → i.Conforms m.registry m.version d →
      AllFinite i.floats → (∀ entry ∈ i.fields, m.Nested m.Plain entry.2) →
      m.assign node start
        (Value.fieldsToJson i.fields ++ TaggedField.members i.unknownTagged) = .ok out →
      (∀ f ∈ d.fieldsAt m.version, f.Addressable m.registry) ∧
        ∀ entry ∈ i.fields, m.Nested (fun d _ => m.Readable d) entry.2
  | ⟨name, fields, tagged⟩, node, d, start, out, here, regularHere, plainHere, conforms, finite,
      plain, run => by
      cases conforms with
      | mk each _ =>
          refine readable_of_fields regular fields here regularHere (fun _ mem => mem) each ?_
            finite plain run
          intro entry mem
          exact plainHere.keys entry.1 (List.mem_map_of_mem mem)

theorem readable_of_fields (regular : ∀ d ∈ m.registry.definitions, d.Regular) :
    ∀ (values : List (String × Value)) {node : Node} {d : StructSpec} {fs : List FieldSpec}
      {start out : Instance} {more : List (String × Json)}, node.struct? = some d → d.Regular →
      (∀ f ∈ fs, f ∈ d.fieldsAt m.version) → Instance.FieldsFit m.registry m.version fs values →
      (∀ entry ∈ values, entry.1 ≠ unknownTaggedKey ∧ Fixture.synonym? entry.1 = none) →
      AllFinite (Value.fieldsFloats values) → (∀ entry ∈ values, m.Nested m.Plain entry.2) →
      m.assign node start (Value.fieldsToJson values ++ more) = .ok out →
      (∀ f ∈ fs, f.Addressable m.registry) ∧
        ∀ entry ∈ values, m.Nested (fun d _ => m.Readable d) entry.2
  | [], _, _, fs, _, _, _, _, _, _, each, _, _, _, _ => by
      cases each
      exact ⟨fun _ mem => (nomatch mem), fun _ mem => (nomatch mem)⟩
  | (name, value) :: values, node, d, fs, start, out, more, here, regularHere, inside, each, keys,
      finite, plain, run => by
      cases fs with
      | nil => cases each
      | cons f fs =>
          obtain ⟨_, _, same, fits, each⟩ := Instance.fieldsFit_cons each
          cases same
          obtain ⟨mem, inside⟩ := List.forall_mem_cons.1 inside
          obtain ⟨key, keys⟩ := List.forall_mem_cons.1 keys
          obtain ⟨finite, finites⟩ := allFinite_append.1 finite
          obtain ⟨plainHere, plain⟩ := List.forall_mem_cons.1 plain
          obtain ⟨next, step, run⟩ := assign_cons.1 run
          obtain ⟨addressable, read⟩ :=
            addressable_of_assigns here regularHere.names mem key step
          obtain ⟨others, inner⟩ :=
            readable_of_fields regular values here regularHere inside each keys finites plain run
          refine ⟨List.forall_mem_cons.2 ⟨addressable, others⟩,
            List.forall_mem_cons.2 ⟨?_, inner⟩⟩
          by_cases null : value = .null
          · rw [null]
            rintro j ⟨⟩
          · obtain ⟨child, result, position, converted⟩ :=
              read.resolve_left ((isNull_toJson finite).not.2 null)
            exact readable_of_convert regular value position
              (regularHere.flat f (List.mem_filter.1 mem).1) (.inl rfl)
              (fits.resolve_right fun h => null h.1) finite plainHere converted

end

end Materializer

/-! ### Loaded messages -/

theorem MessageSpec.regular_of_load {text : String} {message : MessageSpec}
    (loaded : MessageSpec.load text = .ok message) {d : StructSpec} (has : message.HasStruct d) :
    d.Regular :=
  ⟨fun _ mem => isFlat_of_load loaded has mem, (exists_records loaded has).fieldNames_nodup⟩

theorem Instance.toJson_eq (i : Instance) :
    i.toJson = .object (Value.fieldsToJson i.fields ++ TaggedField.members i.unknownTagged) := by
  obtain ⟨name, fields, tagged⟩ := i
  rw [toJson]

namespace Materializer

variable {m : Materializer} {i : Instance}

theorem forall_occurs_iff {P : StructSpec → Instance → Prop} :
    (∀ d j, m.Occurs i d j → P d j) ↔
      P m.message.struct i ∧ ∀ entry ∈ i.fields, m.Nested P entry.2 := by
  constructor
  · intro h
    refine ⟨h _ _ .root, ?_⟩
    intro entry mem j inside d found
    exact h d j (.nested ⟨entry, mem, inside⟩ found)
  · intro h d j occurs
    cases occurs with
    | root => exact h.1
    | nested within found =>
        obtain ⟨entry, mem, inside⟩ := within
        exact h.2 entry mem j inside d found

theorem defaultInstance_of_materializeRoot {fixture : Json}
    (run : m.materializeRoot fixture = .ok i) :
    ∃ defaults, m.defaultInstance m.message.struct = .ok defaults := by
  obtain ⟨-, defaults, -, built, -⟩ := materializeRoot_eq_ok.1 run
  exact ⟨defaults, built⟩

section

variable (regular : ∀ d ∈ m.registry.definitions, d.Regular) (root : m.message.struct.Regular)
  (conforms : i.Conforms m.registry m.version m.message.struct) (finite : AllFinite i.floats)
  (plain : ∀ d j, m.Occurs i d j → m.Plain d j)

include regular root conforms finite plain

theorem read_back_of_readable (readable : ∀ d j, m.Occurs i d j → m.Readable d) :
    m.materializeRoot i.toJson = .ok i := by
  obtain ⟨defaults, built⟩ := (readable _ _ .root).hasDefault
  obtain ⟨⟨plainRoot, readableRoot⟩, inner⟩ := forall_occurs_iff.1
    fun d j occurs => And.intro (plain d j occurs) (readable d j occurs)
  rw [Instance.toJson_eq]
  exact materializeRoot_eq_ok.2 ⟨_, defaults, rfl, built,
    assign_toJson regular i rfl root readableRoot plainRoot conforms built finite inner⟩

theorem readable_of_read_back (again : m.materializeRoot i.toJson = .ok i) :
    ∀ d j, m.Occurs i d j → m.Readable d := by
  obtain ⟨plainRoot, plainInner⟩ := forall_occurs_iff.1 plain
  rw [Instance.toJson_eq, materializeRoot_object] at again
  obtain ⟨defaults, built, assigned⟩ := Outcome.bind_eq_ok.1 again
  obtain ⟨addressable, inner⟩ :=
    readable_of_assign regular i rfl root plainRoot conforms finite plainInner assigned
  exact forall_occurs_iff.2 ⟨⟨addressable, defaults, built⟩, inner⟩

end

theorem readable_of_addressable {fixture : Json} (run : m.materializeRoot fixture = .ok i)
    (homonym : ∀ d, m.registry.find? m.message.struct.name = some d →
      ∃ k, m.defaultInstance d = .ok k)
    (addressable : ∀ d j, m.Occurs i d j → ∀ f ∈ d.fieldsAt m.version, f.Addressable m.registry) :
    ∀ d j, m.Occurs i d j → m.Readable d := by
  have grounded := grounded_of_materializeRoot run
    (fun j within d found f mem => (addressable d j (.nested within found) f mem).defined) homonym
  intro d j occurs
  refine ⟨addressable d j occurs, ?_⟩
  cases occurs with
  | root => exact defaultInstance_of_materializeRoot run
  | nested within found =>
      obtain ⟨entry, mem, inside⟩ := within
      exact (grounded entry mem j inside d found).defaultInstance

end Materializer

/-- **Reading back.** Take an instance that a fixture was turned into, such that no name of a field
in it is the reserved key or a synonym, no scalar field is null, and all doubles are finite. Its
JSON form, read as a fixture for the same message and version, gives the instance back if and only
if the structs of all instances in it are readable: each of their fields at the version can be
addressed, and the struct has a default instance. The latter need not be asked for, unless the
registry has a struct without default instance under the name of the message. -/
theorem read_back_iff_readable {text : String} {message : MessageSpec} {r : Registry} {v : Version}
    {m : Materializer} {fixture : Json} {i : Instance}
    (loaded : MessageSpec.load text = .ok message)
    (registered : Registry.ofMessage message = .ok r)
    (valid : Materializer.new message r v = .ok m) (run : m.materializeRoot fixture = .ok i)
    (keys : ∀ j, j = i ∨ j.Within i → ∀ name ∈ j.fieldNames,
      name ≠ unknownTaggedKey ∧ Fixture.synonym? name = none)
    (scalars : ∀ d j, m.Occurs i d j → ∀ f ∈ d.fieldsAt v, f.type.isScalar = true →
      (f.name, Value.null) ∉ j.fields)
    (finite : ∀ x ∈ i.floats, Decimal.isFinite x = true) :
    (m.materializeRoot i.toJson = .ok i ↔ ∀ d j, m.Occurs i d j → m.Readable d) ∧
    ((∀ d, r.find? message.struct.name = some d → ∃ k, m.defaultInstance d = .ok k) →
      (∀ d j, m.Occurs i d j → ∀ f ∈ d.fieldsAt v, f.Addressable r) →
      m.materializeRoot i.toJson = .ok i) := by
  have conforms := conforms_of_load loaded registered valid run
  obtain rfl := new_eq_ok valid
  have root : message.struct.Regular := MessageSpec.regular_of_load loaded (.inl rfl)
  have regular : ∀ d ∈ r.definitions, d.Regular := fun d mem => MessageSpec.regular_of_load loaded
    (MessageSpec.hasStruct_of_met (Registry.met_of_mem_definitions registered mem))
  have plain : ∀ d j, Materializer.Occurs ⟨message, r, v⟩ i d j →
      Materializer.Plain ⟨message, r, v⟩ d j := by
    intro d j occurs
    refine ⟨keys j ?_, scalars d j occurs⟩
    cases occurs with
    | root => exact .inl rfl
    | nested within _ => exact .inr within
  have back := Materializer.read_back_of_readable regular root conforms finite plain
  refine ⟨⟨Materializer.readable_of_read_back regular root conforms finite plain, back⟩, ?_⟩
  intro homonym addressable
  exact back (Materializer.readable_of_addressable run homonym addressable)

namespace Sample

theorem spec_of_occurs {d : StructSpec} {i j : Instance}
    (occurs : journalMaterializer.Occurs i d j) : d = journal.struct ∨ d = entry := by
  cases occurs with
  | root => exact .inl rfl
  | nested _ found => exact .inr (List.mem_singleton.1 (Registry.mem_of_find? found))

theorem journal_addressable {d : StructSpec} (h : d = journal.struct ∨ d = entry) :
    ∀ f ∈ d.fieldsAt 1, f.Addressable journalRegistry := by
  have checked : ∀ f ∈ d.fieldsAt 1, (∀ raw, f.type ≠ .unsupported raw) ∧
      (f.type.structName? = none ∨ f.type.structName? = some "Entry") := by
    rcases h with rfl | rfl <;> simp [StructSpec.fieldsAt, journal, entry, FieldType.structName?]
  intro f mem
  obtain ⟨supported, target⟩ := checked f mem
  refine ⟨supported, ?_⟩
  intro name same
  rcases target with none | some
  · rw [none] at same
    cases same
  · rw [some] at same
    cases same
    exact ⟨entry, rfl⟩

/-- The instance of the sample is read back, with the struct inside its own kind and the nulls at
the end of the recursion. -/
theorem journal_read_back :
    MessageSpec.load journalText = .ok journal ∧
      Registry.ofMessage journal = .ok journalRegistry ∧
      Materializer.new journal journalRegistry 1 = .ok journalMaterializer ∧
      journalMaterializer.materializeRoot journalFixture = .ok journalInstance ∧
      journalMaterializer.materializeRoot journalInstance.toJson = .ok journalInstance := by
  have valid : Materializer.new journal journalRegistry 1 = .ok journalMaterializer := rfl
  refine ⟨load_journalText, ofMessage_journal, valid, materializeRoot_journal, ?_⟩
  have conforms : journalInstance.Conforms journalRegistry 1 journal.struct :=
    conforms_of_load load_journalText ofMessage_journal valid materializeRoot_journal
  have keys : ∀ d, d = journal.struct ∨ d = entry → ∀ name ∈ (d.fieldsAt 1).map (·.name),
      name ≠ unknownTaggedKey ∧ Fixture.synonym? name = none := by
    rintro d (rfl | rfl) <;> decide
  have scalars : ∀ d, d = journal.struct ∨ d = entry → ∀ f ∈ d.fieldsAt 1,
      f.type.isScalar = false := by
    rintro d (rfl | rfl) <;> decide
  refine (read_back_iff_readable load_journalText ofMessage_journal valid materializeRoot_journal
    ?_ ?_ ?_).2 ?_ ?_
  · rintro j (rfl | within)
    · exact keys _ (.inl rfl)
    · obtain ⟨d, found, hd⟩ := within.conforms conforms
      rw [hd.fieldNames]
      exact keys d (.inr (List.mem_singleton.1 (Registry.mem_of_find? found)))
  · intro d j occurs f mem isScalar
    rw [scalars d (spec_of_occurs occurs) f mem] at isScalar
    cases isScalar
  · intro x mem
    cases mem
  · intro d found
    cases found
  · intro d j occurs
    exact journal_addressable (spec_of_occurs occurs)

/-- A message with an array of a struct that is defined nowhere. -/
def shelfText : String :=
  "\x7b\"name\":\"Shelf\",\"validVersions\":\"0\",\"fields\":[
    \x7b\"name\":\"Items\",\"type\":\"[]Ghost\",\"versions\":\"0+\"\x7d]\x7d"

def shelfItems : FieldSpec :=
  ⟨"Items", .array (.struct "Ghost"), ⟨0, 0⟩, none, none, .none, none, none, none⟩

def shelf : MessageSpec where
  name := "Shelf"
  apiKey := none
  role := .data
  validVersions := ⟨0, 0⟩
  flexibleVersions := .none
  struct := ⟨"Shelf", ⟨0, 0⟩, [shelfItems]⟩
  commonStructs := []

def shelfRegistry : Registry where
  definitions := []
  firstSites := [("Ghost", ⟨"Shelf", "Shelf", "Items"⟩)]
  visited := [⟨"Shelf", "Shelf", "Items"⟩]
  common := []
  distinct := by decide

def shelfInstance : Instance := ⟨"Shelf", [("Items", .array [])], []⟩

theorem load_shelfText : MessageSpec.load shelfText = .ok shelf :=
  MessageSpec.load_of_tokens (by cbv) rfl rfl rfl

theorem materializeRoot_shelf :
    Materializer.materializeRoot ⟨shelf, shelfRegistry, 0⟩ (.object []) = .ok shelfInstance := by
  have default : Materializer.defaultInstance ⟨shelf, shelfRegistry, 0⟩ shelf.struct =
      .ok shelfInstance := by cbv
  exact Materializer.materializeRoot_eq_ok.2 ⟨_, _, rfl, default, rfl⟩

/-- The default of the array is empty and needs no struct; but a fixture that gives the empty array
is refused. -/
theorem undefined_struct_not_read_back :
    ¬ ∀ (text : String) (message : MessageSpec) (r : Registry) (v : Version) (m : Materializer)
        (fixture : Json) (i : Instance), MessageSpec.load text = .ok message →
      Registry.ofMessage message = .ok r → Materializer.new message r v = .ok m →
      m.materializeRoot fixture = .ok i →
      (∀ j, j = i ∨ j.Within i → ∀ name ∈ j.fieldNames,
        name ≠ unknownTaggedKey ∧ Fixture.synonym? name = none) →
      (∀ d j, m.Occurs i d j → ∀ f ∈ d.fieldsAt v, f.type.isScalar = true →
        (f.name, Value.null) ∉ j.fields) →
      (∀ x ∈ i.floats, Decimal.isFinite x = true) → m.materializeRoot i.toJson = .ok i := by
  intro readBack
  have alone : ∀ j : Instance, ¬ j.Within shelfInstance := by
    rintro j ⟨entry, mem, inside⟩
    rw [List.mem_singleton.1 mem] at inside
    cases inside with
    | item mem => cases mem
  have again := readBack shelfText shelf shelfRegistry 0 ⟨shelf, shelfRegistry, 0⟩ (.object [])
    shelfInstance load_shelfText rfl rfl materializeRoot_shelf
    (by
      rintro j (rfl | within)
      · decide
      · exact absurd within (alone j))
    (by
      intro d j occurs
      cases occurs with
      | root =>
          intro f mem isScalar
          rw [List.mem_singleton.1 mem] at isScalar
          cases isScalar
      | nested within => exact absurd within (alone j))
    (fun x mem => nomatch mem)
  rw [Instance.toJson_eq, Materializer.materializeRoot_object] at again
  obtain ⟨defaults, -, assigned⟩ := Outcome.bind_eq_ok.1 again
  obtain ⟨next, step, -⟩ := Materializer.assign_cons.1 assigned
  have names : shelf.struct.fieldNames.Nodup := by decide
  have listed : shelfItems ∈ shelf.struct.fieldsAt 0 := List.mem_singleton.2 rfl
  have key : shelfItems.name ≠ unknownTaggedKey ∧ Fixture.synonym? shelfItems.name = none := by
    decide
  obtain ⟨addressable, -⟩ := Materializer.addressable_of_assigns rfl names listed key step
  obtain ⟨spec, found⟩ := addressable.defined "Ghost" rfl
  cases found

end Sample

end WireSchema
