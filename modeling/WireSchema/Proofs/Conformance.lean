import WireSchema.Fixture.Materialize
import WireSchema.Proofs.Definitions

/-!
# Instances conform to their schema

Every instance that a fixture is turned into has, at every depth, the fields of its struct at the
version, in order, and in each a value of the declared type. Values come from three sources:
declared defaults, zero values, and the fixture. For each of them there is a lemma that its values
fit, and the recursions over structs and over the fixture only put fitting values together.

The one place where the proof needs the loader is an array field: a fixture's array is read with the
element type of the *field*, which is the type at hand because arrays are never nested
(`FieldType.IsFlat`).
-/

namespace WireSchema

/-! ### What it means to conform -/

/-- The types that have null among their values. -/
def FieldType.hasNull : FieldType → Bool
  | .string | .bytes | .records | .struct _ | .array _ => true
  | _ => false

mutual

/-- A value fits a type. It stands at a field, or in the array of the field: a struct is the one
that the field refers to. -/
inductive Value.Fits (r : Registry) (v : Version) : FieldSpec → FieldType → Value → Prop where
  | null {field : FieldSpec} {type : FieldType} (hasNull : type.hasNull = true) :
      Value.Fits r v field type .null
  | bool {field : FieldSpec} (b : Bool) : Value.Fits r v field .bool (.bool b)
  | int {field : FieldSpec} {width : IntWidth} {n : Int}
      (inRange : width.bounds.contains n = true) :
      Value.Fits r v field (.int width) (.int width n)
  | float64 {field : FieldSpec} (x : Float) : Value.Fits r v field .float64 (.float64 x)
  | string {field : FieldSpec} (s : String) : Value.Fits r v field .string (.string s)
  | bytes {field : FieldSpec} (data : List UInt8) : Value.Fits r v field .bytes (.bytes data)
  | uuid {field : FieldSpec} (u : Uuid) : Value.Fits r v field .uuid (.uuid u)
  | records {field : FieldSpec} (data : List UInt8) : Value.Fits r v field .records (.records data)
  | struct {field : FieldSpec} {name : String} {spec : StructSpec} {i : Instance}
      (found : r.findStruct field = .ok spec) (conforms : Instance.Conforms r v spec i) :
      Value.Fits r v field (.struct name) (.struct i)
  | array {field : FieldSpec} {element : FieldType} {items : List Value}
      (each : ∀ item ∈ items, Value.Fits r v field element item) :
      Value.Fits r v field (.array element) (.array items)

/-- An instance conforms to a struct at a version: it bears its name, has a value for each field
that exists there, and its unknown tagged fields have tags that can be written. -/
inductive Instance.Conforms (r : Registry) (v : Version) : StructSpec → Instance → Prop where
  | mk {spec : StructSpec} {fields : List (String × Value)} {tagged : List TaggedField}
      (each : Instance.FieldsFit r v (spec.fieldsAt v) fields)
      (tags : ∀ t ∈ tagged, 0 ≤ t.tag ∧ t.tag ≤ 2147483647) :
      Instance.Conforms r v spec ⟨spec.name, fields, tagged⟩

/-- The values of some fields, in their order. A field that may be null and has the default `null`
may be null whatever its type is. -/
inductive Instance.FieldsFit (r : Registry) (v : Version) :
    List FieldSpec → List (String × Value) → Prop where
  | nil : Instance.FieldsFit r v [] []
  | value {field : FieldSpec} {fields : List FieldSpec} {value : Value}
      {values : List (String × Value)} (fits : Value.Fits r v field field.type value)
      (others : Instance.FieldsFit r v fields values) :
      Instance.FieldsFit r v (field :: fields) ((field.name, value) :: values)
  | nullDefault {field : FieldSpec} {fields : List FieldSpec} {values : List (String × Value)}
      (default : field.defaultText = some "null") (nullable : field.isNullableAt v = true)
      (others : Instance.FieldsFit r v fields values) :
      Instance.FieldsFit r v (field :: fields) ((field.name, .null) :: values)

end

variable {r : Registry} {v : Version}

/-- A value may stand in a field: it fits the type, or is a null that the field has as default. -/
def Value.FitsField (r : Registry) (v : Version) (field : FieldSpec) (value : Value) : Prop :=
  value.Fits r v field field.type ∨
    (value = .null ∧ field.defaultText = some "null" ∧ field.isNullableAt v = true)

namespace Instance

theorem FieldsFit.cons {field : FieldSpec} {fields : List FieldSpec} {value : Value}
    {values : List (String × Value)} (here : value.FitsField r v field)
    (others : FieldsFit r v fields values) :
    FieldsFit r v (field :: fields) ((field.name, value) :: values) := by
  rcases here with fits | ⟨rfl, default, nullable⟩
  · exact .value fits others
  · exact .nullDefault default nullable others

theorem fieldsFit_cons {field : FieldSpec} {fields : List FieldSpec}
    {values : List (String × Value)} (h : FieldsFit r v (field :: fields) values) :
    ∃ value others, values = (field.name, value) :: others ∧ value.FitsField r v field ∧
      FieldsFit r v fields others := by
  cases h with
  | value fits others => exact ⟨_, _, rfl, Or.inl fits, others⟩
  | nullDefault default nullable others =>
      exact ⟨_, _, rfl, Or.inr ⟨rfl, default, nullable⟩, others⟩

theorem FieldsFit.names {fields : List FieldSpec} {values : List (String × Value)}
    (h : FieldsFit r v fields values) : values.map (·.1) = fields.map (·.name) := by
  induction fields generalizing values with
  | nil =>
      cases h
      rfl
  | cons field fields ih =>
      obtain ⟨value, others, rfl, -, hothers⟩ := fieldsFit_cons h
      simp [ih hothers]

theorem FieldsFit.exists_field {fields : List FieldSpec} {values : List (String × Value)}
    (h : FieldsFit r v fields values) {entry : String × Value} (mem : entry ∈ values) :
    ∃ field ∈ fields, entry.2.FitsField r v field := by
  induction fields generalizing values with
  | nil =>
      cases h
      cases mem
  | cons field fields ih =>
      obtain ⟨value, others, rfl, here, hothers⟩ := fieldsFit_cons h
      rcases List.mem_cons.1 mem with rfl | mem
      · exact ⟨field, List.mem_cons_self .., here⟩
      · obtain ⟨other, hother, fits⟩ := ih hothers mem
        exact ⟨other, List.mem_cons_of_mem _ hother, fits⟩

theorem Conforms.name {spec : StructSpec} {i : Instance} (h : i.Conforms r v spec) :
    i.name = spec.name := by
  cases h
  rfl

theorem Conforms.fieldNames {spec : StructSpec} {i : Instance} (h : i.Conforms r v spec) :
    i.fieldNames = (spec.fieldsAt v).map (·.name) := by
  cases h with
  | mk each _ => exact each.names

/-! ### Changing an instance -/

/-- A value that fits the first field of its name may be put there. -/
theorem FieldsFit.setIn {fields : List FieldSpec} {values : List (String × Value)}
    (h : FieldsFit r v fields values) {field : FieldSpec} {name : String} {value : Value}
    (first : fields.find? (·.name == name) = some field) (fits : value.FitsField r v field) :
    FieldsFit r v fields (Instance.setIn name value values) := by
  induction fields generalizing values with
  | nil => cases first
  | cons head fields ih =>
      obtain ⟨old, others, rfl, hold, hothers⟩ := fieldsFit_cons h
      rw [List.find?_cons] at first
      by_cases same : head.name = name
      · subst same
        simp only [beq_self_eq_true, Option.some.injEq] at first
        subst first
        simpa [Instance.setIn] using FieldsFit.cons fits hothers
      · have differs : (head.name == name) = false := by simpa using same
        rw [differs] at first
        simpa [Instance.setIn, same] using FieldsFit.cons hold (ih hothers first)

theorem Conforms.set {spec : StructSpec} {i : Instance} (h : i.Conforms r v spec)
    {field : FieldSpec} {value : Value}
    (first : (spec.fieldsAt v).find? (·.name == field.name) = some field)
    (fits : value.FitsField r v field) : (i.set field.name value).Conforms r v spec := by
  cases h with
  | mk each tags =>
      unfold Instance.set Instance.set?
      split
      · exact .mk (each.setIn first fits) tags
      · exact .mk each tags

theorem Conforms.addTagged {spec : StructSpec} {i : Instance} (h : i.Conforms r v spec)
    {more : List TaggedField} (tags : ∀ t ∈ more, 0 ≤ t.tag ∧ t.tag ≤ 2147483647) :
    (i.addTagged more).Conforms r v spec := by
  cases h with
  | mk each tags' =>
      refine .mk each ?_
      intro t mem
      rcases List.mem_append.1 mem with mem | mem
      · exact tags' t mem
      · exact tags t mem

end Instance

/-! ### Sources of values -/

theorem IntWidth.contains_zero (width : IntWidth) : width.bounds.contains 0 = true := by
  cases width <;> decide

theorem Default.zero?_fits {field : FieldSpec} {type : FieldType} {value : Value}
    (h : Default.zero? type = some value) : value.Fits r v field type := by
  cases type with
  | bool => cases h; exact .bool false
  | int width => cases h; exact .int width.contains_zero
  | float64 => cases h; exact .float64 _
  | string => cases h; exact .string _
  | bytes => cases h; exact .bytes _
  | uuid => cases h; exact .uuid _
  | records => cases h; exact .records _
  | struct => cases h
  | array => cases h; exact .array fun _ mem => nomatch mem
  | unsupported => cases h

theorem Default.ofText_fits {field : FieldSpec} {type : FieldType} {text : String} {value : Value}
    (h : Default.ofText type text = .ok (some value)) : value.Fits r v field type := by
  unfold Default.ofText at h
  split at h
  · split at h
    · cases h
      exact .bool true
    · split at h
      · cases h
        exact .bool false
      · cases h
  · split at h
    · cases h
    · split at h
      · rename_i inRange
        cases h
        exact .int inRange
      · cases h
  · split at h
    · cases h
    · cases h
      exact .float64 _
  · cases h
    exact .string _
  · split at h
    · cases h
    · cases h
      exact .uuid _
  · cases h

theorem TaggedField.tag_of_readTag {index : Nat} {tag : Json} {n : Int}
    (h : TaggedField.readTag index tag = .ok n) : 0 ≤ n ∧ n ≤ 2147483647 := by
  unfold TaggedField.readTag at h
  split at h
  · split at h
    · rename_i k _ ok
      cases h
      obtain ⟨nonneg, within⟩ := ok
      have upper := (Bool.and_eq_true_iff.1 within).2
      exact ⟨nonneg, of_decide_eq_true upper⟩
    · cases h
  · cases h

theorem TaggedField.tags_of_readFrom {index : Nat} {entries : List Json}
    {tagged : List TaggedField} (h : TaggedField.readFrom index entries = .ok tagged) :
    ∀ t ∈ tagged, 0 ≤ t.tag ∧ t.tag ≤ 2147483647 := by
  induction entries generalizing index tagged with
  | nil =>
      cases h
      intro t mem
      cases mem
  | cons entry entries ih =>
      obtain ⟨⟨tagJson, dataJson⟩, -, h⟩ := Outcome.bind_eq_ok.1 h
      obtain ⟨tag, htag, h⟩ := Outcome.bind_eq_ok.1 h
      obtain ⟨data, -, h⟩ := Outcome.bind_eq_ok.1 h
      obtain ⟨others, hothers, same⟩ := Outcome.bind_eq_ok.1 h
      cases same
      intro t mem
      rcases List.mem_cons.1 mem with rfl | mem
      · exact tag_of_readTag htag
      · exact ih hothers t mem

namespace Materializer

variable {m : Materializer}

theorem tags_of_readTagged {value : Json} {tagged : List TaggedField}
    (h : readTagged value = .ok tagged) : ∀ t ∈ tagged, 0 ≤ t.tag ∧ t.tag ≤ 2147483647 := by
  unfold readTagged TaggedField.read at h
  cases entry : TaggedField.readEntry value with
  | error fault =>
      simp only [entry] at h
      cases h
  | ok fields =>
      simp only [entry] at h
      cases h
      cases value with
      | array entries => exact TaggedField.tags_of_readFrom entry
      | _ => cases entry

theorem nullField_fits {field : FieldSpec} {value : Value}
    (h : m.nullField field = .ok (some value)) : value.Fits r v field field.type := by
  unfold nullField at h
  cases type : field.type <;> simp only [type] at h
  case bool | int | float64 => split at h <;> cases h
  case uuid | unsupported => cases h
  all_goals
    cases h
    exact .null rfl

theorem nullItem_fits {field : FieldSpec} {type : FieldType} {label : String} {value : Value}
    (h : m.nullItem type label = .ok value) : value.Fits r v field type := by
  unfold nullItem at h
  cases type with
  | uuid =>
      cases h
      exact .uuid _
  | string | bytes | records | struct | array =>
      cases h
      exact .null rfl
  | bool | int | float64 | unsupported => cases h

theorem locate_eq_ok {α : Type} {label : String} {x : Except ValueFault α} {a : α} :
    m.locate label x = .ok a ↔ x = .ok a := by
  cases x <;> simp [locate]

theorem convertInteger_fits {field : FieldSpec} {width : IntWidth} {json : Json} {value : Value}
    (h : convertInteger width json = .ok value) : value.Fits r v field (.int width) := by
  unfold convertInteger at h
  split at h
  · cases h
  · split at h
    · rename_i inRange
      cases h
      exact .int inRange
    · cases h

theorem convertFloat_fits {field : FieldSpec} {json : Json} {value : Value}
    (h : convertFloat json = .ok value) : value.Fits r v field .float64 := by
  unfold convertFloat at h
  split at h
  · cases h
    exact .float64 _
  · cases h
    exact .float64 _
  · cases h

theorem convertUuid_fits {field : FieldSpec} {json : Json} {value : Value}
    (h : convertUuid json = .ok value) : value.Fits r v field .uuid := by
  unfold convertUuid at h
  split at h
  · split at h
    · cases h
      exact .uuid _
    · cases h
  · cases h

theorem convertHex_map_eq_ok {json : Json} {form : List UInt8 → Value} {value : Value}
    (h : (convertHex json).map form = .ok value) : ∃ data, value = form data := by
  cases hex : convertHex json with
  | error fault =>
      rw [hex] at h
      cases h
  | ok data =>
      rw [hex] at h
      cases h
      exact ⟨data, rfl⟩

theorem convertLeaf_fits {node : Fixture.Node} {field : FieldSpec} {type : FieldType}
    {label : String} {json : Json} {value : Value}
    (h : m.convertLeaf node type label json = .ok value) : value.Fits r v field type := by
  cases type with
  | bool =>
      simp only [convertLeaf] at h
      split at h
      · cases h
        exact .bool _
      · cases h
  | int width => exact convertInteger_fits (locate_eq_ok.1 h)
  | float64 => exact convertFloat_fits (locate_eq_ok.1 h)
  | string =>
      simp only [convertLeaf] at h
      split at h
      · cases h
        exact .string _
      · cases h
  | bytes =>
      obtain ⟨data, rfl⟩ := convertHex_map_eq_ok (locate_eq_ok.1 h)
      exact .bytes data
  | records =>
      obtain ⟨data, rfl⟩ := convertHex_map_eq_ok (locate_eq_ok.1 h)
      exact .records data
  | uuid => exact convertUuid_fits (locate_eq_ok.1 h)
  | struct =>
      simp only [convertLeaf] at h
      split at h
      · cases h
        exact .null rfl
      · split at h <;> cases h
  | array =>
      simp only [convertLeaf] at h
      split at h <;> cases h
  | unsupported => cases h

/-! ### Defaults -/

theorem declaredDefault_fits {field : FieldSpec} {value : Value}
    (h : m.declaredDefault field = .ok (some value)) :
    value.FitsField m.registry m.version field := by
  unfold declaredDefault at h
  split at h
  · cases h
  · rename_i text declared
    split at h
    · rename_i isNull
      cases h
      rw [isNull.1] at declared
      exact Or.inr ⟨rfl, declared, isNull.2⟩
    · split at h
      · rename_i value? read
        cases h
        exact Or.inl (Default.ofText_fits read)
      · cases h

theorem findStruct_of_type {field : FieldSpec} {name : String} {spec : StructSpec}
    (type : field.type = .struct name) (found : r.find? name = some spec) :
    r.findStruct field = .ok spec := by
  obtain rfl := Registry.name_of_find? found
  exact Registry.findStruct_eq_ok.2 ⟨by rw [type]; rfl, found⟩

/-- How the default of a field is obtained, one constructor for each source. -/
inductive Obtained (m : Materializer) (path : List String) (field : FieldSpec) : DefaultStep → Prop
  /-- It is declared. -/
  | declared {value : Value} (given : m.declaredDefault field = .ok (some value)) :
      Obtained m path field (.value value)
  /-- It is the zero value of the type. -/
  | zero {value : Value} (absent : m.declaredDefault field = .ok none)
      (zero : Default.zero? field.type = some value) : Obtained m path field (.value value)
  /-- It is null, because the struct is under construction around the field. -/
  | cut {name : String} (absent : m.declaredDefault field = .ok none)
      (type : field.type = .struct name) (around : name ∈ path) :
      Obtained m path field (.value .null)
  /-- It is the default instance of the struct. -/
  | inside {name : String} {spec : StructSpec} (absent : m.declaredDefault field = .ok none)
      (type : field.type = .struct name) (fresh : name ∉ path)
      (found : m.registry.find? name = some spec) : Obtained m path field (.inside spec)

theorem obtained_of_defaultStep {path : List String} {field : FieldSpec} {step : DefaultStep}
    (h : m.defaultStep path field = .ok step) : m.Obtained path field step := by
  unfold defaultStep at h
  split at h
  · cases h
  · rename_i given
    cases h
    exact .declared given
  · rename_i absent
    split at h
    · rename_i name type
      split at h
      · rename_i around
        cases h
        exact .cut absent type around
      · rename_i fresh
        split at h
        · cases h
        · rename_i found
          cases h
          obtain ⟨target, defined⟩ := Registry.findStruct_eq_ok.1 found
          rw [type] at target
          obtain rfl : name = _ := Option.some.inj target
          exact .inside absent type fresh defined
    · split at h
      · rename_i zero
        cases h
        exact .zero absent zero
      · cases h

theorem defaultStep_eq_ok {path : List String} {field : FieldSpec} {step : DefaultStep}
    (h : m.defaultStep path field = .ok step) :
    (∃ value, step = .value value ∧ value.FitsField m.registry m.version field) ∨
      ∃ name spec, step = .inside spec ∧ field.type = .struct name ∧
        m.registry.findStruct field = .ok spec := by
  cases obtained_of_defaultStep h with
  | declared given => exact Or.inl ⟨_, rfl, declaredDefault_fits given⟩
  | zero _ zero => exact Or.inl ⟨_, rfl, Or.inl (Default.zero?_fits zero)⟩
  | cut _ type =>
      refine Or.inl ⟨.null, rfl, Or.inl (.null ?_)⟩
      rw [type]
      rfl
  | inside _ type _ found =>
      exact Or.inr ⟨_, _, rfl, type, findStruct_of_type type found⟩

theorem defaultFields_fit {path : List String} {fields : List FieldSpec}
    {values : List (String × Value)} (run : m.defaultFields path fields = .ok values) :
    Instance.FieldsFit m.registry m.version fields values := by
  fun_induction Materializer.defaultFields m path fields generalizing values with
  | case1 =>
      cases run
      exact .nil
  | case2 => cases run
  | case3 path field rest value step ih =>
      obtain ⟨others, hothers, same⟩ := Outcome.bind_eq_ok.1 run
      cases same
      rcases defaultStep_eq_ok step with ⟨_, ⟨⟩, fits⟩ | ⟨_, _, ⟨⟩, _⟩
      exact .cons fits (ih hothers)
  | case4 path field rest spec step _ _ ihInner ihRest =>
      obtain ⟨inner, hinner, run⟩ := Outcome.bind_eq_ok.1 run
      obtain ⟨others, hothers, same⟩ := Outcome.bind_eq_ok.1 run
      cases same
      rcases defaultStep_eq_ok step with ⟨_, ⟨⟩, _⟩ | ⟨name, _, ⟨⟩, type, found⟩
      refine .value ?_ (ihRest hothers)
      rw [type]
      exact .struct found (.mk (ihInner hinner) fun _ mem => nomatch mem)

theorem defaultInstanceIn_eq_ok {path : List String} {spec : StructSpec} {i : Instance} :
    m.defaultInstanceIn path spec = .ok i ↔
      ∃ fields, m.defaultFields (path ++ [spec.name]) (spec.fieldsAt m.version) = .ok fields ∧
        i = ⟨spec.name, fields, []⟩ := by
  rw [defaultInstanceIn, Outcome.bind_eq_ok]
  constructor
  · rintro ⟨fields, run, same⟩
    exact ⟨fields, run, (Except.ok.inj same).symm⟩
  · rintro ⟨fields, run, same⟩
    exact ⟨fields, run, by rw [same]⟩

/-- A default instance is one that is built inside no struct. -/
theorem defaultInstance_eq_ok_iff {spec : StructSpec} {i : Instance} :
    m.defaultInstance spec = .ok i ↔ m.defaultInstanceIn [] spec = .ok i := by
  unfold defaultInstance
  cases m.defaultInstanceIn [] spec <;> simp

theorem defaultInstance_eq_ok {spec : StructSpec} {i : Instance} :
    m.defaultInstance spec = .ok i ↔
      ∃ fields, m.defaultFields [spec.name] (spec.fieldsAt m.version) = .ok fields ∧
        i = ⟨spec.name, fields, []⟩ :=
  defaultInstance_eq_ok_iff.trans defaultInstanceIn_eq_ok

theorem defaultInstance_eq_error {spec : StructSpec} {e : FixtureError}
    (run : m.defaultInstance spec = .error e) :
    ∃ u, m.defaultFields [spec.name] (spec.fieldsAt m.version) = .error u ∧ e = u.error := by
  unfold defaultInstance at run
  split at run
  · cases run
  · rename_i u built
    cases run
    rcases Outcome.bind_eq_error.1 built with failed | ⟨_, _, ⟨⟩⟩
    exact ⟨u, failed, rfl⟩

theorem defaultInstance_conforms {spec : StructSpec} {i : Instance}
    (run : m.defaultInstance spec = .ok i) : i.Conforms m.registry m.version spec := by
  obtain ⟨fields, hfields, rfl⟩ := defaultInstance_eq_ok.1 run
  exact .mk (defaultFields_fit hfields) fun _ mem => nomatch mem

/-! ### Positions -/

open Fixture (Node)

theorem ofField_eq_ok {field : FieldSpec} {node : Node} (h : Node.ofField r field = .ok node) :
    ∃ struct?, node = .field field struct? ∧
      ∀ spec, struct? = some spec → r.findStruct field = .ok spec := by
  unfold Node.ofField at h
  split at h
  · cases h
    exact ⟨none, rfl, by simp⟩
  · split at h
    · cases h
    · rename_i spec found
      cases h
      refine ⟨some spec, rfl, ?_⟩
      rintro _ ⟨⟩
      exact found

/-- The position of a field is at that field. -/
theorem field?_of_ofField {field : FieldSpec} {node : Node} (h : Node.ofField r field = .ok node) :
    node.field? = some field := by
  obtain ⟨struct?, rfl, -⟩ := ofField_eq_ok h
  rfl

theorem element?_of_ofField {field : FieldSpec} {node : Node} {element : FieldType}
    (h : Node.ofField r field = .ok node) (type : field.type = .array element) :
    node.element? = some element := by
  obtain ⟨struct?, rfl, -⟩ := ofField_eq_ok h
  simp [Node.element?, type]

theorem field?_of_lookup {node : Node} {spec : StructSpec} {name : String} {field : FieldSpec}
    (here : node.struct? = some spec) (h : node.lookup name = .ok field) :
    spec.field? field.name = some field := by
  have declared : ∀ name, node.declared? name = some field →
      spec.field? field.name = some field := by
    intro name found
    rw [Node.declared?, here, Option.bind_some] at found
    have named : field.name = name := by simpa using List.find?_some found
    rw [named]
    exact found
  unfold Node.lookup at h
  split at h
  · rename_i found
    cases h
    rcases Option.or_eq_some_iff.1 found with found | ⟨-, found⟩
    · exact declared _ found
    · obtain ⟨spelling, -, found⟩ := Option.bind_eq_some_iff.1 found
      exact declared _ found
  · cases h

/-- The first field of a name is still the first after projection, if it exists at the version. -/
theorem find?_fieldsAt {spec : StructSpec} {field : FieldSpec} {name : String}
    (first : spec.field? name = some field) (present : field.existsAt v = true) :
    (spec.fieldsAt v).find? (·.name == name) = some field := by
  obtain ⟨named, before, after, split, others⟩ := List.find?_eq_some_iff_append.1 first
  rw [StructSpec.fieldsAt, split, List.filter_append, List.filter_cons, if_pos present]
  refine List.find?_eq_some_iff_append.2 ⟨named, _, _, rfl, ?_⟩
  intro other mem
  exact others other (List.mem_filter.1 mem).1

/-- A selection looks up the field and its position. The position is at the field, so that the case
of a position at no field is never met. -/
theorem select_eq (m : Materializer) (node : Node) (key : String) :
    m.select node key =
      Fixture.normalize node.knownNames key >>= fun canonical =>
        node.lookup canonical >>= fun field =>
          Node.ofField m.registry field >>= fun child =>
            if field.existsAt m.version then .ok (field, child)
            else .error (m.valueError field.name (.absent field.versions)) := by
  unfold select Node.child
  cases Fixture.normalize node.knownNames key with
  | error e => rfl
  | ok canonical =>
      show (node.lookup canonical >>= Node.ofField m.registry) >>= _ =
        node.lookup canonical >>= _
      cases node.lookup canonical with
      | error e => rfl
      | ok field =>
          show Node.ofField m.registry field >>= _ = Node.ofField m.registry field >>= _
          cases position : Node.ofField m.registry field with
          | error e => rfl
          | ok child =>
              simp only [bind, Except.bind]
              rw [field?_of_ofField position]

theorem select_eq_ok {node : Node} {spec : StructSpec} {key : String} {field : FieldSpec}
    {child : Node} (here : node.struct? = some spec) (h : m.select node key = .ok (field, child)) :
    (spec.fieldsAt m.version).find? (·.name == field.name) = some field ∧
      Node.ofField m.registry field = .ok child := by
  rw [select_eq] at h
  obtain ⟨canonical, -, h⟩ := Outcome.bind_eq_ok.1 h
  obtain ⟨field', hlookup, h⟩ := Outcome.bind_eq_ok.1 h
  obtain ⟨child', hchild, h⟩ := Outcome.bind_eq_ok.1 h
  split at h
  · rename_i there
    cases h
    exact ⟨find?_fieldsAt (field?_of_lookup here hlookup) there, hchild⟩
  · cases h

/-! ### Steps of a fixture -/

theorem convertItems_cons {node : Node} {element : FieldType} {label : String} {index : Nat}
    {item : Json} {items : List Json} {values : List Value}
    (run : m.convertItems node element label index (item :: items) = .ok values) :
    ∃ value others, values = value :: others ∧
      m.convertItem node element (itemLabel label index) item = .ok value ∧
      m.convertItems node element label (index + 1) items = .ok others := by
  rw [convertItems] at run
  unfold convertItem
  split at run <;> rename_i null <;> simp only [null, if_true, if_false, Bool.false_eq_true]
  all_goals
    obtain ⟨value, hvalue, run⟩ := Outcome.bind_eq_ok.1 run
    obtain ⟨others, hothers, same⟩ := Outcome.bind_eq_ok.1 run
    cases same
    exact ⟨value, others, rfl, hvalue, hothers⟩

/-- What one member of a fixture does to the instance at a position. -/
inductive Assigns (m : Materializer) (node : Node) (i : Instance) : String × Json → Instance → Prop
  /-- The reserved entry adds unknown tagged fields. -/
  | tagged {json : Json} {tagged : List TaggedField} (read : readTagged json = .ok tagged) :
      Assigns m node i (unknownTaggedKey, json) (i.addTagged tagged)
  /-- A null may keep the default. -/
  | keep {key : String} {json : Json} {field : FieldSpec} {child : Node}
      (ordinary : key ≠ unknownTaggedKey) (selected : m.select node key = .ok (field, child))
      (null : isNull json = true) (kept : m.nullField field = .ok none) :
      Assigns m node i (key, json) i
  /-- A null may be the value. -/
  | null {key : String} {json : Json} {field : FieldSpec} {child : Node} {value : Value}
      (ordinary : key ≠ unknownTaggedKey) (selected : m.select node key = .ok (field, child))
      (null : isNull json = true) (taken : m.nullField field = .ok (some value)) :
      Assigns m node i (key, json) (i.set field.name value)
  /-- Anything else is converted to the type of the field. -/
  | value {key : String} {json : Json} {field : FieldSpec} {child : Node} {value : Value}
      (ordinary : key ≠ unknownTaggedKey) (selected : m.select node key = .ok (field, child))
      (notNull : isNull json = false)
      (converted : m.convert child field.type field.name json = .ok value) :
      Assigns m node i (key, json) (i.set field.name value)

theorem assign_cons {node : Node} {i i' : Instance} {member : String × Json}
    {members : List (String × Json)} :
    m.assign node i (member :: members) = .ok i' ↔
      ∃ next, m.Assigns node i member next ∧ m.assign node next members = .ok i' := by
  constructor
  · intro run
    obtain ⟨key, json⟩ := member
    rw [assign] at run
    split at run
    · rename_i reserved
      subst reserved
      obtain ⟨tagged, htagged, run⟩ := Outcome.bind_eq_ok.1 run
      exact ⟨_, .tagged htagged, run⟩
    · rename_i ordinary
      obtain ⟨⟨field, child⟩, selected, run⟩ := Outcome.bind_eq_ok.1 run
      dsimp only at run
      split at run
      · rename_i null
        obtain ⟨value?, taken, run⟩ := Outcome.bind_eq_ok.1 run
        cases value? with
        | none => exact ⟨_, .keep ordinary selected null taken, run⟩
        | some value => exact ⟨_, .null ordinary selected null taken, run⟩
      · rename_i notNull
        obtain ⟨value, converted, run⟩ := Outcome.bind_eq_ok.1 run
        exact ⟨_, .value ordinary selected (Bool.eq_false_iff.2 notNull) converted, run⟩
  · rintro ⟨next, step, run⟩
    cases step with
    | tagged read =>
        rw [assign, if_pos rfl, read]
        exact run
    | keep ordinary selected null kept =>
        rw [assign, if_neg ordinary, selected]
        simpa [bind, Except.bind, null, kept] using run
    | null ordinary selected null taken =>
        rw [assign, if_neg ordinary, selected]
        simpa [bind, Except.bind, null, taken] using run
    | value ordinary selected notNull converted =>
        rw [assign, if_neg ordinary, selected]
        simpa [bind, Except.bind, notNull, converted] using run

/-! ### Fixtures -/

/-- Every struct of the registry has flat types only. -/
def FlatRegistry (r : Registry) : Prop :=
  ∀ spec ∈ r.definitions, ∀ f ∈ spec.fields, f.type.IsFlat

mutual

/-- What is converted at a field fits the type. The type is that of the field or, inside an array,
that of its elements. -/
theorem convert_fits (flat : FlatRegistry m.registry) :
    ∀ (json : Json) {node : Node} {field : FieldSpec} {type : FieldType} {label : String}
      {value : Value}, Node.ofField m.registry field = .ok node → field.type.IsFlat →
      type = field.type ∨ field.type = .array type → m.convert node type label json = .ok value →
      value.Fits m.registry m.version field type
  | .object members, node, field, type, label, value, position, flatType, typed, run => by
      cases type with
      | struct name =>
          rw [convert] at run
          obtain ⟨defaults, hstart, run⟩ := Outcome.bind_eq_ok.1 run
          obtain ⟨i, hassign, same⟩ := Outcome.bind_eq_ok.1 run
          cases same
          obtain ⟨struct?, rfl, found⟩ := ofField_eq_ok position
          cases struct? with
          | none => cases hstart
          | some spec =>
              have defined := (Registry.findStruct_eq_ok.1 (found spec rfl)).2
              have flatSpec := flat spec (Registry.mem_of_find? defined)
              have start := defaultInstance_conforms hstart
              exact .struct (found spec rfl)
                (assign_conforms flat members rfl flatSpec start hassign)
      | _ =>
          simp only [convert] at run
          exact convertLeaf_fits run
  | .array items, node, field, type, label, value, position, flatType, typed, run => by
      cases type with
      | array element =>
          -- The elements of a flat type are no arrays, so this is the type of the field.
          have type : field.type = .array element := by
            rcases typed with same | inside
            · exact same.symm
            · cases flatType _ inside
          simp only [convert, element?_of_ofField position type] at run
          obtain ⟨values, hvalues, same⟩ := Outcome.bind_eq_ok.1 run
          cases same
          exact .array (convertItems_fit flat items position flatType type hvalues)
      | _ =>
          simp only [convert] at run
          exact convertLeaf_fits run
  | .null, _, _, _, _, _, _, _, _, run => by
      rw [convert] at run
      exact convertLeaf_fits run
  | .bool _, _, _, _, _, _, _, _, _, run => by
      rw [convert] at run
      exact convertLeaf_fits run
  | .number _, _, _, _, _, _, _, _, _, run => by
      rw [convert] at run
      exact convertLeaf_fits run
  | .string _, _, _, _, _, _, _, _, _, run => by
      rw [convert] at run
      exact convertLeaf_fits run

theorem convertItems_fit (flat : FlatRegistry m.registry) :
    ∀ (items : List Json) {node : Node} {field : FieldSpec} {element : FieldType} {label : String}
      {index : Nat} {values : List Value}, Node.ofField m.registry field = .ok node →
      field.type.IsFlat → field.type = .array element →
      m.convertItems node element label index items = .ok values →
      ∀ value ∈ values, value.Fits m.registry m.version field element
  | [], _, _, _, _, _, _, _, _, _, run => by
      rw [convertItems] at run
      cases run
      intro value mem
      cases mem
  | item :: items, node, field, element, label, index, values, position, flatType, type, run => by
      obtain ⟨first, others, rfl, hfirst, hothers⟩ := convertItems_cons run
      intro value mem
      rcases List.mem_cons.1 mem with rfl | mem
      · unfold convertItem at hfirst
        split at hfirst
        · exact nullItem_fits hfirst
        · exact convert_fits flat item position flatType (Or.inr type) hfirst
      · exact convertItems_fit flat items position flatType type hothers value mem

theorem assign_conforms (flat : FlatRegistry m.registry) :
    ∀ (members : List (String × Json)) {node : Node} {spec : StructSpec} {i i' : Instance},
      node.struct? = some spec → (∀ f ∈ spec.fields, f.type.IsFlat) →
      i.Conforms m.registry m.version spec → m.assign node i members = .ok i' →
      i'.Conforms m.registry m.version spec
  | [], _, _, _, _, _, _, conforms, run => by
      rw [assign] at run
      cases run
      exact conforms
  | (key, json) :: members, node, spec, i, i', here, flatSpec, conforms, run => by
      obtain ⟨next, step, run⟩ := assign_cons.1 run
      refine assign_conforms flat members here flatSpec ?_ run
      cases step with
      | tagged read => exact conforms.addTagged (tags_of_readTagged read)
      | keep => exact conforms
      | null _ selected _ taken =>
          obtain ⟨first, -⟩ := select_eq_ok here selected
          exact conforms.set first (Or.inl (nullField_fits taken))
      | @value _ _ field _ _ _ selected _ converted =>
          obtain ⟨first, position⟩ := select_eq_ok here selected
          have mem : field ∈ spec.fields :=
            (List.mem_filter.1 (List.mem_of_find?_eq_some first)).1
          have fits := convert_fits flat json position (flatSpec field mem) (Or.inl rfl) converted
          exact conforms.set first (Or.inl fits)

end

/-- A fixture that is an object is assigned to the defaults. It gives an instance if it gives
anything, so that the case of a fixture without one is never met. -/
theorem materializeRoot_object (m : Materializer) (members : List (String × Json)) :
    m.materializeRoot (.object members) =
      m.defaultInstance m.message.struct >>= fun defaults => m.assign m.root defaults members := by
  have start : m.start m.root = m.defaultInstance m.message.struct := rfl
  unfold materializeRoot materialize
  rw [start]
  cases m.defaultInstance m.message.struct with
  | error e => rfl
  | ok defaults =>
      show (m.assign m.root defaults members >>= fun i => .ok (some i)) >>= _ =
        m.assign m.root defaults members
      cases m.assign m.root defaults members <;> rfl

theorem materializeRoot_eq_ok {fixture : Json} {i : Instance} :
    m.materializeRoot fixture = .ok i ↔
      ∃ members defaults, fixture = .object members ∧
        m.defaultInstance m.message.struct = .ok defaults ∧
          m.assign m.root defaults members = .ok i := by
  cases fixture with
  | object members => simp [materializeRoot_object, Outcome.bind_eq_ok]
  | _ => simp [materializeRoot]

theorem materializeRoot_conforms {fixture : Json} {i : Instance} (flat : FlatRegistry m.registry)
    (flatRoot : ∀ f ∈ m.message.struct.fields, f.type.IsFlat)
    (run : m.materializeRoot fixture = .ok i) :
    i.Conforms m.registry m.version m.message.struct := by
  obtain ⟨members, defaults, rfl, hdefaults, hassign⟩ := materializeRoot_eq_ok.1 run
  exact assign_conforms flat members rfl flatRoot (defaultInstance_conforms hdefaults) hassign

end Materializer

/-! ### Loaded messages -/

theorem new_eq_ok {message : MessageSpec} {m : Materializer}
    (h : Materializer.new message r v = .ok m) : m = ⟨message, r, v⟩ := by
  unfold Materializer.new at h
  split at h
  · cases h
  · cases h
    rfl

theorem flatRegistry_of_load {text : String} {message : MessageSpec}
    (loaded : MessageSpec.load text = .ok message)
    (registered : Registry.ofMessage message = .ok r) : Materializer.FlatRegistry r := by
  intro spec mem f hf
  have met := Registry.met_of_mem_definitions registered mem
  exact MessageSpec.isFlat_of_load loaded (MessageSpec.hasStruct_of_met met) hf

theorem conforms_of_load {text : String} {message : MessageSpec} {m : Materializer}
    {fixture : Json} {i : Instance} (loaded : MessageSpec.load text = .ok message)
    (registered : Registry.ofMessage message = .ok r)
    (valid : Materializer.new message r v = .ok m) (run : m.materializeRoot fixture = .ok i) :
    i.Conforms r v message.struct := by
  obtain rfl := new_eq_ok valid
  have flatRoot : ∀ f ∈ message.struct.fields, f.type.IsFlat :=
    fun f mem => MessageSpec.isFlat_of_load loaded (.inl rfl) mem
  exact Materializer.materializeRoot_conforms (flatRegistry_of_load loaded registered) flatRoot run

/-- **Conformance.** Whatever instance a fixture is turned into, for a message of a document,
conforms to the top-level struct at the version, at every depth. It bears the name of the message
and has the fields of the projection, in order. -/
theorem materialized_instance_conforms {text : String} {message : MessageSpec} {m : Materializer}
    {fixture : Json} {i : Instance} (loaded : MessageSpec.load text = .ok message)
    (registered : Registry.ofMessage message = .ok r)
    (valid : Materializer.new message r v = .ok m) (run : m.materializeRoot fixture = .ok i) :
    i.Conforms r v message.struct ∧ i.name = message.name ∧
      i.fieldNames = (message.struct.fieldsAt v).map (·.name) := by
  have conforms := conforms_of_load loaded registered valid run
  refine ⟨conforms, ?_, conforms.fieldNames⟩
  rw [conforms.name, MessageSpec.struct_name_of_load loaded]

namespace Sample

def journalFixture : Json :=
  .object [("Head", .object [("Next", .object []), ("Tags", .array [.string "new"])]),
    ("Note", .null)]

def entryInstance (next : Value) (tags : List Value) : Instance :=
  ⟨"Entry", [("Next", next), ("Tags", .array tags)], []⟩

/-- The instance of the fixture: the inner entry has its defaults, among which the recursion ends in
a null. -/
def journalInstance : Instance :=
  ⟨"Journal",
    [("Head", .struct (entryInstance (.struct (entryInstance .null [])) [.string "new"])),
      ("Note", .null)], []⟩

def journalMaterializer : Materializer := ⟨journal, journalRegistry, 1⟩

theorem defaultInstance_journal : journalMaterializer.defaultInstance journal.struct =
    .ok ⟨"Journal", [("Head", .struct (entryInstance .null [])), ("Note", .string "")], []⟩ := by
  cbv

theorem defaultInstance_entry :
    journalMaterializer.defaultInstance entry = .ok (entryInstance .null []) := by
  cbv

theorem convert_entry {field : FieldSpec} {members : List (String × Json)} {i : Instance}
    (run : journalMaterializer.assign (.field field (some entry)) (entryInstance .null []) members =
      .ok i) :
    journalMaterializer.convert (.field field (some entry)) (.struct "Entry") field.name
      (.object members) = .ok (.struct i) := by
  rw [Materializer.convert]
  exact Outcome.bind_eq_ok.2 ⟨_, defaultInstance_entry, Outcome.bind_eq_ok.2 ⟨i, run, rfl⟩⟩

theorem materializeRoot_journal :
    journalMaterializer.materializeRoot journalFixture = .ok journalInstance := by
  have head : ∀ field, journalMaterializer.assign (.field field (some entry))
      (entryInstance .null []) [("Next", .object []), ("Tags", .array [.string "new"])] =
        .ok (entryInstance (.struct (entryInstance .null [])) [.string "new"]) := by
    intro field
    refine Materializer.assign_cons.2 ⟨_, .value (by decide) rfl rfl (convert_entry rfl), ?_⟩
    exact Materializer.assign_cons.2 ⟨_, .value (by decide) rfl rfl rfl, rfl⟩
  refine Materializer.materializeRoot_eq_ok.2 ⟨_, _, rfl, defaultInstance_journal, ?_⟩
  refine Materializer.assign_cons.2 ⟨_, .value (by decide) rfl rfl (convert_entry (head _)), ?_⟩
  exact Materializer.assign_cons.2 ⟨_, .null (by decide) rfl rfl rfl, rfl⟩

theorem journal_instance_conforms :
    MessageSpec.load journalText = .ok journal ∧
      Registry.ofMessage journal = .ok journalRegistry ∧
      Materializer.new journal journalRegistry 1 = .ok journalMaterializer ∧
      journalMaterializer.materializeRoot journalFixture = .ok journalInstance ∧
      journalInstance.Conforms journalRegistry 1 journal.struct :=
  ⟨load_journalText, ofMessage_journal, rfl, materializeRoot_journal,
    (materialized_instance_conforms load_journalText ofMessage_journal rfl
      materializeRoot_journal).1⟩

end Sample

end WireSchema
