import WireSchema.Proofs.Agreement
import WireSchema.Proofs.Constructible

/-!
# Structs that have default instances

A struct is **grounded** if it belongs to a set of structs in which every field has a default. This
is the greatest such set, so it is enough to name some set to show that a struct is grounded.

* Grounded structs have default instances (`Grounded.defaultInstance`).
* A struct of the registry with a default instance is grounded, and so is every struct that was
  entered on the way (`grounded_of_defaultInstance`).
* An instance of a message is made of defaults and of instances that were each started from the
  defaults of their own struct, so the structs of its parts are grounded
  (`grounded_of_materializeRoot`). The top-level struct is special: its name is on the path from the
  start, so what the registry has under that name is never entered for a default.
-/

namespace WireSchema

/-- Where no struct is defined, a value that fits has no instance in it. -/
theorem Value.Fits.not_inValue {v : Version} {field : FieldSpec} {type : FieldType} {value : Value}
    (fits : value.Fits .empty v field type) (j : Instance) : ¬ j.InValue value := by
  intro inside
  obtain ⟨spec, found, -⟩ := inside.conforms fits
  cases found

namespace Materializer

open Fixture (Node)

variable {m : Materializer}

theorem Supplied.mono {cut : List String} {known known' : StructSpec → Prop} {field : FieldSpec}
    (h : m.Supplied cut known field) (weaker : ∀ spec, known spec → known' spec) :
    m.Supplied cut known' field := by
  intro absent
  rcases h absent with zero | ⟨name, type, around | ⟨spec, found, mem⟩⟩
  · exact .inl zero
  · exact .inr ⟨name, type, .inl around⟩
  · exact .inr ⟨name, type, .inr ⟨spec, found, weaker spec mem⟩⟩

/-! ### Grounded structs -/

/-- A field has a default: the declared one is not malformed, and if there is none the field is
supplied. -/
structure HasDefault (m : Materializer) (cut : List String) (known : StructSpec → Prop)
    (field : FieldSpec) : Prop where
  wellFormed : ∃ value?, m.declaredDefault field = .ok value?
  supplied : m.Supplied cut known field

theorem HasDefault.mono {cut : List String} {known known' : StructSpec → Prop} {field : FieldSpec}
    (h : m.HasDefault cut known field) (weaker : ∀ spec, known spec → known' spec) :
    m.HasDefault cut known' field :=
  ⟨h.wellFormed, h.supplied.mono weaker⟩

/-- A struct belongs to a set in which every field has a default. -/
def Grounded (m : Materializer) (spec : StructSpec) : Prop :=
  ∃ known : StructSpec → Prop,
    (∀ d, known d → ∀ field ∈ d.fieldsAt m.version, m.HasDefault [] known field) ∧ known spec

theorem Grounded.hasDefault {spec : StructSpec} (h : m.Grounded spec) :
    ∀ field ∈ spec.fieldsAt m.version, m.HasDefault [] m.Grounded field := by
  obtain ⟨known, each, mem⟩ := h
  intro field hfield
  exact (each spec mem field hfield).mono fun d hd => ⟨known, each, hd⟩

/-- A set is grounded if its fields have defaults within it and what is grounded already. -/
theorem grounded_of_hasDefault {known : StructSpec → Prop}
    (each : ∀ d, known d → ∀ field ∈ d.fieldsAt m.version,
      m.HasDefault [] (fun d => known d ∨ m.Grounded d) field)
    {spec : StructSpec} (mem : known spec) : m.Grounded spec := by
  refine ⟨fun d => known d ∨ m.Grounded d, ?_, .inl mem⟩
  rintro d (hd | hd) field hfield
  · exact each d hd field hfield
  · exact (hd.hasDefault field hfield).mono fun _ => .inr

theorem Grounded.defaultInstance {spec : StructSpec} (h : m.Grounded spec) :
    ∃ i, m.defaultInstance spec = .ok i := by
  have closed : m.Closed [] m.Grounded := fun d hd field hfield => (hd.hasDefault field hfield).2
  cases run : m.defaultInstance spec with
  | ok i => exact ⟨i, rfl⟩
  | error e =>
      obtain ⟨u, failed, -⟩ := defaultInstance_eq_error run
      obtain ⟨field, mem, malformed⟩ := error_of_closed closed (List.nil_subset _)
        (fun field mem => (h.hasDefault field mem).2) failed
      have wellFormed : ∃ value?, m.declaredDefault field = .ok value? := by
        rcases mem with mem | ⟨d, hd, mem⟩
        · exact (h.hasDefault field mem).1
        · exact (hd.hasDefault field mem).1
      obtain ⟨value?, read⟩ := wellFormed
      rw [malformed] at read
      cases read

/-! ### What a construction enters -/

/-- No instance stands in a default that is not built by entering a struct. -/
theorem Obtained.not_inValue {path : List String} {field : FieldSpec} {value : Value}
    (h : m.Obtained path field (.value value)) (j : Instance) : ¬ j.InValue value := by
  intro inside
  have fits : value.FitsField .empty m.version field := by
    cases h with
    | declared given =>
        have same : declaredDefault ⟨m.message, .empty, m.version⟩ field = .ok (some value) := given
        exact declaredDefault_fits same
    | zero _ zero => exact .inl (Default.zero?_fits zero)
    | cut => cases inside
  exact (fits.fits_of_inValue inside).not_inValue j inside

/-- A struct is that of an instance in one of the values. -/
def Occurring (m : Materializer) (values : List (String × Value)) (spec : StructSpec) : Prop :=
  ∃ entry ∈ values, ∃ j : Instance, j.InValue entry.2 ∧ m.registry.find? j.name = some spec

theorem occurring_cons {entry : String × Value} {values : List (String × Value)}
    {spec : StructSpec} : m.Occurring (entry :: values) spec ↔
      (∃ j : Instance, j.InValue entry.2 ∧ m.registry.find? j.name = some spec) ∨
        m.Occurring values spec := by
  simp [Occurring]

theorem occurring_struct {name : String} {i : Instance} {others : List (String × Value)}
    {spec : StructSpec} : m.Occurring ((name, .struct i) :: others) spec ↔
      m.registry.find? i.name = some spec ∨ m.Occurring i.fields spec ∨
        m.Occurring others spec := by
  rw [occurring_cons, ← or_assoc]
  refine or_congr_left ⟨?_, ?_⟩
  · rintro ⟨j, inside, found⟩
    cases inside with
    | here => exact .inl found
    | field mem inner => exact .inr ⟨_, mem, j, inner, found⟩
  · rintro (found | ⟨entry, mem, j, inner, found⟩)
    · exact ⟨i, .here, found⟩
    · exact ⟨j, .field mem inner, found⟩

/-- A step that succeeded gives the field a default, within the structs on the path and the one it
enters. -/
theorem Obtained.hasDefault {path cut : List String} {known : StructSpec → Prop}
    {field : FieldSpec} {step : DefaultStep} (h : m.Obtained path field step)
    (around : ∀ name ∈ path, name ∈ cut ∨ ∃ spec, m.registry.find? name = some spec ∧ known spec)
    (entered : ∀ spec, step = .inside spec → known spec) : m.HasDefault cut known field := by
  cases h with
  | declared given =>
      refine ⟨⟨_, given⟩, ?_⟩
      intro absent
      rw [given] at absent
      cases absent
  | zero absent zero => exact ⟨⟨_, absent⟩, fun _ => .inl ⟨_, zero⟩⟩
  | cut absent type mem => exact ⟨⟨_, absent⟩, fun _ => .inr ⟨_, type, around _ mem⟩⟩
  | inside absent type _ found =>
      exact ⟨⟨_, absent⟩, fun _ => .inr ⟨_, type, .inr ⟨_, found, entered _ rfl⟩⟩⟩

/-- The fields of a successful construction have defaults, and so do those of the structs it
entered: within these structs and the ones around it. -/
theorem hasDefault_of_defaultFields {path : List String} {fields : List FieldSpec}
    {values : List (String × Value)} (cut : List String) (known : StructSpec → Prop)
    (run : m.defaultFields path fields = .ok values)
    (around : ∀ name ∈ path, name ∈ cut ∨ ∃ spec, m.registry.find? name = some spec ∧ known spec) :
    ∀ field, (field ∈ fields ∨
        ∃ spec, m.Occurring values spec ∧ field ∈ spec.fieldsAt m.version) →
      m.HasDefault cut (fun spec => known spec ∨ m.Occurring values spec) field := by
  fun_induction Materializer.defaultFields m path fields generalizing values known with
  | case1 =>
      cases run
      rintro field (mem | ⟨spec, ⟨entry, mem, -⟩, -⟩) <;> cases mem
  | case2 => cases run
  | case3 path field rest value step ih =>
      obtain ⟨others, hothers, same⟩ := Outcome.bind_eq_ok.1 run
      cases same
      have obtained := obtained_of_defaultStep step
      have leaf : ∀ spec, m.Occurring ((field.name, value) :: others) spec ↔
          m.Occurring others spec := by
        intro spec
        rw [occurring_cons]
        refine or_iff_right ?_
        rintro ⟨j, inside, -⟩
        exact obtained.not_inValue j inside
      simp only [leaf]
      rintro f (mem | mem)
      · rcases List.mem_cons.1 mem with rfl | mem
        · have here := obtained.hasDefault around (by rintro spec ⟨⟩)
          exact here.mono fun _ => .inl
        · exact ih known hothers around f (.inl mem)
      · exact ih known hothers around f (.inr mem)
  | case4 path field rest spec step _ _ ihInner ihRest =>
      obtain ⟨inner, hinner, run⟩ := Outcome.bind_eq_ok.1 run
      obtain ⟨others, hothers, same⟩ := Outcome.bind_eq_ok.1 run
      cases same
      obtain ⟨defined, -⟩ := defaultStep_inside step
      -- Inside the struct, the struct itself is one of those around.
      have around' : ∀ name ∈ path, name ∈ cut ∨
          ∃ d, m.registry.find? name = some d ∧ (known d ∨ d = spec) := by
        intro name mem
        rcases around name mem with cut | ⟨d, found, hd⟩
        · exact .inl cut
        · exact .inr ⟨d, found, .inl hd⟩
      have within := ihInner (fun d => known d ∨ d = spec) hinner <|
        List.forall_mem_append.2
          ⟨around', List.forall_mem_singleton.2 (.inr ⟨spec, defined, .inr rfl⟩)⟩
      have beside := ihRest known hothers around
      simp only [occurring_struct, defined, Option.some.injEq]
      have deeper : ∀ d, (known d ∨ d = spec) ∨ m.Occurring inner d →
          known d ∨ spec = d ∨ m.Occurring inner d ∨ m.Occurring others d := by
        rintro d ((h | rfl) | h)
        · exact .inl h
        · exact .inr (.inl rfl)
        · exact .inr (.inr (.inl h))
      have later : ∀ d, known d ∨ m.Occurring others d →
          known d ∨ spec = d ∨ m.Occurring inner d ∨ m.Occurring others d := by
        rintro d (h | h)
        · exact .inl h
        · exact .inr (.inr (.inr h))
      rintro f (mem | ⟨d, rfl | hd | hd, mem⟩)
      · rcases List.mem_cons.1 mem with rfl | mem
        · have entered := (obtained_of_defaultStep step).hasDefault around' (by
            rintro _ ⟨⟩
            exact .inr rfl)
          exact entered.mono fun d hd => deeper d (.inl hd)
        · exact (beside f (.inl mem)).mono later
      · exact (within f (.inl mem)).mono deeper
      · exact (within f (.inr ⟨d, hd, mem⟩)).mono deeper
      · exact (beside f (.inr ⟨d, hd, mem⟩)).mono later

theorem defaultFields_of_value {path : List String} {field : FieldSpec} {rest : List FieldSpec}
    {value : Value} (step : m.defaultStep path field = .ok (.value value)) :
    m.defaultFields path (field :: rest) =
      m.defaultFields path rest >>= fun others => .ok ((field.name, value) :: others) := by
  rw [defaultFields]
  split <;> rename_i step' <;> rw [step] at step' <;> cases step'
  rfl

theorem defaultFields_of_inside {path : List String} {field : FieldSpec} {rest : List FieldSpec}
    {spec : StructSpec} (step : m.defaultStep path field = .ok (.inside spec)) :
    m.defaultFields path (field :: rest) =
      m.defaultFields (path ++ [spec.name]) (spec.fieldsAt m.version) >>= fun inner =>
        m.defaultFields path rest >>= fun others =>
          .ok ((field.name, .struct ⟨spec.name, inner, []⟩) :: others) := by
  rw [defaultFields]
  split <;> rename_i step' <;> rw [step] at step' <;> cases step'
  rfl

theorem defaultFields_of_error {path : List String} {field : FieldSpec} {rest : List FieldSpec}
    {e : FixtureError} (step : m.defaultStep path field = .error e) :
    m.defaultFields path (field :: rest) = .error ⟨e, path⟩ := by
  rw [defaultFields]
  split <;> rename_i step' <;> rw [step] at step' <;> cases step'
  rfl

/-- What a field holds in a default, inside the structs on a path. -/
inductive HoldsDefault (m : Materializer) (path : List String) (field : FieldSpec) : Value → Prop
  | value {value : Value} (step : m.defaultStep path field = .ok (.value value)) :
      HoldsDefault m path field value
  | struct {spec : StructSpec} {i : Instance}
      (step : m.defaultStep path field = .ok (.inside spec))
      (built : m.defaultInstanceIn path spec = .ok i) : HoldsDefault m path field (.struct i)

theorem holdsDefault_of_defaultFields {path : List String} {fields : List FieldSpec}
    {values : List (String × Value)} (run : m.defaultFields path fields = .ok values) :
    List.Forall₂ (fun field entry => entry.1 = field.name ∧ m.HoldsDefault path field entry.2)
      fields values := by
  fun_induction Materializer.defaultFields m path fields generalizing values with
  | case1 =>
      cases run
      exact .nil
  | case2 => cases run
  | case3 path field rest value step ih =>
      obtain ⟨others, hothers, same⟩ := Outcome.bind_eq_ok.1 run
      cases same
      exact .cons ⟨rfl, .value step⟩ (ih hothers)
  | case4 path field rest spec step _ _ _ ihRest =>
      obtain ⟨inner, hinner, run⟩ := Outcome.bind_eq_ok.1 run
      obtain ⟨others, hothers, same⟩ := Outcome.bind_eq_ok.1 run
      cases same
      have built := defaultInstanceIn_eq_ok.2 ⟨inner, hinner, rfl⟩
      exact .cons ⟨rfl, .struct step built⟩ (ihRest hothers)

theorem defaultFields_eq_ok {path : List String} {fields : List FieldSpec}
    {values : List (String × Value)} :
    m.defaultFields path fields = .ok values ↔
      List.Forall₂ (fun field entry => entry.1 = field.name ∧ m.HoldsDefault path field entry.2)
        fields values := by
  constructor
  · exact holdsDefault_of_defaultFields
  · intro each
    induction each with
    | nil => rw [defaultFields]
    | @cons field entry fields values first _ ih =>
        obtain ⟨name, value⟩ := entry
        obtain ⟨rfl, holds⟩ := first
        cases holds with
        | value step =>
            rw [defaultFields_of_value step, ih]
            rfl
        | struct step built =>
            obtain ⟨inner, run, rfl⟩ := defaultInstanceIn_eq_ok.1 built
            rw [defaultFields_of_inside step, run, ih]
            rfl

/-- A struct has a default instance exactly if each of its fields has a default in it. -/
theorem defaultInstance_succeeds_iff {spec : StructSpec} :
    (∃ i, m.defaultInstance spec = .ok i) ↔
      ∀ field ∈ spec.fieldsAt m.version, ∃ value, m.HoldsDefault [spec.name] field value := by
  constructor
  · intro built field mem
    obtain ⟨i, run⟩ := built
    obtain ⟨values, filled, -⟩ := defaultInstance_eq_ok.1 run
    obtain ⟨entry, -, -, holds⟩ := Outcome.exists_of_mem_left (defaultFields_eq_ok.1 filled) mem
    exact ⟨entry.2, holds⟩
  · intro each
    obtain ⟨values, filled⟩ : ∃ values, List.Forall₂ (fun field (entry : String × Value) =>
        entry.1 = field.name ∧ m.HoldsDefault [spec.name] field entry.2)
          (spec.fieldsAt m.version) values := by
      refine Outcome.exists_forall₂ fun field mem => ?_
      obtain ⟨value, holds⟩ := each field mem
      exact ⟨(field.name, value), rfl, holds⟩
    exact ⟨_, defaultInstance_eq_ok.2 ⟨values, defaultFields_eq_ok.2 filled, rfl⟩⟩

/-- Each default is obtained by itself. -/
theorem defaultFields_of_mem {path : List String} {fields : List FieldSpec}
    {values : List (String × Value)} (run : m.defaultFields path fields = .ok values)
    {entry : String × Value} (mem : entry ∈ values) :
    ∃ field ∈ fields, m.defaultFields path [field] = .ok [entry] := by
  have nothing : m.defaultFields path [] = .ok [] := by rw [defaultFields]
  obtain ⟨name, value⟩ := entry
  obtain ⟨field, listed, named, holds⟩ :=
    Outcome.exists_of_mem_right (holdsDefault_of_defaultFields run) mem
  cases named
  refine ⟨field, listed, ?_⟩
  cases holds with
  | value step =>
      rw [defaultFields_of_value step, nothing]
      rfl
  | struct step built =>
      obtain ⟨inner, hinner, rfl⟩ := defaultInstanceIn_eq_ok.1 built
      rw [defaultFields_of_inside step, hinner, nothing]
      rfl

/-- A struct of the registry that has a default instance is grounded, with everything nested in
that. -/
theorem grounded_of_defaultInstance {spec : StructSpec} {i : Instance}
    (found : m.registry.find? spec.name = some spec) (run : m.defaultInstance spec = .ok i) :
    ∀ d, d = spec ∨ m.Occurring i.fields d → m.Grounded d := by
  obtain ⟨fields, hfields, rfl⟩ := defaultInstance_eq_ok.1 run
  have each := hasDefault_of_defaultFields [] (· = spec) hfields
    (List.forall_mem_singleton.2 (.inr ⟨spec, found, rfl⟩))
  intro d mem
  refine ⟨fun d => d = spec ∨ m.Occurring fields d, ?_, mem⟩
  rintro d (rfl | hd) field hfield
  · exact each field (.inl hfield)
  · exact each field (.inr ⟨d, hd, hfield⟩)

/-- What is nested in the default of a field is grounded, if its references are defined. A struct of
the name under construction is not entered for the default, and so must be known to be grounded. -/
theorem grounded_of_defaultField {name : String} {field : FieldSpec} {entry : String × Value}
    (run : m.defaultFields [name] [field] = .ok [entry])
    (resolved : ∀ d, m.Occurring [entry] d → ∀ f ∈ d.fieldsAt m.version, ∀ target,
      f.type.structName? = some target → ∃ d', m.registry.find? target = some d')
    (homonym : ∀ d, m.registry.find? name = some d → m.Grounded d) :
    ∀ d, m.Occurring [entry] d → m.Grounded d := by
  have each := hasDefault_of_defaultFields [name] (fun _ => False) run
    (fun _ mem => .inl mem)
  intro d mem
  refine grounded_of_hasDefault ?_ mem
  intro d hd f hf
  obtain ⟨wellFormed, supplied⟩ := each f (.inr ⟨d, hd, hf⟩)
  refine ⟨wellFormed, ?_⟩
  intro absent
  rcases supplied absent with zero | ⟨target, type, around | ⟨d', found, hd'⟩⟩
  · exact .inl zero
  · obtain ⟨d', found⟩ := resolved d hd f hf target (by rw [type]; rfl)
    obtain rfl := List.mem_singleton.1 around
    exact .inr ⟨target, type, .inr ⟨d', found, .inr (homonym d' found)⟩⟩
  · exact .inr ⟨target, type, .inr ⟨d', found, .inl (hd'.resolve_left id)⟩⟩

/-! ### Nested instances with their structs -/

/-- Every instance in a value satisfies a property, with the struct of the registry. -/
def Nested (m : Materializer) (P : StructSpec → Instance → Prop) (value : Value) : Prop :=
  ∀ j : Instance, j.InValue value → ∀ d, m.registry.find? j.name = some d → P d j

section

variable {P : StructSpec → Instance → Prop}

theorem nested_struct {i : Instance} :
    m.Nested P (.struct i) ↔
      (∀ d, m.registry.find? i.name = some d → P d i) ∧ ∀ entry ∈ i.fields, m.Nested P entry.2 := by
  constructor
  · intro h
    exact ⟨h i .here, fun entry mem j inner => h j (.field mem inner)⟩
  · intro h j inside
    cases inside with
    | here => exact h.1
    | field mem inner => exact h.2 _ mem j inner

theorem nested_array {items : List Value} :
    m.Nested P (.array items) ↔ ∀ item ∈ items, m.Nested P item := by
  constructor
  · intro h item mem j inner
    exact h j (.item mem inner)
  · intro h j inside
    cases inside with
    | item mem inner => exact h _ mem j inner

end

/-! ### What a fixture is turned into -/

theorem mem_setIn {name : String} {value : Value} {fields : List (String × Value)}
    {entry : String × Value} (mem : entry ∈ Instance.setIn name value fields) :
    entry ∈ fields ∨ entry.2 = value := by
  induction fields with
  | nil => cases mem
  | cons first fields ih =>
      rw [Instance.setIn] at mem
      split at mem
      · rcases List.mem_cons.1 mem with rfl | mem
        · exact .inr rfl
        · exact .inl (List.mem_cons_of_mem _ mem)
      · rcases List.mem_cons.1 mem with rfl | mem
        · exact .inl (List.mem_cons_self ..)
        · exact (ih mem).imp_left (List.mem_cons_of_mem _)

theorem set_frame {i : Instance} {name : String} {value : Value} :
    (i.set name value).name = i.name ∧
      ∀ entry ∈ (i.set name value).fields, entry ∈ i.fields ∨ entry.2 = value := by
  unfold Instance.set Instance.set?
  split
  · exact ⟨rfl, fun _ mem => mem_setIn mem⟩
  · exact ⟨rfl, fun _ mem => .inl mem⟩

section

variable {P : StructSpec → Instance → Prop}

theorem nested_of_fits_empty {field : FieldSpec} {type : FieldType} {value : Value}
    (fits : value.Fits .empty m.version field type) : m.Nested P value :=
  fun j inside => absurd inside (fits.not_inValue j)

theorem nested_of_convertLeaf (field : FieldSpec) {node : Node} {type : FieldType} {label : String}
    {json : Json} {value : Value} (run : m.convertLeaf node type label json = .ok value) :
    m.Nested P value :=
  nested_of_fits_empty (convertLeaf_fits run : value.Fits .empty m.version field type)

end

mutual

/-- The structs of what a fixture gives are grounded: each instance was started from the defaults of
its struct. -/
theorem convert_grounded : ∀ (json : Json) {node : Node} {field : FieldSpec} {type : FieldType}
    {label : String} {value : Value}, Node.ofField m.registry field = .ok node →
    m.convert node type label json = .ok value → m.Nested (fun d _ => m.Grounded d) value
  | .object members, node, field, type, label, value, position, run => by
      cases type with
      | struct name =>
          rw [convert] at run
          obtain ⟨defaults, built, run⟩ := Outcome.bind_eq_ok.1 run
          obtain ⟨i, assigned, same⟩ := Outcome.bind_eq_ok.1 run
          cases same
          obtain ⟨struct?, rfl, found⟩ := ofField_eq_ok position
          cases struct? with
          | none => cases built
          | some spec =>
              have defined := (Registry.findStruct_eq_ok.1 (found spec rfl)).2
              have grounded := grounded_of_defaultInstance defined built
              obtain ⟨named, entries⟩ := assign_grounded members rfl assigned
              refine nested_struct.2 ⟨?_, ?_⟩
              · intro d found'
                rw [named, (defaultInstance_conforms built).name, defined] at found'
                exact grounded d (.inl (Option.some.inj found').symm)
              · intro entry mem
                rcases entries entry mem with kept | converted
                · intro j inside d found'
                  exact grounded d (.inr ⟨entry, kept, j, inside, found'⟩)
                · exact converted
      | _ =>
          simp only [convert] at run
          exact nested_of_convertLeaf field run
  | .array items, node, field, type, label, value, position, run => by
      cases type with
      | array element =>
          cases inside : node.element? with
          | none =>
              simp only [convert, inside] at run
              exact nested_of_convertLeaf field run
          | some element' =>
              simp only [convert, inside] at run
              obtain ⟨values, converted, same⟩ := Outcome.bind_eq_ok.1 run
              cases same
              exact nested_array.2 (convertItems_grounded items position converted)
      | _ =>
          simp only [convert] at run
          exact nested_of_convertLeaf field run
  | .null, _, field, _, _, _, _, run => by
      rw [convert] at run
      exact nested_of_convertLeaf field run
  | .bool _, _, field, _, _, _, _, run => by
      rw [convert] at run
      exact nested_of_convertLeaf field run
  | .number _, _, field, _, _, _, _, run => by
      rw [convert] at run
      exact nested_of_convertLeaf field run
  | .string _, _, field, _, _, _, _, run => by
      rw [convert] at run
      exact nested_of_convertLeaf field run

theorem convertItems_grounded : ∀ (items : List Json) {node : Node} {field : FieldSpec}
    {element : FieldType} {label : String} {index : Nat} {values : List Value},
    Node.ofField m.registry field = .ok node →
    m.convertItems node element label index items = .ok values →
    ∀ value ∈ values, m.Nested (fun d _ => m.Grounded d) value
  | [], _, _, _, _, _, _, _, run => by
      rw [convertItems] at run
      cases run
      exact fun _ mem => nomatch mem
  | item :: items, node, field, element, label, index, values, position, run => by
      obtain ⟨first, others, rfl, hfirst, hothers⟩ := convertItems_cons run
      refine List.forall_mem_cons.2 ⟨?_, convertItems_grounded items position hothers⟩
      unfold convertItem at hfirst
      split at hfirst
      · exact nested_of_fits_empty
          (nullItem_fits hfirst : first.Fits .empty m.version field element)
      · exact convert_grounded item position hfirst

theorem assign_grounded : ∀ (members : List (String × Json)) {node : Node} {spec : StructSpec}
    {i i' : Instance}, node.struct? = some spec → m.assign node i members = .ok i' →
    i'.name = i.name ∧
      ∀ entry ∈ i'.fields, entry ∈ i.fields ∨ m.Nested (fun d _ => m.Grounded d) entry.2
  | [], _, _, _, _, _, run => by
      rw [assign] at run
      cases run
      exact ⟨rfl, fun _ mem => .inl mem⟩
  | (key, json) :: members, node, spec, i, i', here, run => by
      obtain ⟨next, step, run⟩ := assign_cons.1 run
      have now : next.name = i.name ∧
          ∀ entry ∈ next.fields, entry ∈ i.fields ∨ m.Nested (fun d _ => m.Grounded d) entry.2 := by
        cases step with
        | tagged | keep => exact ⟨rfl, fun _ mem => .inl mem⟩
        | @null _ _ field _ value _ _ _ taken =>
            refine ⟨set_frame.1, fun entry mem => (set_frame.2 entry mem).imp_right ?_⟩
            intro same
            rw [same]
            exact nested_of_fits_empty (nullField_fits taken)
        | value _ selected _ converted =>
            refine ⟨set_frame.1, fun entry mem => (set_frame.2 entry mem).imp_right ?_⟩
            intro same
            rw [same]
            exact convert_grounded json (select_eq_ok here selected).2 converted
      obtain ⟨named, entries⟩ := assign_grounded members here run
      refine ⟨named.trans now.1, fun entry mem => ?_⟩
      rcases entries entry mem with kept | converted
      · exact now.2 entry kept
      · exact .inr converted

end

/-- The structs of what is nested in an instance of the message are grounded, if their references
are defined and what the registry has under the name of the message is grounded. -/
theorem grounded_of_materializeRoot {fixture : Json} {i : Instance}
    (run : m.materializeRoot fixture = .ok i)
    (defined : ∀ j : Instance, j.Within i → ∀ d, m.registry.find? j.name = some d →
      ∀ f ∈ d.fieldsAt m.version, ∀ target, f.type.structName? = some target →
        ∃ d', m.registry.find? target = some d')
    (homonym : ∀ d, m.registry.find? m.message.struct.name = some d →
      ∃ k, m.defaultInstance d = .ok k) :
    ∀ entry ∈ i.fields, m.Nested (fun d _ => m.Grounded d) entry.2 := by
  obtain ⟨members, defaults, rfl, built, assigned⟩ := materializeRoot_eq_ok.1 run
  obtain ⟨values, hvalues, rfl⟩ := defaultInstance_eq_ok.1 built
  intro entry mem
  rcases (assign_grounded members rfl assigned).2 entry mem with kept | converted
  · -- A field that kept its default: the construction of that default alone is looked at, since
    -- the defaults of the other fields may have been replaced.
    obtain ⟨f, -, alone⟩ := defaultFields_of_mem hvalues kept
    intro j inside d found
    refine grounded_of_defaultField alone ?_ ?_ d
      ⟨entry, List.mem_singleton.2 rfl, j, inside, found⟩
    · intro d' ⟨entry', mem', j', inside', found'⟩ f' hf'
      obtain rfl := List.mem_singleton.1 mem'
      exact defined j' ⟨entry', mem, inside'⟩ d' found' f' hf'
    · intro d' found'
      obtain ⟨k, built'⟩ := homonym d' found'
      have named := Registry.name_of_find? found'
      rw [← named] at found'
      exact grounded_of_defaultInstance found' built' d' (.inl rfl)
  · exact converted

end Materializer

end WireSchema
