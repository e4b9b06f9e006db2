import WireSchema.Proofs.Declarations
import WireSchema.Proofs.Rendering

/-!
# When a unit can be generated

Generation has two phases, and each ends at its first failure: the structs of the unit are listed,
then they are rendered. Whether both succeed is decided by the fields that exist at the version in
the structs that the unit **needs** (`MessageSpec.Needs`), and by nothing else:

* the structs can be listed exactly if every struct that such a field refers to is defined
  (`atVersion_succeeds_iff`);
* what is listed can be rendered exactly if every such field has a type in the target language.

Fields of other versions and structs that are not needed may be of any type. If the types are all
that is wrong, the error names the first field without a type, in the order of declaration.
-/

namespace WireSchema

/-- A type refers to no struct, or to one that the registry defines. -/
def Registry.Resolves (r : Registry) (type : FieldType) : Prop :=
  ∀ target, type.structName? = some target → ∃ spec, r.find? target = some spec

namespace MessageSpec

/-- A field that exists at the version in a struct which the unit needs. -/
def NeedsField (m : MessageSpec) (r : Registry) (v : Version) (field : FieldSpec) : Prop :=
  ∃ name spec, m.Needs r v name ∧ m.definition? r name = some spec ∧ field ∈ spec.fieldsAt v

end MessageSpec

/-! ### Listing the structs -/

namespace Registry

variable {r : Registry} {v : Version} {flexible : Bool} {pending : List FieldSpec}
  {done out : List StructAt}

theorem resolves_of_findStruct {field : FieldSpec} {spec : StructSpec}
    (found : r.findStruct field = .ok spec) : r.Resolves field.type := by
  obtain ⟨target_eq, defined⟩ := findStruct_eq_ok.1 found
  intro target target_eq'
  rw [target_eq] at target_eq'
  obtain rfl := Option.some.inj target_eq'
  exact ⟨spec, defined⟩

/-- A run that ends has resolved what was pending. -/
theorem Follows.resolves (run : Follows r v flexible pending done out) :
    ∀ field ∈ pending, r.Resolves field.type := by
  induction run with
  | nil => simp
  | plain noTarget _ ih =>
      refine List.forall_mem_cons.2 ⟨?_, ih⟩
      intro target target_eq
      simp [noTarget] at target_eq
  | skip found _ _ ih => exact List.forall_mem_cons.2 ⟨resolves_of_findStruct found, ih⟩
  | enter found _ _ _ ih =>
      have others := (List.forall_mem_append.1 ih).2
      exact List.forall_mem_cons.2 ⟨resolves_of_findStruct found, others⟩

/-- All fields of the structs in a list refer to defined structs. -/
def ResolvesAll (r : Registry) (structs : List StructAt) : Prop :=
  ∀ s ∈ structs, ∀ field ∈ s.fields, r.Resolves field.type

/-- A struct is declared together with its fields as pending ones, so a run that goes on from there
and ends has resolved them. -/
theorem ResolvesAll.declare {spec : StructSpec} {isTopLevel isCommon : Bool}
    (h : r.ResolvesAll done) (own : ∀ field ∈ spec.fieldsAt v, r.Resolves field.type) :
    r.ResolvesAll (done ++ [spec.atVersion v flexible isTopLevel isCommon]) := by
  refine List.forall_mem_append.2 ⟨h, ?_⟩
  simpa [StructSpec.atVersion, FieldSpec.atVersion] using own

theorem ResolvesAll.follows (h : r.ResolvesAll done) (run : Follows r v flexible pending done out) :
    r.ResolvesAll out := by
  induction run with
  | nil => exact h
  | plain _ _ ih => exact ih h
  | skip _ _ _ ih => exact ih h
  | enter _ _ _ next ih => exact ih (h.declare (List.forall_mem_append.1 next.resolves).1)

theorem ResolvesAll.addCommon {spec : StructSpec} (h : r.ResolvesAll done)
    (step : r.addCommon v flexible done spec = .ok out) : r.ResolvesAll out := by
  unfold Registry.addCommon at step
  split at step
  · cases step
    exact h
  · have run := follows_of_follow step
    exact (h.declare run.resolves).follows run

theorem names_subset_of_addCommon {spec : StructSpec}
    (step : r.addCommon v flexible done spec = .ok out) :
    StructAt.names done ⊆ StructAt.names out := by
  unfold Registry.addCommon at step
  split at step
  · cases step
    exact List.Subset.refl _
  · have kept := (follows_of_follow step).names_subset
    rw [StructAt.names, List.map_append] at kept
    exact (List.append_subset.1 kept).1

end Registry

namespace MessageSpec

variable {m : MessageSpec} {r : Registry} {v : Version}

/-- Where the structs can be listed, each field of them refers to a defined struct. -/
theorem resolvesAll_of_structsAt {out : List StructAt} (run : m.structsAt r v = .ok out) :
    r.ResolvesAll out := by
  obtain ⟨own, first, others⟩ := Outcome.bind_eq_ok.1 run
  have walk := Registry.follows_of_follow first
  have nothing : r.ResolvesAll [] := by simp [Registry.ResolvesAll]
  refine Outcome.foldlM_induction others ((nothing.declare walk.resolves).follows walk) ?_
  intro spec _ done next h step
  exact h.addCommon step

/-- A walk fails only at a needed field that refers to an undefined struct. -/
theorem exists_unresolved_of_follow {flexible : Bool} {pending : List FieldSpec}
    {done : List StructAt} {e : SchemaError} (top : m.struct.name ∈ StructAt.names done)
    (needed : ∀ field ∈ pending, m.NeedsField r v field)
    (run : r.follow v flexible pending done = .error e) :
    ∃ field, m.NeedsField r v field ∧ ¬ r.Resolves field.type := by
  fun_induction Registry.follow r v flexible pending done with
  | case1 => cases run
  | case2 done field rest noTarget ih => exact ih top (List.forall_mem_cons.1 needed).2 run
  | case3 done field rest target target_eq e' failed =>
      refine ⟨field, (List.forall_mem_cons.1 needed).1, ?_⟩
      intro resolves
      obtain ⟨spec, defined⟩ := resolves target target_eq
      simp [Registry.findStruct, target_eq, defined] at failed
  | case4 done field rest target target_eq spec found skipped ih =>
      exact ih top (List.forall_mem_cons.1 needed).2 run
  | case5 done field rest target target_eq spec found skipped _ _ ih =>
      obtain ⟨⟨name, source, needsSource, stands, listed⟩, others⟩ := List.forall_mem_cons.1 needed
      obtain ⟨target_eq', defined⟩ := Registry.findStruct_eq_ok.1 found
      rw [not_or] at skipped
      have needs : m.Needs r v spec.name := .refers needsSource stands listed target_eq'
      have stands' := definition?_of_fresh top skipped.2 defined
      refine ih ?_ (List.forall_mem_append.2 ⟨?_, others⟩) run
      · simp [StructAt.names] at top ⊢
        exact .inl top
      · intro inner mem
        exact ⟨spec.name, spec, needs, stands', mem⟩

theorem exists_unresolved_of_structsAt {e : SchemaError} (run : m.structsAt r v = .error e) :
    ∃ field, m.NeedsField r v field ∧ ¬ r.Resolves field.type := by
  obtain failed | ⟨own, first, failed⟩ := Outcome.bind_eq_error.1 run
  · refine exists_unresolved_of_follow (List.mem_singleton.2 rfl) ?_ failed
    intro field mem
    exact ⟨m.struct.name, m.struct, .topLevel, if_pos rfl, mem⟩
  · obtain ⟨before, spec, after, done, split, walked, step⟩ := Outcome.foldlM_eq_error failed
    have top : m.struct.name ∈ StructAt.names done := by
      refine Outcome.foldlM_induction (motive := fun done => m.struct.name ∈ StructAt.names done)
        walked ?_ ?_
      · exact (Registry.follows_of_follow first).names_subset (List.mem_singleton.2 rfl)
      · intro spec _ done next mem step
        exact Registry.names_subset_of_addCommon step mem
    have listed : spec ∈ r.commonStructs := by simp [split]
    obtain ⟨shared, defined⟩ := mem_commonStructs.1 listed
    unfold Registry.addCommon at step
    split at step
    · cases step
    · rename_i fresh
      refine exists_unresolved_of_follow ?_ ?_ step
      · rw [StructAt.names, List.map_append]
        exact List.mem_append_left _ top
      · intro field mem
        exact ⟨spec.name, spec, .common shared defined, definition?_of_fresh top fresh defined, mem⟩

/-- A field that the unit needs is a field of one of the structs listed, and these have no other
fields. -/
theorem exists_field_iff {u : MessageAt} (run : m.atVersion r v = .ok u) (field : FieldAt) :
    (∃ s ∈ u.structs, field ∈ s.fields) ↔
      ∃ spec, m.NeedsField r v spec ∧ spec.atVersion v = field := by
  obtain ⟨-, walked, -⟩ := atVersion_eq_ok.1 run
  obtain ⟨inv, shared⟩ := declaring_of_structsAt walked
  constructor
  · intro ⟨s, mem, listed⟩
    obtain ⟨struct, stands, fields⟩ := inv.definition mem
    rw [fields] at listed
    obtain ⟨spec, listed, same⟩ := List.mem_map.1 listed
    have needs := inv.needed s.name (List.mem_map_of_mem mem)
    exact ⟨spec, ⟨s.name, struct, needs, stands, listed⟩, same⟩
  · intro ⟨spec, ⟨name, struct, needs, stands, listed⟩, same⟩
    obtain ⟨s, mem, rfl⟩ := List.mem_map.1 (inv.mem_of_needs shared needs)
    obtain ⟨struct', stands', fields⟩ := inv.definition mem
    rw [stands] at stands'
    obtain rfl := Option.some.inj stands'
    refine ⟨s, mem, ?_⟩
    rw [fields, ← same]
    exact List.mem_map_of_mem listed

theorem checkVersion_eq_ok :
    m.checkVersion v = .ok () ↔
      m.validVersions.isOpenEnded = false ∧ m.validVersions.contains v = true := by
  unfold checkVersion
  cases m.validVersions.isOpenEnded <;> cases m.validVersions.contains v <;> simp

/-- The structs of a message at a version can be listed exactly if it is one of its versions, and
every needed field that refers to a struct refers to a defined one. -/
theorem atVersion_succeeds_iff :
    (∃ u, m.atVersion r v = .ok u) ↔
      m.checkVersion v = .ok () ∧ ∀ field, m.NeedsField r v field → r.Resolves field.type := by
  constructor
  · intro ⟨u, run⟩
    obtain ⟨checked, walked, -⟩ := atVersion_eq_ok.1 run
    refine ⟨checked, ?_⟩
    intro field needs
    obtain ⟨s, mem, listed⟩ := (exists_field_iff run (field.atVersion v)).2 ⟨field, needs, rfl⟩
    exact resolvesAll_of_structsAt walked s mem _ listed
  · intro ⟨checked, resolves⟩
    cases walked : m.structsAt r v with
    | ok structs => exact ⟨⟨m.name, m.role, v, structs⟩, atVersion_eq_ok.2 ⟨checked, walked, rfl⟩⟩
    | error e =>
        obtain ⟨field, needs, unresolved⟩ := exists_unresolved_of_structsAt walked
        exact absurd (resolves field needs) unresolved

end MessageSpec

/-! ### Rendering them -/

namespace Backend.Rust

variable {m : MessageAt}

/-- A field that the backend has no type for. -/
def lacksType (field : FieldAt) : Bool :=
  (typeOf? field.type).isNone

/-- The error about a field without a type. -/
def typeError (m : MessageAt) (field : FieldAt) : RenderError :=
  .unsupportedType languageName m.name m.version field.name field.type

/-- The first field without a type is what a struct fails with. -/
theorem fieldsDeclaration_eq_error {fields : List FieldAt} {field : FieldAt}
    (first : fields.find? lacksType = some field) :
    (fieldsDeclaration m fields).text = .error (typeError m field) := by
  induction fields with
  | nil => simp at first
  | cons head fields ih =>
      rw [fieldsDeclaration]
      cases typed : typeOf? head.type with
      | none =>
          rw [List.find?_cons_of_pos (by simp [lacksType, typed])] at first
          cases first
          rfl
      | some type =>
          rw [List.find?_cons_of_neg (by simp [lacksType, typed])] at first
          show Except.map _ (fieldsDeclaration m fields).text = _
          rw [ih first]
          rfl

theorem structDeclaration_eq_error {s : StructAt} {field : FieldAt}
    (first : s.fields.find? lacksType = some field) :
    (structDeclaration m s).text = .error (typeError m field) := by
  simp [structDeclaration, fieldsDeclaration_eq_error first]

/-- The first field without a type, struct by struct, is what a unit fails with. -/
theorem declareAll_eq_error {withTests : Bool} (imports : Imports) {structs : List StructAt}
    {field : FieldAt} (first : (structs.flatMap (·.fields)).find? lacksType = some field) :
    (rust withTests).declareAll m imports structs = .error (typeError m field) := by
  induction structs generalizing imports with
  | nil => simp at first
  | cons s structs ih =>
      rw [List.flatMap_cons, List.find?_append] at first
      rw [declareAll]
      cases here : s.fields.find? lacksType with
      | some found =>
          rw [here] at first
          cases first
          have failed : ((rust withTests).declare m s).text = .error (typeError m field) :=
            structDeclaration_eq_error here
          rw [failed]
          rfl
      | none =>
          rw [here, Option.none_or] at first
          have typed : ∀ field ∈ s.fields, (typeOf? field.type).isSome = true := by
            simpa [lacksType, List.find?_eq_none, Option.isSome_iff_ne_none] using here
          obtain ⟨text, rendered⟩ := (structDeclaration_succeeds_iff (m := m)).2 typed
          have rendered' : ((rust withTests).declare m s).text = .ok text := rendered
          rw [rendered']
          show (declareAll _ m _ structs >>= _) = _
          rw [ih _ first]
          rfl

theorem unitText_eq_error {withTests : Bool} {field : FieldAt}
    (first : (m.structs.flatMap (·.fields)).find? lacksType = some field) :
    (rust withTests).unitText m = .error (typeError m field) := by
  rw [unitText, declareAll_eq_error _ first]
  rfl

end Backend.Rust

open Backend.Rust (typeOf? lacksType languageName)

/-- **When a unit can be generated.** The Rust backend generates the unit of a message at a version
if and only if

* the versions of the message are finite and the version is one of them,
* every struct that a needed field refers to, directly or as element of an array, is defined, and
* every needed field is of a kind that the backend has a type for,

where the needed fields are those that exist at the version in the least set of structs with the
top-level struct and the defined common structs that is closed under their references. If only the
last of these fails, the error is about the first field without a type in the order of declaration,
and gives its name and kind, the message and the version. -/
theorem generate_succeeds_iff_needed {withTests : Bool} {m : MessageSpec} {r : Registry}
    {v : Version} :
    ((∃ text, (Backend.rust withTests).generate m r v = .ok text) ↔
      (m.validVersions.isOpenEnded = false ∧ m.validVersions.contains v = true) ∧
      (∀ field, m.NeedsField r v field → r.Resolves field.type) ∧
      ∀ field, m.NeedsField r v field → (typeOf? field.type).isSome = true) ∧
    ((m.validVersions.isOpenEnded = false ∧ m.validVersions.contains v = true) →
      (∀ field, m.NeedsField r v field → r.Resolves field.type) →
      (∃ field, m.NeedsField r v field ∧ typeOf? field.type = none) →
      ∃ u field, m.atVersion r v = .ok u ∧
        (u.structs.flatMap (·.fields)).find? lacksType = some field ∧
        (Backend.rust withTests).generate m r v =
          .error (.unsupportedType languageName m.name v field.name field.type)) := by
  rw [← MessageSpec.checkVersion_eq_ok]
  constructor
  · rw [Backend.Rust.generate_succeeds_iff, ← and_assoc, ← MessageSpec.atVersion_succeeds_iff]
    constructor
    · intro ⟨u, run, typed⟩
      refine ⟨⟨u, run⟩, ?_⟩
      intro field needs
      obtain ⟨s, mem, listed⟩ :=
        (MessageSpec.exists_field_iff run (field.atVersion v)).2 ⟨field, needs, rfl⟩
      exact typed s mem _ listed
    · intro ⟨⟨u, run⟩, typed⟩
      refine ⟨u, run, ?_⟩
      intro s mem field listed
      obtain ⟨spec, needs, rfl⟩ := (MessageSpec.exists_field_iff run field).1 ⟨s, mem, listed⟩
      exact typed spec needs
  · intro checked resolves ⟨spec, needs, untyped⟩
    obtain ⟨u, run⟩ := MessageSpec.atVersion_succeeds_iff.2 ⟨checked, resolves⟩
    obtain ⟨s, mem, listed⟩ :=
      (MessageSpec.exists_field_iff run (spec.atVersion v)).2 ⟨spec, needs, rfl⟩
    have lacking : ((u.structs.flatMap (·.fields)).find? lacksType).isSome := by
      rw [List.find?_isSome]
      exact ⟨spec.atVersion v, List.mem_flatMap.2 ⟨s, mem, listed⟩, by
        simp [lacksType, FieldSpec.atVersion, untyped]⟩
    obtain ⟨field, first⟩ := Option.isSome_iff_exists.1 lacking
    refine ⟨u, field, run, first, ?_⟩
    obtain ⟨-, -, same⟩ := MessageSpec.atVersion_eq_ok.1 run
    rw [Backend.generate, run]
    show (Backend.rust withTests).unitText u = _
    rw [Backend.Rust.unitText_eq_error first, same]
    rfl

/-! ### A field that cannot be rendered -/

namespace Sample

def hand : FieldSpec :=
  ⟨"Hand", .unsupported "float16", ⟨1, 1⟩, none, none, .none, none, none, none⟩

def dial : StructSpec := ⟨"Dial", ⟨0, 1⟩, [hand]⟩

/-- A message whose nested struct has a field of an unsupported type from version 1 on. -/
def gauge : MessageSpec where
  name := "Gauge"
  apiKey := none
  role := .data
  validVersions := ⟨0, 1⟩
  flexibleVersions := .none
  struct := ⟨"Gauge", ⟨0, 1⟩,
    [⟨"Dials", .array (.struct "Dial"), ⟨0, 1⟩, none, none, .none, none, none, some dial⟩]⟩
  commonStructs := []

def gaugeRegistry : Registry where
  definitions := [dial]
  firstSites := [("Dial", ⟨"Gauge", "Gauge", "Dials"⟩)]
  visited := [⟨"Gauge", "Gauge", "Dials"⟩]
  common := []
  distinct := by decide

def gaugeAt (v : Version) : MessageAt where
  name := "Gauge"
  role := .data
  version := v
  structs := [gauge.struct.atVersion v false true false, dial.atVersion v false false false]

theorem atVersion_gauge_zero : gauge.atVersion gaugeRegistry 0 = .ok (gaugeAt 0) := by
  cbv

theorem atVersion_gauge_one : gauge.atVersion gaugeRegistry 1 = .ok (gaugeAt 1) := by
  cbv

theorem needsField_hand : gauge.NeedsField gaugeRegistry 1 hand :=
  ⟨"Dial", dial, .refers .topLevel rfl (List.mem_singleton.2 rfl) rfl, rfl,
    List.mem_singleton.2 rfl⟩

/-- The field is not in the way where it does not exist, and is what is named where it does. -/
theorem gauge_generated_at_zero :
    (∃ text, (Backend.rust true).generate gauge gaugeRegistry 0 = .ok text) ∧
      (Backend.rust true).generate gauge gaugeRegistry 1 =
        .error (.unsupportedType "rust" "Gauge" 1 "Hand" (.unsupported "float16")) := by
  constructor
  · refine generate_succeeds_iff_needed.1.2 ⟨by decide, ?_, ?_⟩
    · exact (MessageSpec.atVersion_succeeds_iff.1 ⟨_, atVersion_gauge_zero⟩).2
    · intro field needs
      obtain ⟨s, mem, listed⟩ := (MessageSpec.exists_field_iff atVersion_gauge_zero
        (field.atVersion 0)).2 ⟨field, needs, rfl⟩
      have typed : ∀ s ∈ (gaugeAt 0).structs, ∀ field ∈ s.fields,
          (typeOf? field.type).isSome = true := by decide
      exact typed s mem _ listed
  · have resolves := (MessageSpec.atVersion_succeeds_iff.1 ⟨_, atVersion_gauge_one⟩).2
    obtain ⟨-, fails⟩ := @generate_succeeds_iff_needed true gauge gaugeRegistry 1
    obtain ⟨u, field, run, first, failed⟩ :=
      fails (by decide) resolves ⟨hand, needsField_hand, rfl⟩
    obtain rfl := Except.ok.inj (run.symm.trans atVersion_gauge_one)
    obtain rfl : hand.atVersion 1 = field := Option.some.inj first
    exact failed

end Sample

end WireSchema
