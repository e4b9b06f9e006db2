import WireSchema.Proofs.Effects
import WireSchema.Proofs.Texts

/-!
# Positions suit the types read at them

A fixture is read with two guides, the position reached and the type expected there, and a key is
looked up twice: once to settle its spelling, once to find the field. Errors stand ready for the
case that the two do not agree. None of them can arise:

* a position that a field leads to has a struct where the type of the field, or of its elements, is
  a struct, and has elements where it is an array (`convert_external`);
* a spelling that was settled on names a field of the struct (`lookup_of_normalize`);
* a field that exists at the version has its place in every instance on the way
  (`mem_fieldNames_of_select`), so no value is lost.

What is left are errors about the schema, about the keys of the fixture, and about its values.
-/

namespace WireSchema

open Fixture (Node)

/-! ### Internal errors -/

/-- The reasons that blame a value for a position that does not suit its type. -/
def ValueFault.internalReasons : List String :=
  ["not a struct-typed field", "not an array field", "top-level fixture is null"]

/-- An error that would show the materializer at odds with itself. -/
def FixtureError.IsInternal : FixtureError → Prop
  | .fieldNotFound _ _ => True
  | .value _ _ _ fault => fault.message ∈ ValueFault.internalReasons
  | _ => False

theorem IntWidth.getLast?_name (width : IntWidth) :
    ∃ c, width.name.toList.getLast? = some c ∧ c ≠ 'd' ∧ c ≠ 'l' := by
  cases width <;> exact ⟨_, rfl, by decide, by decide⟩

theorem ValueFault.eq_of_internal {fault : ValueFault}
    (internal : fault.message ∈ internalReasons) :
    fault = .notStruct ∨ fault = .notArrayField ∨ fault = .rootNull := by
  have ends : ∀ text ∈ internalReasons,
      (text.toList.head? = some 'n' ∨ text.toList.head? = some 't') ∧
        (text.toList.getLast? = some 'd' ∨ text.toList.getLast? = some 'l') := by decide
  obtain ⟨first, last⟩ := ends _ internal
  -- A text with parts that vary is told apart by its first character, or else by its last.
  have differs : ∀ {c}, fault.message.toList.head? = some c → c = 'n' ∨ c = 't' := by
    intro c starts
    simpa [starts] using first
  cases fault with
  | notStruct => exact .inl rfl
  | notArrayField => exact .inr (.inl rfl)
  | rootNull => exact .inr (.inr rfl)
  | rootNotObject found => cases found <;> exact absurd internal (by decide)
  | mismatch expected found =>
      have starts : ("expected " ++ expected.text ++ ", found ").toList.head? = some 'e' :=
        Text.head?_append (Text.head?_append (by decide) _) _
      have := differs (Text.head?_append starts _)
      simp at this
  | outOfRange n width =>
      obtain ⟨c, name, notD, notL⟩ := width.getLast?_name
      have ending : (ValueFault.outOfRange n width).message.toList.getLast? = some c :=
        Text.getLast?_append name _
      simp [ending, notD, notL] at last
  | badHex fault =>
      have := differs (Text.head?_append (c := 'i') (by decide) _)
      simp at this
  | badUuid text fault =>
      have starts : ("invalid UUID '" ++ text ++ "': ").toList.head? = some 'i' :=
        Text.head?_append (Text.head?_append (by decide) _) _
      have := differs (Text.head?_append starts _)
      simp at this
  | absent versions =>
      have := differs (Text.head?_append (Text.head?_append (c := 'f') (by decide) _) _)
      simp at this
  | nullScalar | nullItem | notArray => exact absurd internal (by decide)

/-! ### Keys -/

/-- A key is settled on a spelling that is known, or it is unknown in all its spellings. -/
theorem Fixture.normalize_cases (known : List String) (key : String) :
    (∃ canonical, normalize known key = .ok canonical ∧ isKnown known canonical = true) ∨
      ∃ tried, normalize known key = .error (.unknownKey key tried) := by
  unfold normalize
  dsimp only
  split
  · exact .inl ⟨_, rfl, by assumption⟩
  · split
    · exact .inl ⟨_, rfl, by assumption⟩
    · split
      · exact .inr ⟨_, rfl⟩
      · split
        · exact .inl ⟨_, rfl, by assumption⟩
        · exact .inr ⟨_, rfl⟩

theorem StructSpec.field?_isSome {spec : StructSpec} {name : String}
    (mem : name ∈ spec.fieldNames) : ∃ field, spec.field? name = some field := by
  obtain ⟨field, listed, rfl⟩ := List.mem_map.1 mem
  exact Option.isSome_iff_exists.1 (List.find?_isSome.2 ⟨field, listed, by simp⟩)

/-- The two look-ups of a key agree: the spelling that is settled on names a field. -/
theorem Fixture.lookup_of_normalize {node : Node} {key canonical : String}
    (h : Fixture.normalize node.knownNames key = .ok canonical) :
    ∃ spec field, node.struct? = some spec ∧ node.lookup canonical = .ok field ∧
      field ∈ spec.fields := by
  have known : isKnown node.knownNames canonical = true := by
    rcases normalize_cases node.knownNames key with ⟨_, settled, known⟩ | ⟨_, unknown⟩
    · cases h.symm.trans settled
      exact known
    · cases h.symm.trans unknown
  unfold Node.knownNames at known
  cases here : node.struct? with
  | none => cases spelled : alias? canonical <;> simp [isKnown, here, spelled] at known
  | some spec =>
      simp only [here] at known
      have found : ∃ field,
          (node.declared? canonical).or ((alias? canonical).bind node.declared?) = some field := by
        rw [isKnown, Bool.or_eq_true, List.contains_iff_mem] at known
        rcases known with direct | spelled
        · obtain ⟨field, declared⟩ := StructSpec.field?_isSome direct
          exact ⟨field, by simp [Node.declared?, here, declared]⟩
        · cases other : alias? canonical with
          | none => simp [other] at spelled
          | some name =>
              rw [other, List.contains_iff_mem] at spelled
              obtain ⟨field, declared⟩ := StructSpec.field?_isSome spelled
              cases node.declared? canonical <;> simp [Node.declared?, here, declared]
      obtain ⟨field, found⟩ := found
      have looked : node.lookup canonical = .ok field := by rw [Node.lookup, found]
      exact ⟨spec, field, rfl, looked,
        List.mem_of_find?_eq_some (Materializer.field?_of_lookup here looked)⟩

namespace Materializer

variable {m : Materializer}

theorem external_of_ne {label : String} {fault : ValueFault}
    (other : fault ≠ .notStruct ∧ fault ≠ .notArrayField ∧ fault ≠ .rootNull) :
    ¬ (m.valueError label fault).IsInternal := by
  intro internal
  rcases ValueFault.eq_of_internal internal with same | same | same
  · exact other.1 same
  · exact other.2.1 same
  · exact other.2.2 same

theorem select_external {node : Node} {key : String} {e : FixtureError}
    (h : m.select node key = .error e) : ¬ e.IsInternal := by
  rw [select_eq] at h
  rcases Outcome.bind_eq_error.1 h with unknown | ⟨canonical, settled, h⟩
  · rcases Fixture.normalize_cases node.knownNames key with ⟨_, settled, -⟩ | ⟨_, tried⟩
    · cases unknown.symm.trans settled
    · cases unknown.symm.trans tried
      exact id
  rcases Outcome.bind_eq_error.1 h with missing | ⟨field, -, h⟩
  · obtain ⟨_, _, -, found, -⟩ := Fixture.lookup_of_normalize settled
    cases missing.symm.trans found
  rcases Outcome.bind_eq_error.1 h with undefined | ⟨child, -, h⟩
  · unfold Node.ofField at undefined
    split at undefined
    · cases undefined
    · split at undefined
      · cases undefined
        exact id
      · cases undefined
  · split at h
    · cases h
    · cases h
      exact external_of_ne (by simp)

/-- A field that a key selects has its place in every instance with the fields of the struct. -/
theorem mem_fieldNames_of_select {node : Node} {spec : StructSpec} {key : String}
    {field : FieldSpec} {child : Node} {i : Instance} (here : node.struct? = some spec)
    (names : i.fieldNames = (spec.fieldsAt m.version).map (·.name))
    (selected : m.select node key = .ok (field, child)) : field.name ∈ i.fieldNames := by
  obtain ⟨first, -⟩ := select_eq_ok here selected
  rw [names]
  exact List.mem_map_of_mem (List.mem_of_find?_eq_some first)

/-! ### Values without parts -/

theorem locate_eq_error {α : Type} {label : String} {x : Except ValueFault α} {e : FixtureError}
    (h : m.locate label x = .error e) :
    ∃ fault, x = .error fault ∧ e = m.valueError label fault := by
  cases x with
  | ok a => cases h
  | error fault =>
      cases h
      exact ⟨fault, rfl, rfl⟩

theorem convertLeaf_external {node : Node} {type : FieldType} {label : String} {json : Json}
    {e : FixtureError} (struct : ∀ name, type = .struct name → ∃ spec, node.struct? = some spec)
    (array : ∀ element, type = .array element → ∃ element', node.element? = some element')
    (h : m.convertLeaf node type label json = .error e) : ¬ e.IsInternal := by
  cases type with
  | bool | string =>
      simp only [convertLeaf] at h
      split at h
      · cases h
      · cases h
        exact external_of_ne (by simp)
  | int width =>
      obtain ⟨fault, failed, rfl⟩ := locate_eq_error h
      unfold convertInteger at failed
      split at failed
      · cases failed
        exact external_of_ne (by simp)
      · split at failed
        · cases failed
        · cases failed
          exact external_of_ne (by simp)
  | float64 =>
      obtain ⟨fault, failed, rfl⟩ := locate_eq_error h
      unfold convertFloat at failed
      split at failed
      · cases failed
      · cases failed
      · cases failed
        exact external_of_ne (by simp)
  | bytes | records =>
      obtain ⟨fault, failed, rfl⟩ := locate_eq_error h
      rw [Outcome.map_eq_error] at failed
      unfold convertHex at failed
      split at failed
      · split at failed
        · cases failed
        · cases failed
          exact external_of_ne (by simp)
      · cases failed
        exact external_of_ne (by simp)
  | uuid =>
      obtain ⟨fault, failed, rfl⟩ := locate_eq_error h
      unfold convertUuid at failed
      split at failed
      · split at failed
        · cases failed
        · cases failed
          exact external_of_ne (by simp)
      · cases failed
        exact external_of_ne (by simp)
  | struct name =>
      obtain ⟨spec, here⟩ := struct name rfl
      simp only [convertLeaf, here] at h
      split at h
      · cases h
      · cases h
        exact external_of_ne (by simp)
  | array element =>
      obtain ⟨element', here⟩ := array element rfl
      simp only [convertLeaf, here] at h
      cases h
      exact external_of_ne (by simp)
  | unsupported raw =>
      cases h
      exact id

theorem nullField_external {field : FieldSpec} {e : FixtureError}
    (h : m.nullField field = .error e) : ¬ e.IsInternal := by
  unfold nullField at h
  cases type : field.type <;> simp only [type] at h
  case bool | int | float64 =>
    split at h
    · cases h
    · cases h
      exact external_of_ne (by simp)
  case unsupported =>
    cases h
    exact id
  all_goals cases h

theorem nullItem_external {type : FieldType} {label : String} {e : FixtureError}
    (h : m.nullItem type label = .error e) : ¬ e.IsInternal := by
  unfold nullItem at h
  cases type with
  | bool | int | float64 =>
      cases h
      exact external_of_ne (by simp)
  | unsupported =>
      cases h
      exact id
  | uuid | string | bytes | records | struct | array => cases h

theorem readTagged_external {json : Json} {e : FixtureError} (h : readTagged json = .error e) :
    ¬ e.IsInternal := by
  unfold readTagged at h
  split at h
  · cases h
  · cases h
    exact id

/-! ### Defaults -/

theorem defaultStep_external {path : List String} {field : FieldSpec} {e : FixtureError}
    (h : m.defaultStep path field = .error e) : ¬ e.IsInternal := by
  unfold defaultStep declaredDefault at h
  split at h
  · rename_i malformed
    cases h
    split at malformed
    · cases malformed
    · split at malformed
      · cases malformed
      · split at malformed
        · cases malformed
        · cases malformed
          exact id
  · cases h
  · split at h
    · split at h
      · cases h
      · split at h
        · cases h
          exact id
        · cases h
    · split at h
      · cases h
      · cases h
        exact id

theorem defaultFields_external {path : List String} {fields : List FieldSpec} {u : Unfinished}
    (run : m.defaultFields path fields = .error u) : ¬ u.error.IsInternal := by
  fun_induction Materializer.defaultFields m path fields with
  | case1 => cases run
  | case2 path field rest e step =>
      cases run
      exact defaultStep_external step
  | case3 path field rest value step ih =>
      rcases Outcome.bind_eq_error.1 run with failed | ⟨_, _, ⟨⟩⟩
      exact ih failed
  | case4 path field rest spec step _ _ ihInner ihRest =>
      rcases Outcome.bind_eq_error.1 run with failed | ⟨inner, _, run⟩
      · exact ihInner failed
      · rcases Outcome.bind_eq_error.1 run with failed | ⟨_, _, ⟨⟩⟩
        exact ihRest failed

theorem defaultInstance_external {spec : StructSpec} {e : FixtureError}
    (run : m.defaultInstance spec = .error e) : ¬ e.IsInternal := by
  obtain ⟨u, failed, rfl⟩ := defaultInstance_eq_error run
  exact defaultFields_external failed

/-! ### Fixtures -/

/-- The position of a field suits the type of the field, and that of its elements. -/
theorem struct?_of_ofField {r : Registry} {field : FieldSpec} {node : Node} {type : FieldType}
    {name : String} (position : Node.ofField r field = .ok node)
    (typed : type = field.type ∨ field.type = .array type) (struct : type = .struct name) :
    ∃ spec, node.struct? = some spec := by
  have target : field.type.structName? = some name := by
    rcases typed with same | inside
    · rw [← same, struct]
      rfl
    · rw [inside, struct]
      rfl
  unfold Node.ofField at position
  split at position
  · rename_i none
    cases none.symm.trans target
  · split at position
    · cases position
    · rename_i spec _
      cases position
      exact ⟨spec, rfl⟩

/-- At a position with elements these are the elements of the field's type. -/
theorem exists_element {r : Registry} {field : FieldSpec} {node : Node} {type element : FieldType}
    (position : Node.ofField r field = .ok node)
    (typed : type = field.type ∨ field.type = .array type) (array : type = .array element) :
    ∃ element', node.element? = some element' ∧ field.type = .array element' := by
  rcases typed with same | inside
  · exact ⟨element, element?_of_ofField position (same.symm.trans array), same.symm.trans array⟩
  · exact ⟨type, element?_of_ofField position inside, inside⟩

theorem leaf_external {field : FieldSpec} {node : Node} {type : FieldType} {label : String}
    {json : Json} {e : FixtureError} (position : Node.ofField m.registry field = .ok node)
    (typed : type = field.type ∨ field.type = .array type)
    (run : m.convertLeaf node type label json = .error e) : ¬ e.IsInternal := by
  refine convertLeaf_external (fun name same => struct?_of_ofField position typed same) ?_ run
  intro element same
  obtain ⟨element', here, -⟩ := exists_element position typed same
  exact ⟨element', here⟩

theorem effect_external {node : Node} {key : String} {json : Json} {e : FixtureError}
    (value : ∀ field child, m.select node key = .ok (field, child) →
      m.convert child field.type field.name json = .error e → ¬ e.IsInternal)
    (h : m.effect node (key, json) = .error e) : ¬ e.IsInternal := by
  by_cases reserved : key = unknownTaggedKey
  · subst reserved
    rw [effect_tagged, Outcome.map_eq_error] at h
    exact readTagged_external h
  · cases selected : m.select node key with
    | error e' =>
        rw [effect, if_neg reserved, selected] at h
        cases h
        exact select_external selected
    | ok found =>
        obtain ⟨field, child⟩ := found
        rw [effect_of_selected reserved selected, Outcome.map_eq_error, given] at h
        split at h
        · exact nullField_external h
        · exact value field child selected (Outcome.map_eq_error.1 h)

mutual

/-- No internal error at a position that a field leads to, where the type is that of the field or
of its elements. -/
theorem convert_external : ∀ (json : Json) {node : Node} {field : FieldSpec} {type : FieldType}
      {label : String} {e : FixtureError}, Node.ofField m.registry field = .ok node →
      type = field.type ∨ field.type = .array type → m.convert node type label json = .error e →
      ¬ e.IsInternal
  | .object members, node, field, type, label, e, position, typed, run => by
      cases type with
      | struct name =>
          rw [convert] at run
          obtain ⟨spec, here⟩ := struct?_of_ofField position typed rfl
          rcases Outcome.bind_eq_error.1 run with failed | ⟨defaults, -, run⟩
          · rw [start, here] at failed
            exact defaultInstance_external failed
          · rcases Outcome.bind_eq_error.1 run with failed | ⟨_, _, ⟨⟩⟩
            obtain ⟨member, mem, failed⟩ := assign_eq_error failed
            exact members_external members here member mem failed
      | _ =>
          simp only [convert] at run
          exact leaf_external position typed run
  | .array items, node, field, type, label, e, position, typed, run => by
      cases type with
      | array element =>
          obtain ⟨element', here, inside⟩ := exists_element position typed rfl
          simp only [convert, here] at run
          rcases Outcome.bind_eq_error.1 run with failed | ⟨_, _, ⟨⟩⟩
          exact convertItems_external items position inside failed
      | _ =>
          simp only [convert] at run
          exact leaf_external position typed run
  | .null, _, _, _, _, _, position, typed, run => by
      rw [convert] at run
      exact leaf_external position typed run
  | .bool _, _, _, _, _, _, position, typed, run => by
      rw [convert] at run
      exact leaf_external position typed run
  | .number _, _, _, _, _, _, position, typed, run => by
      rw [convert] at run
      exact leaf_external position typed run
  | .string _, _, _, _, _, _, position, typed, run => by
      rw [convert] at run
      exact leaf_external position typed run

theorem convertItems_external : ∀ (items : List Json) {node : Node} {field : FieldSpec}
      {element : FieldType} {label : String} {index : Nat} {e : FixtureError},
      Node.ofField m.registry field = .ok node → field.type = .array element →
      m.convertItems node element label index items = .error e → ¬ e.IsInternal
  | [], _, _, _, _, _, _, _, _, run => by
      rw [convertItems] at run
      cases run
  | item :: items, node, field, element, label, index, e, position, inside, run => by
      rw [convertItems_cons_eq] at run
      rcases Outcome.bind_eq_error.1 run with failed | ⟨value, -, run⟩
      · unfold convertItem at failed
        split at failed
        · exact nullItem_external failed
        · exact convert_external item position (.inr inside) failed
      · exact convertItems_external items position inside (Outcome.map_eq_error.1 run)

theorem members_external : ∀ (members : List (String × Json)) {node : Node} {spec : StructSpec}
      {e : FixtureError}, node.struct? = some spec → ∀ member ∈ members,
      m.effect node member = .error e → ¬ e.IsInternal
  | [], _, _, _, _ => nofun
  | (key, json) :: members, node, spec, e, here => by
      intro member mem failed
      rcases List.mem_cons.1 mem with rfl | later
      · refine effect_external (fun field child selected failed => ?_) failed
        exact convert_external json (select_eq_ok here selected).2 (.inl rfl) failed
      · exact members_external members here member later failed

end

theorem materializeRoot_external {fixture : Json} {e : FixtureError}
    (run : m.materializeRoot fixture = .error e) : ¬ e.IsInternal := by
  cases fixture with
  | object members =>
      rw [materializeRoot_object] at run
      rcases Outcome.bind_eq_error.1 run with failed | ⟨defaults, -, failed⟩
      · exact defaultInstance_external failed
      · obtain ⟨member, mem, failed⟩ := assign_eq_error failed
        exact members_external members rfl member mem failed
  | _ =>
      cases run
      exact external_of_ne (by simp)

/-- An object at the top level always gives an instance, if it gives anything. -/
theorem materialize_root (members : List (String × Json)) :
    m.materialize m.root (.object members) = (m.materializeRoot (.object members)).map some := by
  have start_eq : m.start m.root = m.defaultInstance m.message.struct := rfl
  simp only [materialize, materializeRoot_object, start_eq]
  cases m.defaultInstance m.message.struct with
  | error e => rfl
  | ok defaults =>
      change (m.assign m.root defaults members >>= _) = (m.assign m.root defaults members).map some
      cases m.assign m.root defaults members <;> rfl

/-- On the way, an instance has the fields of its struct at the version. -/
theorem fieldNames_of_assign {node : Node} {defaults i : Instance} {members : List (String × Json)}
    (started : m.start node = .ok defaults) (run : m.assign node defaults members = .ok i) :
    ∃ spec, node.struct? = some spec ∧
      i.fieldNames = (spec.fieldsAt m.version).map (·.name) := by
  unfold start at started
  split at started
  · cases started
  · rename_i spec here
    refine ⟨spec, here, ?_⟩
    obtain ⟨es, -, rfl⟩ := assign_eq_ok.1 run
    rw [Effect.fieldNames_foldl]
    exact (defaultInstance_conforms started).fieldNames

theorem unknownTagged_of_start {node : Node} {defaults : Instance}
    (started : m.start node = .ok defaults) : defaults.unknownTagged = [] := by
  unfold start at started
  split at started
  · cases started
  · obtain ⟨fields, -, rfl⟩ := defaultInstance_eq_ok.1 started
    rfl

/-- A value that no later member replaces is in the instance at the end. -/
theorem get?_of_given {node : Node} {defaults i : Instance} {before after : List (String × Json)}
    {key : String} {json : Json} {field : FieldSpec} {child : Node} {value : Value}
    (started : m.start node = .ok defaults)
    (run : m.assign node defaults (before ++ (key, json) :: after) = .ok i)
    (ordinary : key ≠ unknownTaggedKey) (selected : m.select node key = .ok (field, child))
    (taken : m.given field child json = .ok (some value))
    (last : ∀ later ∈ after, ∀ value', m.effect node later ≠ .ok (.give field.name value')) :
    i.get? field.name = some value := by
  obtain ⟨spec, here, names⟩ := fieldNames_of_assign started run
  have present := mem_fieldNames_of_select here names selected
  obtain ⟨es, each, rfl⟩ := assign_eq_ok.1 run
  obtain ⟨done, e, rest, rfl, effect, later⟩ := Outcome.exists_split each
  rw [effect_of_selected ordinary selected, taken] at effect
  cases effect
  rw [Effect.fieldNames_foldl] at present
  refine Effect.get?_foldl_of_last present ?_
  intro e mem value' same
  obtain ⟨member, listed, given⟩ := Outcome.exists_of_mem_right later mem
  exact last member listed value' (same ▸ given)

end Materializer

/-- **The materializer never contradicts itself.** For every message, every registry, every version
and every fixture: no error says that a field was not found in its struct, that a position has no
struct or no elements, or that the top-level fixture is null; at the top level an object is never
absent. A key that is settled on a spelling names a field of the struct, and the position that it
leads to is at that field. A field that a key selects has its place in the instance at every stage,
and what a member gives to it is there at the end, unless a later member replaces it. The unknown
tagged fields at the end are those of all reserved entries. -/
theorem fixture_faults_external (m : Materializer) :
    (∀ fixture e, m.materializeRoot fixture = .error e → ¬ e.IsInternal) ∧
    (∀ members, m.materialize m.root (.object members) =
      (m.materializeRoot (.object members)).map some) ∧
    (∀ (node : Node) key canonical, Fixture.normalize node.knownNames key = .ok canonical →
      ∃ spec field, node.struct? = some spec ∧ node.lookup canonical = .ok field ∧
        field ∈ spec.fields ∧
        ∀ child, node.child m.registry canonical = .ok child → child.field? = some field) ∧
    (∀ node defaults members i key field child value, m.start node = .ok defaults →
      m.assign node defaults members = .ok i → m.select node key = .ok (field, child) →
      ∃ i', i.set? field.name value = some i' ∧ i'.get? field.name = some value) ∧
    (∀ node defaults before key json after i field child value, m.start node = .ok defaults →
      m.assign node defaults (before ++ (key, json) :: after) = .ok i → key ≠ unknownTaggedKey →
      m.select node key = .ok (field, child) → m.given field child json = .ok (some value) →
      (∀ later ∈ after, ∀ value', m.effect node later ≠ .ok (.give field.name value')) →
      i.get? field.name = some value) ∧
    (∀ node defaults members i, m.start node = .ok defaults →
      m.assign node defaults members = .ok i →
      ∃ lists, List.Forall₂ (fun member tagged => Materializer.readTagged member.2 = .ok tagged)
          (members.filter (·.1 = unknownTaggedKey)) lists ∧
        i.unknownTagged = lists.flatten) := by
  refine ⟨fun _ _ run => m.materializeRoot_external run, m.materialize_root, ?_, ?_, ?_, ?_⟩
  · intro node key canonical settled
    obtain ⟨spec, field, here, looked, listed⟩ := Fixture.lookup_of_normalize settled
    refine ⟨spec, field, here, looked, listed, fun child reached => ?_⟩
    obtain ⟨found, again, position⟩ := Outcome.bind_eq_ok.1 reached
    cases looked.symm.trans again
    exact Materializer.field?_of_ofField position
  · intro node defaults members i key field child value started run selected
    obtain ⟨spec, here, names⟩ := Materializer.fieldNames_of_assign started run
    have present := Materializer.mem_fieldNames_of_select here names selected
    exact ⟨_, Instance.set?_eq_some present value, Instance.get?_set_self present value⟩
  · intro node defaults before key json after i field child value started run ordinary selected
      taken last
    exact Materializer.get?_of_given started run ordinary selected taken last
  · intro node defaults members i started run
    obtain ⟨lists, each, kept⟩ := Materializer.unknownTagged_of_assign run
    refine ⟨lists, each, ?_⟩
    rw [kept, Materializer.unknownTagged_of_start started, List.nil_append]

namespace Sample

/-- The members of a fixture with the note in two spellings, and a reserved entry in between. -/
def noteMembers : List (String × Json) :=
  [("note", .string "draft"), (unknownTaggedKey, .array [.array [.ofInt 5, .string "ff"]]),
    ("Note", .string "final")]

/-- The instance of the fixture. -/
def noteInstance : Instance :=
  ⟨"Journal", [("Head", .struct (entryInstance .null [])), ("Note", .string "final")], [⟨5, [255]⟩]⟩

theorem readTagged_noteMembers :
    Materializer.readTagged (.array [.array [.ofInt 5, .string "ff"]]) = .ok [⟨5, [255]⟩] := by
  decide

theorem assign_noteMembers : journalMaterializer.assign journalMaterializer.root
    ⟨"Journal", [("Head", .struct (entryInstance .null [])), ("Note", .string "")], []⟩
    noteMembers = .ok noteInstance := by
  refine Materializer.assign_cons.2 ⟨_, .value (by decide) rfl rfl rfl, ?_⟩
  refine Materializer.assign_cons.2 ⟨_, .tagged readTagged_noteMembers, ?_⟩
  exact Materializer.assign_cons.2 ⟨_, .value (by decide) rfl rfl rfl, rfl⟩

/-- An unknown key is refused for what it is. In the other fixture the second spelling of the note
replaces the first, and the entry between them is kept. -/
theorem journal_members_kept :
    (∃ e, journalMaterializer.materializeRoot (.object [("Author", .null)]) = .error e ∧
      ¬ e.IsInternal) ∧
    journalMaterializer.materializeRoot (.object noteMembers) = .ok noteInstance ∧
    journalMaterializer.materialize journalMaterializer.root (.object noteMembers) =
      .ok (some noteInstance) ∧
    (∃ field child, journalMaterializer.root.lookup "Note" = .ok field ∧
      journalMaterializer.root.child journalRegistry "Note" = .ok child ∧
      child.field? = some field) ∧
    (∃ i, noteInstance.set? "Note" .null = some i ∧ i.get? "Note" = some .null) ∧
    noteInstance.get? "Note" = some (.string "final") ∧
    noteInstance.unknownTagged = [⟨5, [255]⟩] := by
  obtain ⟨external, present, looked, placed, kept, tagged⟩ :=
    fixture_faults_external journalMaterializer
  have started : journalMaterializer.start journalMaterializer.root = .ok _ :=
    defaultInstance_journal
  have run : journalMaterializer.materializeRoot (.object noteMembers) = .ok noteInstance :=
    Materializer.materializeRoot_eq_ok.2 ⟨_, _, rfl, defaultInstance_journal, assign_noteMembers⟩
  refine ⟨?_, run, ?_, ?_, ?_, ?_, ?_⟩
  · have refused : ∃ e, journalMaterializer.materializeRoot (.object [("Author", .null)]) =
        .error e := by
      rw [Materializer.materializeRoot_object, show journalMaterializer.message = journal from rfl,
        defaultInstance_journal]
      exact ⟨_, rfl⟩
    obtain ⟨e, failed⟩ := refused
    exact ⟨e, failed, external _ e failed⟩
  · rw [present, run]
    rfl
  · obtain ⟨spec, field, -, found, -, position⟩ := looked journalMaterializer.root "note" "Note" rfl
    exact ⟨field, _, found, rfl, position _ rfl⟩
  · exact placed _ _ _ _ "Note" _ _ .null started assign_noteMembers rfl
  · exact kept journalMaterializer.root _ [_, _] "Note" (.string "final") [] noteInstance _ _ _
      started assign_noteMembers (by decide) rfl rfl (by simp)
  · obtain ⟨lists, each, all⟩ := tagged _ _ _ _ started assign_noteMembers
    cases each with
    | cons read rest =>
        cases rest
        cases readTagged_noteMembers.symm.trans read
        exact all

end Sample

end WireSchema
