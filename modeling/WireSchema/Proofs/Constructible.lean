import WireSchema.Proofs.Conformance
import WireSchema.Proofs.Declarations
import WireSchema.Proofs.Rendering

/-!
# What can be generated can be materialized

The default of a struct field is built by entering the struct, unless the struct is already being
built around the field. Whether that succeeds is decided by the structs that can be entered: it is
enough to name a set of structs in which each field has a default of its own or refers to a struct
of the set. The construction never leaves such a **closed** set, whatever the path it has taken, and
so fails only with a malformed default (`error_of_closed`).

The structs that a rendered unit declares are closed. So the empty fixture of a message that can be
generated has an instance, unless a declared default is malformed.
-/

namespace WireSchema

namespace Materializer

variable {m : Materializer}

/-! ### Closed sets of structs -/

/-- A field needs nothing beyond the structs `cut`, which are under construction, and `known`:
unless it has a declared default, its type has a zero value or is one of those structs. -/
def Supplied (m : Materializer) (cut : List String) (known : StructSpec → Prop)
    (field : FieldSpec) : Prop :=
  m.declaredDefault field = .ok none →
    (∃ value, Default.zero? field.type = some value) ∨
      ∃ name, field.type = .struct name ∧
        (name ∈ cut ∨ ∃ spec, m.registry.find? name = some spec ∧ known spec)

/-- If a field is supplied, only a malformed default stops it. -/
theorem Supplied.declaredDefault_eq_error {cut path : List String} {known : StructSpec → Prop}
    {field : FieldSpec} {e : FixtureError} (h : m.Supplied cut known field) (within : cut ⊆ path)
    (failed : m.defaultStep path field = .error e) : m.declaredDefault field = .error e := by
  unfold defaultStep at failed
  split at failed
  · rename_i malformed
    cases failed
    exact malformed
  · cases failed
  · rename_i absent
    rcases h absent with ⟨value, zero⟩ | ⟨name, type, known⟩
    · split at failed
      · rename_i type
        rw [type] at zero
        cases zero
      · rw [zero] at failed
        cases failed
    · simp only [type] at failed
      rcases known with around | ⟨spec, found, -⟩
      · rw [if_pos (within around)] at failed
        cases failed
      · rw [findStruct_of_type type found] at failed
        split at failed <;> cases failed

/-- The fields of the structs `known` are supplied. -/
def Closed (m : Materializer) (cut : List String) (known : StructSpec → Prop) : Prop :=
  ∀ spec, known spec → ∀ field ∈ spec.fieldsAt m.version, m.Supplied cut known field

/-- Where everything is supplied, a construction fails only with a malformed default, of a field at
hand or of a struct that it may have entered. -/
theorem error_of_closed {cut path : List String} {known : StructSpec → Prop}
    {fields : List FieldSpec} {u : Unfinished} (closed : m.Closed cut known) (within : cut ⊆ path)
    (supplied : ∀ field ∈ fields, m.Supplied cut known field)
    (run : m.defaultFields path fields = .error u) :
    ∃ field, (field ∈ fields ∨ ∃ spec, known spec ∧ field ∈ spec.fieldsAt m.version) ∧
      m.declaredDefault field = .error u.error := by
  fun_induction Materializer.defaultFields m path fields with
  | case1 => cases run
  | case2 path field rest e step =>
      cases run
      have here := List.mem_cons_self (a := field) (l := rest)
      exact ⟨field, .inl here, (supplied field here).declaredDefault_eq_error within step⟩
  | case3 path field rest value step ih =>
      obtain ⟨-, others⟩ := List.forall_mem_cons.1 supplied
      rcases Outcome.bind_eq_error.1 run with run | ⟨_, _, ⟨⟩⟩
      obtain ⟨f, mem, malformed⟩ := ih within others run
      exact ⟨f, mem.imp_left (List.mem_cons_of_mem _), malformed⟩
  | case4 path field rest spec step _ _ ihInner ihRest =>
      obtain ⟨here, others⟩ := List.forall_mem_cons.1 supplied
      rcases Outcome.bind_eq_error.1 run with run | ⟨_, _, run⟩
      · -- The struct that is entered is not on the path, so it is one of the closed set.
        have entered : known spec := by
          cases obtained_of_defaultStep step with
          | inside absent type fresh found =>
              rcases here absent with ⟨_, zero⟩ | ⟨name, type', around | ⟨spec', found', mem⟩⟩
              · rw [type] at zero
                cases zero
              · rw [type] at type'
                cases type'
                exact absurd (within around) fresh
              · rw [type] at type'
                cases type'
                rw [found] at found'
                cases found'
                exact mem
        obtain ⟨f, mem, malformed⟩ :=
          ihInner (List.subset_append_of_subset_left _ within) (closed spec entered) run
        exact ⟨f, .inr (mem.elim (fun mem => ⟨spec, entered, mem⟩) id), malformed⟩
      · rcases Outcome.bind_eq_error.1 run with run | ⟨_, _, ⟨⟩⟩
        obtain ⟨f, mem, malformed⟩ := ihRest within others run
        exact ⟨f, mem.imp_left (List.mem_cons_of_mem _), malformed⟩

end Materializer

/-! ### Generated messages -/

theorem Default.key_of_ofText {type : FieldType} {text : String} {fault : AttributeFault}
    (h : Default.ofText type text = .error fault) : fault.key = .default := by
  unfold Default.ofText at h
  grind [AttributeFault.key]

theorem Materializer.declaredDefault_eq_error {m : Materializer} {field : FieldSpec}
    {e : FixtureError} (h : m.declaredDefault field = .error e) :
    ∃ text fault, field.defaultText = some text ∧ Default.ofText field.type text = .error fault ∧
      e = .schema (.invalid (.instanceField m.message.name field.name) fault) := by
  unfold declaredDefault at h
  split at h
  · cases h
  · rename_i text declared
    split at h
    · cases h
    · split at h
      · cases h
      · rename_i fault read
        cases h
        exact ⟨text, fault, declared, read, rfl⟩

/-- The types that the Rust backend knows have a zero value, unless they are structs. -/
theorem Backend.Rust.zero?_of_typeOf? {type : FieldType} (h : (typeOf? type).isSome = true) :
    (∃ value, Default.zero? type = some value) ∨ ∃ name, type = .struct name := by
  cases type with
  | struct name => exact .inr ⟨name, rfl⟩
  | unsupported => cases h
  | _ => exact .inl ⟨_, rfl⟩

/-- The structs of the registry that a rendered unit declares are closed, with the top-level struct
cut out: it is under construction from the start. -/
theorem Materializer.closed_of_declaring {message : MessageSpec} {r : Registry} {v : Version}
    {structs : List StructAt} (inv : message.Declaring r v [] structs)
    (shared : ∀ spec ∈ r.commonStructs, spec.name ∈ StructAt.names structs)
    (typed : ∀ s ∈ structs, ∀ field ∈ s.fields, (Backend.Rust.typeOf? field.type).isSome = true) :
    ∀ spec, message.definition? r spec.name = some spec → spec.name ∈ StructAt.names structs →
      ∀ field ∈ spec.fieldsAt v, Supplied ⟨message, r, v⟩ [message.struct.name]
        (fun d => message.definition? r d.name = some d ∧ d.name ∈ StructAt.names structs)
        field := by
  intro spec defined mem field hfield _
  obtain ⟨s, hs, same⟩ := List.mem_map.1 mem
  obtain ⟨spec', defined', fields⟩ := inv.definition hs
  rw [same, defined] at defined'
  obtain rfl := Option.some.inj defined'
  have listed : field.atVersion v ∈ s.fields := by
    rw [fields]
    exact List.mem_map_of_mem hfield
  rcases Backend.Rust.zero?_of_typeOf? (typed s hs _ listed) with zero | ⟨name, type⟩
  · exact .inl zero
  · refine .inr ⟨name, type, ?_⟩
    have target : field.type.structName? = some name := congrArg FieldType.structName? type
    have declared := inv.refersWithin shared mem defined field hfield name target
    by_cases top : name = message.struct.name
    · exact .inl (List.mem_singleton.2 top)
    · obtain ⟨s', hs', rfl⟩ := List.mem_map.1 declared
      obtain ⟨d, found, -⟩ := inv.definition hs'
      rw [MessageSpec.definition?_of_ne top] at found
      have named := Registry.name_of_find? found
      rw [← named] at top declared
      refine .inr ⟨d, found, ?_, declared⟩
      rw [MessageSpec.definition?_of_ne top, named]
      exact found

theorem new_of_checkVersion {message : MessageSpec} {r : Registry} {v : Version}
    (checked : message.checkVersion v = .ok ()) :
    Materializer.new message r v = .ok ⟨message, r, v⟩ := by
  rw [Materializer.new, checked]

/-- **What can be generated can be materialized.** If the Rust backend renders the unit of a message
at a version, then the message has a materializer for that version, and the empty fixture has an
instance. Only a malformed default can prevent this, of a field that exists at the version in a
struct of the unit; then the error names the field and says what is wrong with the default. -/
theorem generated_message_materializes {withTests : Bool} {message : MessageSpec} {r : Registry}
    {v : Version} {text : String}
    (generated : (Backend.rust withTests).generate message r v = .ok text) :
    ∃ m, Materializer.new message r v = .ok m ∧
      ((∃ i, m.materializeRoot (.object []) = .ok i) ∨
        ∃ spec field literal fault, message.Needs r v spec.name ∧
          message.definition? r spec.name = some spec ∧ field ∈ spec.fieldsAt v ∧
          field.defaultText = some literal ∧ Default.ofText field.type literal = .error fault ∧
          fault.key = .default ∧
          m.materializeRoot (.object []) =
            .error (.schema (.invalid (.instanceField message.name field.name) fault))) := by
  obtain ⟨u, resolved, typed⟩ := Backend.Rust.generate_succeeds_iff.1 ⟨text, generated⟩
  obtain ⟨checked, walked, -⟩ := MessageSpec.atVersion_eq_ok.1 resolved
  obtain ⟨inv, shared⟩ := MessageSpec.declaring_of_structsAt walked
  have closed := Materializer.closed_of_declaring inv shared typed
  refine ⟨⟨message, r, v⟩, new_of_checkVersion checked, ?_⟩
  cases built : Materializer.defaultInstance ⟨message, r, v⟩ message.struct with
  | ok i => exact .inl ⟨i, Materializer.materializeRoot_eq_ok.2 ⟨_, i, rfl, built, rfl⟩⟩
  | error e =>
      right
      have failed : Materializer.materializeRoot ⟨message, r, v⟩ (.object []) = .error e := by
        rw [Materializer.materializeRoot_object]
        exact Outcome.bind_eq_error.2 (.inl built)
      have top : message.definition? r message.struct.name = some message.struct := if_pos rfl
      obtain ⟨u, run, rfl⟩ := Materializer.defaultInstance_eq_error built
      obtain ⟨field, mem, malformed⟩ := Materializer.error_of_closed
        (fun d hd => closed d hd.1 hd.2) (List.Subset.refl _) (closed _ top inv.topLevel_mem) run
      obtain ⟨literal, fault, declared, read, same⟩ :=
        Materializer.declaredDefault_eq_error malformed
      rw [same] at failed
      rcases mem with mem | ⟨d, ⟨defined, listed⟩, mem⟩
      · exact ⟨message.struct, field, literal, fault, .topLevel, top, mem, declared, read,
          Default.key_of_ofText read, failed⟩
      · exact ⟨d, field, literal, fault, inv.needed _ listed, defined, mem, declared, read,
          Default.key_of_ofText read, failed⟩

namespace Sample

theorem journal_defaultText {spec : StructSpec}
    (defined : journal.definition? journalRegistry spec.name = some spec) :
    ∀ field ∈ spec.fieldsAt 1, field.defaultText = none := by
  unfold MessageSpec.definition? at defined
  split at defined
  · obtain rfl := Option.some.inj defined
    decide
  · obtain rfl : spec = entry := List.mem_singleton.1 (Registry.mem_of_find? defined)
    decide

/-- A struct of the sample refers to itself: the construction of its default ends in a null. -/
theorem journal_materializes :
    (∃ text, (Backend.rust true).generate journal journalRegistry 1 = .ok text) ∧
      ∃ i, journalMaterializer.materializeRoot (.object []) = .ok i := by
  have generated : ∃ text, (Backend.rust true).generate journal journalRegistry 1 = .ok text :=
    Backend.Rust.generate_succeeds_iff.2 ⟨_, atVersion_journal, by decide⟩
  refine ⟨generated, ?_⟩
  obtain ⟨text, run⟩ := generated
  obtain ⟨m, valid, built | ⟨spec, field, _, _, _, defined, mem, declared, -⟩⟩ :=
    generated_message_materializes run
  · obtain rfl := new_eq_ok valid
    exact built
  · rw [journal_defaultText defined field mem] at declared
    cases declared

end Sample

end WireSchema
