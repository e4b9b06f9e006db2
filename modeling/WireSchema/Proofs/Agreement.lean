import WireSchema.Proofs.Conformance
import WireSchema.Proofs.Declarations

/-!
# Declarations and instances agree

A unit declares the structs of a message at a version, and a fixture is turned into an instance
whose nested instances are of those structs. The two look structs up in different ways: a unit
declares a name **once**, and under the name of the message that is the top-level struct; a nested
instance always is of the struct that the *registry* has under the name.

The two ways agree unless a nested struct bears the name of the message: a **homonym**. The module
ends with the exact condition for agreement, and with a document for which there is none.
-/

namespace WireSchema

/-! ### Nested instances -/

/-- An instance stands in a value, at any depth. -/
inductive Instance.InValue (j : Instance) : Value → Prop where
  | here : InValue j (.struct j)
  | field {i : Instance} {entry : String × Value} (mem : entry ∈ i.fields)
      (inner : InValue j entry.2) : InValue j (.struct i)
  | item {items : List Value} {item : Value} (mem : item ∈ items) (inner : InValue j item) :
      InValue j (.array items)

/-- An instance is nested in another, at any depth. -/
def Instance.Within (j i : Instance) : Prop :=
  ∃ entry ∈ i.fields, j.InValue entry.2

/-- A unit declares a struct with the name and the fields of an instance. -/
def MessageAt.Declares (u : MessageAt) (j : Instance) : Prop :=
  ∃ s ∈ u.structs, s.name = j.name ∧ s.fields.map (·.name) = j.fieldNames

theorem Instance.InValue.trans {k j : Instance} {value : Value} (inside : j.InValue value)
    (within : k.Within j) : k.InValue value := by
  induction inside with
  | here =>
      obtain ⟨entry, mem, inner⟩ := within
      exact .field mem inner
  | field mem _ ih => exact .field mem ih
  | item mem _ ih => exact .item mem ih

theorem Instance.Within.trans {k j i : Instance} (within : k.Within j) (outer : j.Within i) :
    k.Within i := by
  obtain ⟨entry, mem, inside⟩ := outer
  exact ⟨entry, mem, inside.trans within⟩

section

variable {r : Registry} {v : Version}

theorem Value.FitsField.fits_of_inValue {field : FieldSpec} {value : Value} {j : Instance}
    (h : value.FitsField r v field) (inside : j.InValue value) :
    value.Fits r v field field.type := by
  rcases h with fits | ⟨rfl, -, -⟩
  · exact fits
  · cases inside

theorem Instance.Conforms.exists_field {spec : StructSpec} {i : Instance}
    (h : i.Conforms r v spec) {entry : String × Value} (mem : entry ∈ i.fields) :
    ∃ field ∈ spec.fieldsAt v, entry.2.FitsField r v field := by
  cases h with
  | mk each _ => exact each.exists_field mem

/-- A nested instance conforms to what the registry defines under its name. -/
theorem Instance.InValue.conforms {j : Instance} {value : Value} (inside : j.InValue value)
    {field : FieldSpec} {type : FieldType} (fits : value.Fits r v field type) :
    ∃ spec, r.find? spec.name = some spec ∧ j.Conforms r v spec := by
  induction inside generalizing field type with
  | here =>
      cases fits with
      | struct found conforms => exact ⟨_, (Registry.findStruct_eq_ok.1 found).2, conforms⟩
  | field mem inner ih =>
      cases fits with
      | struct _ conforms =>
          obtain ⟨f, -, here⟩ := conforms.exists_field mem
          exact ih (here.fits_of_inValue inner)
  | item mem _ ih =>
      cases fits with
      | array each => exact ih (each _ mem)

theorem Instance.Within.conforms {j i : Instance} {spec : StructSpec} (within : j.Within i)
    (conforms : i.Conforms r v spec) :
    ∃ d, r.find? d.name = some d ∧ j.Conforms r v d := by
  obtain ⟨entry, mem, inside⟩ := within
  obtain ⟨f, -, here⟩ := conforms.exists_field mem
  exact inside.conforms (here.fits_of_inValue inside)

/-! ### Which nested instances are named in a unit -/

/-- The name of a nested instance is among `names` if this is passed on from each instance around it
to those in its fields, unless it is known otherwise. -/
theorem Instance.InValue.name_mem {names : List String} {j : Instance} {value : Value}
    (inside : j.InValue value) {field : FieldSpec} {type : FieldType}
    (fits : value.Fits r v field type)
    (target : ∀ name, field.type.structName? = some name → name ∈ names)
    (step : ∀ (k : Instance) (spec : StructSpec), k.InValue value → j.Within k →
      k.Conforms r v spec → r.find? spec.name = some spec → spec.name ∈ names →
      spec.RefersWithin v names ∨ j.name ∈ names) :
    j.name ∈ names := by
  induction inside generalizing field type with
  | here =>
      cases fits with
      | struct found conforms =>
          rw [conforms.name]
          exact target _ (Registry.findStruct_eq_ok.1 found).1
  | @field i entry mem inner ih =>
      cases fits with
      | @struct _ _ spec _ found conforms =>
          obtain ⟨target_eq, defined⟩ := Registry.findStruct_eq_ok.1 found
          have around : j.Within i := ⟨entry, mem, inner⟩
          rcases step i spec .here around conforms defined (target _ target_eq) with closed | known
          · obtain ⟨f, hf, here⟩ := conforms.exists_field mem
            refine ih (here.fits_of_inValue inner) (closed f hf) ?_
            intro k spec' hk
            exact step k spec' (.field mem hk)
          · exact known
  | @item items item mem _ ih =>
      cases fits with
      | array each =>
          refine ih (each item mem) target ?_
          intro k spec' hk
          exact step k spec' (.item mem hk)

theorem Instance.Within.name_mem {names : List String} {j i : Instance} {spec : StructSpec}
    (within : j.Within i) (conforms : i.Conforms r v spec) (closed : spec.RefersWithin v names)
    (step : ∀ (k : Instance) (d : StructSpec), k.Within i → j.Within k → k.Conforms r v d →
      r.find? d.name = some d → d.name ∈ names → d.RefersWithin v names ∨ j.name ∈ names) :
    j.name ∈ names := by
  obtain ⟨entry, mem, inside⟩ := within
  obtain ⟨f, hf, here⟩ := conforms.exists_field mem
  refine inside.name_mem (here.fits_of_inValue inside) (closed f hf) ?_
  intro k d hk
  exact step k d ⟨entry, mem, hk⟩

end

/-! ### Agreement -/

/-- Every instance nested in `i` that bears the name of the message has the fields of the top-level
struct, and the unit declares the names of what is nested in it. -/
def MessageAt.HomonymsAgree (u : MessageAt) (message : MessageSpec) (v : Version) (i : Instance) :
    Prop :=
  ∀ k : Instance, k.Within i → k.name = message.struct.name →
    k.fieldNames = (message.struct.fieldsAt v).map (·.name) ∧
      ∀ j : Instance, j.Within k → j.name ∈ StructAt.names u.structs

/-- The names and types of the fields that exist at a version, in order. -/
def StructSpec.shapeAt (s : StructSpec) (v : Version) : List (String × FieldType) :=
  (s.fieldsAt v).map fun f => (f.name, f.type)

theorem StructSpec.names_eq_of_shapeAt {s t : StructSpec} {v : Version}
    (same : s.shapeAt v = t.shapeAt v) :
    (s.fieldsAt v).map (·.name) = (t.fieldsAt v).map (·.name) := by
  have := congrArg (List.map Prod.fst) same
  simpa [shapeAt, Function.comp_def] using this

theorem StructSpec.RefersWithin.of_shapeAt {s t : StructSpec} {v : Version} {names : List String}
    (closed : t.RefersWithin v names) (same : s.shapeAt v = t.shapeAt v) :
    s.RefersWithin v names := by
  intro field mem target target_eq
  have listed : (field.name, field.type) ∈ s.shapeAt v := List.mem_map_of_mem mem
  rw [same] at listed
  obtain ⟨field', mem', pair_eq⟩ := List.mem_map.1 listed
  have type_eq : field'.type = field.type := congrArg Prod.snd pair_eq
  exact closed field' mem' target (type_eq ▸ target_eq)

namespace MessageSpec

variable {m : MessageSpec} {r : Registry} {v : Version}

/-- A unit declares an instance exactly if it declares the name, and the instance has the fields of
what the name stands for. -/
theorem Declaring.declares_iff {u : MessageAt} (inv : Declaring m r v [] u.structs) {j : Instance}
    {spec : StructSpec} (defined : m.definition? r j.name = some spec) :
    u.Declares j ↔
      j.name ∈ StructAt.names u.structs ∧ j.fieldNames = (spec.fieldsAt v).map (·.name) := by
  -- Any struct declared under the name has the fields of the projection.
  have fields_eq : ∀ s ∈ u.structs, s.name = j.name →
      s.fields.map (·.name) = (spec.fieldsAt v).map (·.name) := by
    intro s hs same
    obtain ⟨spec', defined', fields⟩ := inv.definition hs
    rw [same, defined] at defined'
    obtain rfl := Option.some.inj defined'
    rw [fields, List.map_map]
    rfl
  constructor
  · rintro ⟨s, hs, same, fields⟩
    exact ⟨List.mem_map.2 ⟨s, hs, same⟩, fields.symm.trans (fields_eq s hs same)⟩
  · rintro ⟨mem, fields⟩
    obtain ⟨s, hs, same⟩ := List.mem_map.1 mem
    exact ⟨s, hs, same, (fields_eq s hs same).trans fields.symm⟩

section

variable {u : MessageAt} {i : Instance} (inv : Declaring m r v [] u.structs)
  (shared : ∀ spec ∈ r.commonStructs, spec.name ∈ StructAt.names u.structs)
  (conforms : i.Conforms r v m.struct)

include inv

/-- The unit declares the top-level struct under the name of the message. -/
theorem Declaring.declares_homonym_iff {j : Instance} (same : j.name = m.struct.name) :
    u.Declares j ↔ j.fieldNames = (m.struct.fieldsAt v).map (·.name) := by
  have defined : m.definition? r j.name = some m.struct := if_pos same
  rw [inv.declares_iff defined, same]
  simp [inv.topLevel_mem]

theorem Declaring.homonymsAgree_of_declares
    (agree : ∀ j, j = i ∨ j.Within i → u.Declares j) : u.HomonymsAgree m v i := by
  intro k hk same
  refine ⟨(inv.declares_homonym_iff same).1 (agree k (.inr hk)), ?_⟩
  intro j hj
  obtain ⟨s, hs, named, -⟩ := agree j (.inr (hj.trans hk))
  exact List.mem_map.2 ⟨s, hs, named⟩

include shared

/-- Under any name but that of the message, the registry defines what the unit declares. -/
theorem Declaring.refersWithin_of_ne {d : StructSpec} (found : r.find? d.name = some d)
    (mem : d.name ∈ StructAt.names u.structs) (ne : d.name ≠ m.struct.name) :
    d.RefersWithin v (StructAt.names u.structs) :=
  inv.refersWithin shared mem ((definition?_of_ne ne).trans found)

theorem Declaring.topLevel_refersWithin : m.struct.RefersWithin v (StructAt.names u.structs) :=
  inv.refersWithin shared inv.topLevel_mem (if_pos rfl)

include conforms

/-- A nested instance with another name than the message is declared, unless a homonym around it
hides the struct. -/
theorem Declaring.declares_of_ne {j : Instance} (hj : j.Within i) (ne : j.name ≠ m.struct.name)
    (around : ∀ k : Instance, k.Within i → j.Within k → k.name = m.struct.name →
      j.name ∈ StructAt.names u.structs) : u.Declares j := by
  obtain ⟨d, found, hd⟩ := hj.conforms conforms
  rw [← hd.name] at found
  refine (inv.declares_iff ((definition?_of_ne ne).trans found)).2 ⟨?_, hd.fieldNames⟩
  refine hj.name_mem conforms (inv.topLevel_refersWithin shared) ?_
  intro k d hk hjk hkd found mem
  by_cases same : d.name = m.struct.name
  · exact .inr (around k hk hjk (hkd.name.trans same))
  · exact .inl (inv.refersWithin_of_ne shared found mem same)

theorem Declaring.declares_of_homonymsAgree (homonyms : u.HomonymsAgree m v i) :
    ∀ j, j = i ∨ j.Within i → u.Declares j := by
  rintro j (rfl | hj)
  · exact (inv.declares_homonym_iff conforms.name).2 conforms.fieldNames
  · by_cases same : j.name = m.struct.name
    · exact (inv.declares_homonym_iff same).2 (homonyms j hj same).1
    · refine inv.declares_of_ne shared conforms hj same ?_
      intro k hk hjk named
      exact (homonyms k hk named).2 j hjk

/-- If the registry has the top-level struct itself, or its like, under the name of the message,
then no nested instance can disagree. -/
theorem Declaring.homonymsAgree_of_shapeAt
    (alike : ∀ d, r.find? m.struct.name = some d → d.shapeAt v = m.struct.shapeAt v) :
    u.HomonymsAgree m v i := by
  have closed : ∀ d, r.find? d.name = some d → d.name ∈ StructAt.names u.structs →
      d.RefersWithin v (StructAt.names u.structs) := by
    intro d found mem
    by_cases same : d.name = m.struct.name
    · exact (inv.topLevel_refersWithin shared).of_shapeAt (alike d (same ▸ found))
    · exact inv.refersWithin_of_ne shared found mem same
  intro k hk same
  obtain ⟨d, found, hd⟩ := hk.conforms conforms
  have named : d.name = m.struct.name := hd.name.symm.trans same
  refine ⟨?_, ?_⟩
  · rw [hd.fieldNames]
    exact StructSpec.names_eq_of_shapeAt (alike d (named ▸ found))
  · intro j hj
    refine hj.name_mem hd (closed d found (named ▸ inv.topLevel_mem)) ?_
    intro k' d' _ _ _ found' mem'
    exact .inl (closed d' found' mem')

end

end MessageSpec

/-- **Agreement.** The instance of a fixture and everything nested in it are declared with their
names and fields in the unit of the version, if and only if the nested instances that bear the name
of the message agree with the top-level struct. What neither is nor lies in such an instance is
declared in any case. They agree in particular if what the registry defines under the name of the
message, if anything, has the shape of the top-level struct at the version. -/
theorem declared_iff_homonyms_agree {text : String} {message : MessageSpec} {r : Registry}
    {v : Version} {u : MessageAt} {m : Materializer} {fixture : Json} {i : Instance}
    (loaded : MessageSpec.load text = .ok message)
    (registered : Registry.ofMessage message = .ok r) (resolved : message.atVersion r v = .ok u)
    (valid : Materializer.new message r v = .ok m) (run : m.materializeRoot fixture = .ok i) :
    ((∀ j, j = i ∨ j.Within i → u.Declares j) ↔ u.HomonymsAgree message v i) ∧
    (∀ j, j.Within i → j.name ≠ message.struct.name →
      (∀ k : Instance, k.Within i → j.Within k → k.name ≠ message.struct.name) → u.Declares j) ∧
    ((∀ d, r.find? message.struct.name = some d → d.shapeAt v = message.struct.shapeAt v) →
      ∀ j, j = i ∨ j.Within i → u.Declares j) := by
  have conforms := conforms_of_load loaded registered valid run
  obtain ⟨-, walked, -⟩ := MessageSpec.atVersion_eq_ok.1 resolved
  obtain ⟨inv, shared⟩ := MessageSpec.declaring_of_structsAt walked
  have agree := inv.declares_of_homonymsAgree shared conforms
  refine ⟨⟨inv.homonymsAgree_of_declares, agree⟩, ?_, ?_⟩
  · intro j hj ne noHomonym
    refine inv.declares_of_ne shared conforms hj ne ?_
    intro k hk hjk same
    exact absurd same (noHomonym k hk hjk)
  · intro alike
    exact agree (inv.homonymsAgree_of_shapeAt shared conforms alike)

namespace Sample

/-- In the sample no nested struct bears the name of the message. -/
theorem journal_instances_declared :
    MessageSpec.load journalText = .ok journal ∧
      Registry.ofMessage journal = .ok journalRegistry ∧
      journal.atVersion journalRegistry 1 = .ok journalAtOne ∧
      Materializer.new journal journalRegistry 1 = .ok journalMaterializer ∧
      journalMaterializer.materializeRoot journalFixture = .ok journalInstance ∧
      ∀ j, j = journalInstance ∨ j.Within journalInstance → journalAtOne.Declares j := by
  refine ⟨load_journalText, ofMessage_journal, atVersion_journal, rfl, materializeRoot_journal, ?_⟩
  have agreement := declared_iff_homonyms_agree load_journalText ofMessage_journal
    atVersion_journal rfl materializeRoot_journal
  refine agreement.2.2 ?_
  intro d found
  cases found

/-- A message with a nested struct of the same name and other fields. -/
def folderText : String :=
  "\x7b\"name\":\"Folder\",\"validVersions\":\"0\",\"fields\":[
    \x7b\"name\":\"Child\",\"type\":\"Folder\",\"versions\":\"0+\",\"fields\":[
      \x7b\"name\":\"Size\",\"type\":\"int32\",\"versions\":\"0+\"\x7d]\x7d]\x7d"

def childFolder : StructSpec :=
  ⟨"Folder", ⟨0, 0⟩, [⟨"Size", .int .int32, ⟨0, 0⟩, none, none, .none, none, none, none⟩]⟩

def folder : MessageSpec where
  name := "Folder"
  apiKey := none
  role := .data
  validVersions := ⟨0, 0⟩
  flexibleVersions := .none
  struct := ⟨"Folder", ⟨0, 0⟩,
    [⟨"Child", .struct "Folder", ⟨0, 0⟩, none, none, .none, none, none, some childFolder⟩]⟩
  commonStructs := []

def folderRegistry : Registry where
  definitions := [childFolder]
  firstSites := [("Folder", ⟨"Folder", "Folder", "Child"⟩)]
  visited := [⟨"Folder", "Folder", "Child"⟩]
  common := []
  distinct := by decide

/-- An instance of the nested struct. -/
def childInstance : Instance := ⟨"Folder", [("Size", .int .int32 0)], []⟩

set_option maxRecDepth 2000 in
theorem load_folderText : MessageSpec.load folderText = .ok folder :=
  MessageSpec.load_of_tokens (by cbv) rfl rfl rfl

theorem atVersion_folder : folder.atVersion folderRegistry 0 =
    .ok ⟨"Folder", .data, 0, [folder.struct.atVersion 0 false true false]⟩ := by
  cbv

theorem materializeRoot_folder :
    Materializer.materializeRoot ⟨folder, folderRegistry, 0⟩ (.object [("Child", .object [])]) =
      .ok ⟨"Folder", [("Child", .struct childInstance)], []⟩ := by
  have topDefault : Materializer.defaultInstance ⟨folder, folderRegistry, 0⟩ folder.struct =
      .ok ⟨"Folder", [("Child", .null)], []⟩ := by cbv
  have childDefault : Materializer.defaultInstance ⟨folder, folderRegistry, 0⟩ childFolder =
      .ok childInstance := by cbv
  have child : ∀ field, Materializer.convert ⟨folder, folderRegistry, 0⟩
      (.field field (some childFolder)) (.struct "Folder") field.name (.object []) =
        .ok (.struct childInstance) := by
    intro field
    rw [Materializer.convert]
    exact Outcome.bind_eq_ok.2 ⟨_, childDefault, rfl⟩
  refine Materializer.materializeRoot_eq_ok.2 ⟨_, _, rfl, topDefault, ?_⟩
  exact Materializer.assign_cons.2 ⟨_, .value (by decide) rfl rfl (child _), rfl⟩

/-- The unit declares the top-level struct under the shared name, and the nested instance is of the
other. -/
theorem homonym_not_declared :
    ¬ ∀ text message r v u m fixture i, MessageSpec.load text = .ok message →
      Registry.ofMessage message = .ok r → message.atVersion r v = .ok u →
      Materializer.new message r v = .ok m → m.materializeRoot fixture = .ok i →
      ∀ j, j = i ∨ j.Within i → u.Declares j := by
  intro agree
  obtain ⟨s, hs, -, fields⟩ := agree folderText folder folderRegistry 0 _ _ _ _ load_folderText rfl
    atVersion_folder rfl materializeRoot_folder childInstance
    (.inr ⟨_, List.mem_cons_self .., .here⟩)
  rw [List.mem_singleton.1 hs] at fields
  revert fields
  decide

end Sample

end WireSchema
