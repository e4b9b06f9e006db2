import WireSchema.Proofs.Agreement
import WireSchema.Proofs.Registration

/-!
# The fields of a shared struct

Several fields of a document may define one struct. The registry keeps the definition that it meets
**first**, and every field of that type gets it. Definitions of one name have to agree in the names
and types of their fields, but not in the versions for which the fields are declared, nor in those
for which the struct itself exists: the versions of a field are cut down to those of the field
around it when the document is loaded, so that even copies of one text differ there.

The fields at a version are therefore those of the first definition met, and they are the fields of
another one exactly if the same of them exist at the version. If the two definitions are written
alike, it comes down to the question whether the first one exists at the version at all.
-/

namespace WireSchema

/-! ### The first definition wins -/

namespace Registry

variable {r r' : Registry} {name : String}

theorem define_find? {spec : StructSpec} (run : r.define spec = .ok r') :
    r'.find? name = (r.find? name).or ([spec].find? (·.name == name)) := by
  unfold define at run
  split at run
  · cases run
    exact List.find?_append
  · rename_i existing found
    split at run
    · cases run
      by_cases same : spec.name = name
      · rw [← same, found]
        rfl
      · simp [same]
    · cases run

theorem declareCommon_find? {spec : StructSpec} (run : r.declareCommon spec = .ok r') :
    r'.find? name = (r.find? name).or ([spec].find? (·.name == name)) := by
  obtain ⟨defined, hdefined, same⟩ := Outcome.bind_eq_ok.1 run
  cases same
  rw [find?, (promote_frame ..).1]
  exact define_find? hdefined

theorem record_find? {ref : Reference} (run : r.record ref = .ok r') :
    r'.find? name = (r.find? name).or (ref.inline.toList.find? (·.name == name)) := by
  obtain ⟨defined, rfl, plain⟩ := record_eq_ok run
  rw [find?, (refer_frame ..).1]
  rcases plain with ⟨absent, rfl⟩ | ⟨s, carried, define⟩
  · rw [absent]
    exact Option.or_none.symm
  · have met : defined.find? name =
        ((r.visit ref.site).find? name).or ([s].find? (·.name == name)) := define_find? define
    rw [carried]
    exact met

/-- A loop that meets definitions finds the first one of a name, unless there was one before. -/
theorem foldlM_find? {α : Type} {step : Registry → α → Except Conflict Registry}
    {met : α → List StructSpec} {items : List α} (run : items.foldlM step r = .ok r')
    (each : ∀ (r : Registry) (item : α) (r' : Registry), step r item = .ok r' →
      r'.find? name = (r.find? name).or ((met item).find? (·.name == name))) :
    r'.find? name = (r.find? name).or ((items.flatMap met).find? (·.name == name)) := by
  induction items generalizing r with
  | nil =>
      cases run
      exact Option.or_none.symm
  | cons item items ih =>
      rw [List.foldlM_cons] at run
      obtain ⟨next, first, others⟩ := Outcome.bind_eq_ok.1 run
      rw [ih others, each r item next first, List.flatMap_cons, List.find?_append, Option.or_assoc]

end Registry

/-- The definition of a name that registering a message meets first. -/
def MessageSpec.firstMet (m : MessageSpec) (name : String) : Option StructSpec :=
  (m.metDefinitions []).find? (·.name == name)

theorem Registry.find?_eq_firstMet {m : MessageSpec} {r : Registry} (run : ofMessage m = .ok r)
    (name : String) : r.find? name = m.firstMet name := by
  obtain ⟨declared, declares, walk, -⟩ := register_eq_ok (ofMessage_eq_ok.1 run)
  have shared : declared.find? name =
      (empty.find? name).or ((m.commonStructs.flatMap ([·])).find? (·.name == name)) :=
    foldlM_find? declares fun _ _ _ step => declareCommon_find? step
  rw [foldlM_find? walk fun _ _ _ step => record_find? step, shared, List.flatMap_singleton',
    MessageSpec.firstMet, MessageSpec.metDefinitions, List.find?_append]
  rfl

/-! ### Which fields exist -/

/-- Two selections from lists with the same distinct keys agree exactly if they select at the same
places. -/
theorem map_filter_eq_iff {α κ : Type} {key : α → κ} {p : α → Bool} {xs ys : List α}
    (same : xs.map key = ys.map key) (distinct : (ys.map key).Nodup) :
    (xs.filter p).map key = (ys.filter p).map key ↔ xs.map p = ys.map p := by
  induction xs generalizing ys with
  | nil =>
      rw [List.map_nil, List.nil_eq, List.map_eq_nil_iff] at same
      subst same
      simp
  | cons x xs ih =>
      cases ys with
      | nil => cases same
      | cons y ys =>
          obtain ⟨head, same⟩ := List.cons.inj same
          obtain ⟨new, distinct⟩ := List.nodup_cons.1 distinct
          have rest := ih same distinct
          -- The key of the first item is not selected further on, in either list.
          have absent : ∀ zs : List α, zs.map key = ys.map key → key y ∉ (zs.filter p).map key := by
            intro zs same_keys mem
            obtain ⟨z, hz, key_eq⟩ := List.mem_map.1 mem
            refine new (same_keys ▸ ?_)
            exact List.mem_map.2 ⟨z, (List.mem_filter.1 hz).1, key_eq⟩
          cases hx : p x <;> cases hy : p y
          · simpa [hx, hy] using rest
          · simp only [List.filter_cons, hx, hy, List.map_cons, if_true]
            constructor
            · intro equal
              exact absurd (equal ▸ List.mem_cons_self ..) (absent xs same)
            · intro equal
              cases equal
          · simp only [List.filter_cons, hx, hy, List.map_cons, if_true]
            constructor
            · intro equal
              exact absurd (head ▸ equal ▸ List.mem_cons_self ..) (absent ys rfl)
            · intro equal
              cases equal
          · simpa [hx, hy, head] using rest

namespace StructSpec

/-- Which of the fields exist at a version, in order. -/
def presenceAt (s : StructSpec) (v : Version) : List Bool :=
  s.fields.map (·.existsAt v)

/-- Structs of one shape have the same fields at a version exactly if the same of them exist. -/
theorem shapeAt_eq_iff {s t : StructSpec} (same : s.shape = t.shape) (distinct : t.fieldNames.Nodup)
    (v : Version) : s.shapeAt v = t.shapeAt v ↔ s.presenceAt v = t.presenceAt v := by
  refine map_filter_eq_iff same ?_
  have names : (t.shape.map Prod.fst).Nodup := by
    simpa [shape, fieldNames, Function.comp_def] using distinct
  exact List.Pairwise.of_map Prod.fst (fun _ _ ne equal => ne (congrArg Prod.fst equal)) names

end StructSpec

/-! ### What the records declare -/

namespace Schema

/-- What a record says of its field alone: the name, the type and the versions. -/
def FieldRecord.header (record : FieldRecord) : Option String × Option String × Option String :=
  (record.name, record.type, record.versions)

/-- The name and type of the field that a header declares for a version, if it does. -/
def declaredAt (v : Version) :
    Option String × Option String × Option String → Option (String × FieldType)
  | (some name, some type, some versions) =>
    match VersionRange.read versions with
    | .ok range => if range.contains v then some (name, FieldType.read type) else none
    | .error _ => none
  | _ => none

variable {struct : String} {within : VersionRange} {v : Version}

/-- As long as the struct exists, a field exists at the versions that its record declares. -/
theorem Built.declaredAt_header {record : FieldRecord} {field : FieldSpec}
    (built : Built struct within record field) (alive : within.contains v = true) :
    declaredAt v record.header =
      if field.existsAt v then some (field.name, field.type) else none := by
  obtain ⟨text, declared, given, read, exists_eq⟩ := built.existsAt_eq v
  obtain ⟨typeText, typed, type_eq⟩ := built.type
  rw [exists_eq, alive, Bool.and_true, type_eq, FieldRecord.header, built.name, typed, given]
  simp only [declaredAt, read]

theorem fieldsAt_of_buildFields {records : List FieldRecord} {before fields : List FieldSpec}
    (run : buildFields struct within before records = .ok fields)
    (alive : within.contains v = true) :
    ((fields.filter (·.existsAt v)).map fun f => (f.name, f.type)) =
      (records.map (·.header)).filterMap (declaredAt v) := by
  obtain ⟨built, -⟩ := buildFields_eq_ok.1 run
  clear run
  induction built with
  | nil => rfl
  | @cons record first records others here _ ih =>
      rw [List.map_cons, List.filterMap_cons, here.declaredAt_header alive, ← ih]
      cases present : first.existsAt v <;> simp [present]

/-- A struct has no fields at a version at which it does not exist itself. -/
theorem fieldsAt_of_dead {records : List FieldRecord} {before fields : List FieldSpec}
    (run : buildFields struct within before records = .ok fields)
    (dead : within.contains v = false) : fields.filter (·.existsAt v) = [] := by
  rw [List.filter_eq_nil_iff]
  intro field mem
  obtain ⟨record, -, built⟩ := exists_built_of_mem run mem
  obtain ⟨_, _, -, -, exists_eq⟩ := built.existsAt_eq v
  rw [exists_eq, dead, Bool.and_false]
  exact Bool.false_ne_true

end Schema

namespace StructSpec

open Schema (buildFields)

/-- Two structs are written alike if their fields were built from records with the same names, types
and versions. -/
def WrittenLike (d s : StructSpec) : Prop :=
  ∃ records records', buildFields d.name d.versions [] records = .ok d.fields ∧
    buildFields s.name s.versions [] records' = .ok s.fields ∧
    records.map (·.header) = records'.map (·.header)

/-- At a version at which one of two structs that are written alike exists, the other one has the
same fields exactly if it exists as well, or if there are no fields. -/
theorem WrittenLike.shapeAt_eq_iff {d s : StructSpec} (alike : d.WrittenLike s) {v : Version}
    (alive : s.versions.contains v = true) :
    d.shapeAt v = s.shapeAt v ↔ d.versions.contains v = true ∨ s.shapeAt v = [] := by
  obtain ⟨records, records', hd, hs, headers⟩ := alike
  cases present : d.versions.contains v with
  | true =>
      have agree : d.shapeAt v = s.shapeAt v := by
        rw [shapeAt, shapeAt, fieldsAt, fieldsAt, Schema.fieldsAt_of_buildFields hd present,
          Schema.fieldsAt_of_buildFields hs alive, headers]
      simp [agree]
  | false =>
      have nothing : d.shapeAt v = [] := by
        rw [shapeAt, fieldsAt, Schema.fieldsAt_of_dead hd present]
        rfl
      rw [nothing]
      simp

end StructSpec

/-! ### Fields that are present -/

/-- A field of a struct, or of one defined inside it, that exists at a version together with all the
fields around it. -/
inductive FieldSpec.PresentIn (v : Version) (f : FieldSpec) : StructSpec → Prop where
  | here {t : StructSpec} (mem : f ∈ t.fields) (present : f.existsAt v = true) : PresentIn v f t
  | inside {t u : StructSpec} {g : FieldSpec} (mem : g ∈ t.fields) (present : g.existsAt v = true)
      (inline : g.inlineStruct = some u) (inner : PresentIn v f u) : PresentIn v f t

theorem FieldSpec.PresentIn.exists_struct {v : Version} {f : FieldSpec} {t : StructSpec}
    (h : f.PresentIn v t) :
    f.existsAt v = true ∧ ∃ u : StructSpec, (u = t ∨ u.DefinedIn t) ∧ f ∈ u.fields := by
  induction h with
  | here mem present => exact ⟨present, _, .inl rfl, mem⟩
  | inside mem _ inline _ ih =>
      obtain ⟨present, u, position, there⟩ := ih
      refine ⟨present, u, .inr ?_, there⟩
      rcases position with rfl | deeper
      · exact .field mem inline
      · exact .nested mem inline deeper

theorem FieldSpec.PresentIn.definedIn {v : Version} {f : FieldSpec} {s t : StructSpec}
    (h : f.PresentIn v t) (inline : f.inlineStruct = some s) : s.DefinedIn t := by
  induction h with
  | here mem _ => exact .field mem inline
  | inside mem _ around _ ih => exact .nested mem around ih

/-- The struct that a field of a loaded message defines has the name that the field refers to, and
the versions of the field. -/
theorem MessageSpec.inline_of_load {text : String} {m : MessageSpec} (loaded : load text = .ok m)
    {t s : StructSpec} (has : m.HasStruct t) {f : FieldSpec} (mem : f ∈ t.fields)
    (inline : f.inlineStruct = some s) :
    f.type.structName? = some s.name ∧ s.versions = f.versions := by
  obtain ⟨record, built⟩ := exists_built loaded has mem
  obtain ⟨refers, versions, -⟩ := built.inline_eq inline
  exact ⟨refers, versions⟩

/-! ### Agreement -/

/-- **Fields of a shared struct.** Let a field of a loaded message carry a definition, and let it
and all fields around it exist at a version. The struct that the registry has for the field is the
first definition met of the name. If the definition at the field was met too, the two have the same
shape, so they have the same fields at the version exactly if the same of them exist there; it is
met if no call site occurs twice in the document. If the two are written alike, they have the same
fields exactly if the first one exists at the version as well, unless there are no fields anyway. -/
theorem shared_fields_agree_iff {text : String} {m : MessageSpec} {r : Registry} {v : Version}
    {f : FieldSpec} {s : StructSpec} (loaded : MessageSpec.load text = .ok m)
    (registered : Registry.ofMessage m = .ok r) (present : f.PresentIn v m.struct)
    (inline : f.inlineStruct = some s) :
    (∀ d, r.findStruct f = .ok d ↔ m.firstMet s.name = some d) ∧
    (s ∈ m.metDefinitions [] → ∃ d, r.findStruct f = .ok d ∧ d.shape = s.shape ∧
      (d.shapeAt v = s.shapeAt v ↔ d.presenceAt v = s.presenceAt v)) ∧
    ((m.references.map (·.site)).Nodup → s ∈ m.metDefinitions []) ∧
    (∀ d, r.findStruct f = .ok d → d.WrittenLike s →
      (d.shapeAt v = s.shapeAt v ↔ d.versions.contains v = true ∨ s.shapeAt v = [])) := by
  obtain ⟨exists_v, t, position, mem⟩ := present.exists_struct
  have has : m.HasStruct t := position.imp id fun inside => .inr (.inl inside)
  obtain ⟨refers, versions⟩ := MessageSpec.inline_of_load loaded has mem inline
  have lookup : ∀ d, r.findStruct f = .ok d ↔ r.find? s.name = some d := by
    intro d
    rw [Registry.findStruct_eq_ok, refers, Option.some.injEq]
    constructor
    · rintro ⟨named, found⟩
      rw [named]
      exact found
    · intro found
      have named := Registry.name_of_find? found
      exact ⟨named.symm, named ▸ found⟩
  refine ⟨fun d => ?_, fun met => ?_, fun distinct => ?_, fun d _ alike => ?_⟩
  · rw [lookup, Registry.find?_eq_firstMet registered]
  · obtain ⟨d, found, same⟩ := Registry.holds_of_met registered met
    have shape := Registry.sameShape_iff.1 same
    have names : s.fieldNames.Nodup :=
      (MessageSpec.exists_records loaded (MessageSpec.hasStruct_of_met met)).fieldNames_nodup
    exact ⟨d, (lookup d).2 found, shape, StructSpec.shapeAt_eq_iff shape names v⟩
  · exact MessageSpec.met_of_definesInline loaded distinct (.inl (present.definedIn inline))
  · refine alike.shapeAt_eq_iff ?_
    rw [versions]
    exact exists_v

/-! ### A copy that loses its field -/

namespace Sample

/-- Two copies of a struct, of which the first exists at version 0 only. -/
def invoiceText : String :=
  "\x7b\"name\":\"Invoice\",\"validVersions\":\"0-1\",\"fields\":[
    \x7b\"name\":\"Legacy\",\"type\":\"Amount\",\"versions\":\"0\",\"fields\":[
      \x7b\"name\":\"Value\",\"type\":\"int64\",\"versions\":\"0+\"\x7d]\x7d,
    \x7b\"name\":\"Total\",\"type\":\"Amount\",\"versions\":\"0+\",\"fields\":[
      \x7b\"name\":\"Value\",\"type\":\"int64\",\"versions\":\"0+\"\x7d]\x7d]\x7d"

/-- The copy of the struct in a field with these versions. -/
def amount (versions : VersionRange) : StructSpec :=
  ⟨"Amount", versions, [⟨"Value", .int .int64, versions, none, none, .none, none, none, none⟩]⟩

def amountField (name : String) (versions : VersionRange) : FieldSpec :=
  ⟨name, .struct "Amount", versions, none, none, .none, none, none, some (amount versions)⟩

def invoice : MessageSpec where
  name := "Invoice"
  apiKey := none
  role := .data
  validVersions := ⟨0, 1⟩
  flexibleVersions := .none
  struct := ⟨"Invoice", ⟨0, 1⟩, [amountField "Legacy" ⟨0, 0⟩, amountField "Total" ⟨0, 1⟩]⟩
  commonStructs := []

set_option maxRecDepth 2000 in
theorem load_invoiceText : MessageSpec.load invoiceText = .ok invoice :=
  MessageSpec.load_of_tokens (by cbv) rfl rfl rfl

def invoiceRegistry : Registry where
  definitions := [amount ⟨0, 0⟩]
  firstSites := [("Amount", ⟨"Invoice", "Invoice", "Legacy"⟩)]
  visited := [⟨"Invoice", "Invoice", "Total"⟩, ⟨"Invoice", "Invoice", "Legacy"⟩]
  common := ["Amount"]
  distinct := by decide

theorem ofMessage_invoice : Registry.ofMessage invoice = .ok invoiceRegistry := rfl

theorem total_present {v : Version} (exists_v : (amountField "Total" ⟨0, 1⟩).existsAt v = true) :
    (amountField "Total" ⟨0, 1⟩).PresentIn v invoice.struct :=
  .here (List.mem_cons_of_mem _ (List.mem_cons_self ..)) exists_v

/-- Both copies are built from the same record. -/
theorem amounts_written_alike : (amount ⟨0, 0⟩).WrittenLike (amount ⟨0, 1⟩) :=
  ⟨[⟨some "Value", some "int64", some "0+", none, none, none, none, none, none⟩],
    [⟨some "Value", some "int64", some "0+", none, none, none, none, none, none⟩], rfl, rfl, rfl⟩

/-- At version 0 the first copy exists, and the second has its fields. -/
theorem invoice_total_agrees :
    MessageSpec.load invoiceText = .ok invoice ∧
      Registry.ofMessage invoice = .ok invoiceRegistry ∧
      invoiceRegistry.findStruct (amountField "Total" ⟨0, 1⟩) = .ok (amount ⟨0, 0⟩) ∧
      (amount ⟨0, 0⟩).shapeAt 0 = (amount ⟨0, 1⟩).shapeAt 0 := by
  have agreement := shared_fields_agree_iff load_invoiceText ofMessage_invoice
    (total_present (v := 0) (by decide)) rfl
  refine ⟨load_invoiceText, ofMessage_invoice, rfl, ?_⟩
  exact (agreement.2.2.2 _ rfl amounts_written_alike).2 (.inl (by decide))

/-- At version 1 the first copy is gone, and with it the field of the second. -/
theorem later_copy_loses_field :
    ¬ ∀ (text : String) (m : MessageSpec) (r : Registry) (v : Version) (f : FieldSpec)
      (s : StructSpec), MessageSpec.load text = .ok m → Registry.ofMessage m = .ok r →
      m.validVersions.contains v = true → f.PresentIn v m.struct → f.inlineStruct = some s →
      ∃ d, r.findStruct f = .ok d ∧ d.shapeAt v = s.shapeAt v := by
  intro agree
  obtain ⟨d, found, same⟩ := agree invoiceText invoice invoiceRegistry 1 _ (amount ⟨0, 1⟩)
    load_invoiceText ofMessage_invoice (by decide) (total_present (by decide)) rfl
  cases found
  revert same
  decide

end Sample

end WireSchema
