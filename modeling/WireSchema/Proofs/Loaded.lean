import WireSchema.Proofs.Outcome
import WireSchema.Proofs.VersionRanges
import WireSchema.Registry
import WireSchema.Schema.Load

/-!
# Loaded messages

What is true of every message that a document describes, at every depth of its struct tree. All of
it follows from one fact, `exists_records`: the fields of **every** struct of a loaded message, be
it the top-level struct, a shared one or one defined inside a field, were built from a list of
records for a struct of that name and those versions. `Built` then says what building a field from a
record amounts to.
-/

namespace WireSchema

/-! ### The structs of a message -/

/-- A struct is defined in another if a field of it carries the definition, or a field of a struct
defined in it, at any depth. -/
inductive StructSpec.DefinedIn (s : StructSpec) : StructSpec → Prop where
  /-- A field carries the definition. -/
  | field {t : StructSpec} {f : FieldSpec} (mem : f ∈ t.fields)
      (inline : f.inlineStruct = some s) : DefinedIn s t
  /-- The definition is inside that of a field. -/
  | nested {t u : StructSpec} {f : FieldSpec} (mem : f ∈ t.fields)
      (inline : f.inlineStruct = some u) (inner : DefinedIn s u) : DefinedIn s t

/-- What the fields of a struct pass on to the structs they define holds at every depth. -/
theorem StructSpec.DefinedIn.induction {motive : StructSpec → Prop} {s t : StructSpec}
    (h : s.DefinedIn t) (outer : motive t)
    (step : ∀ t f u, motive t → f ∈ t.fields → f.inlineStruct = some u → motive u) : motive s := by
  induction h with
  | field mem inline => exact step _ _ _ outer mem inline
  | nested mem inline _ ih => exact ih (step _ _ _ outer mem inline)

namespace MessageSpec

/-- The definitions that fields of a message carry, at any depth of the top-level struct or of a
shared one. -/
def DefinesInline (m : MessageSpec) (s : StructSpec) : Prop :=
  s.DefinedIn m.struct ∨ ∃ shared ∈ m.commonStructs, s.DefinedIn shared

/-- The structs of a message: the top-level struct, the shared ones, and what is defined inside
them. -/
def HasStruct (m : MessageSpec) (s : StructSpec) : Prop :=
  s = m.struct ∨ s ∈ m.commonStructs ∨ m.DefinesInline s

end MessageSpec

/-- Two fields with different names, and with different tags if both have one. -/
def FieldSpec.Apart (f g : FieldSpec) : Prop :=
  f.name ≠ g.name ∧ ∀ tag, f.tag = some tag → g.tag ≠ some tag

theorem FieldSpec.pairwise_apart_iff {fields : List FieldSpec} :
    fields.Pairwise FieldSpec.Apart ↔
      (fields.map (·.name)).Nodup ∧ (fields.filterMap (·.tag)).Nodup := by
  rw [List.Nodup, List.Nodup, List.pairwise_map, List.pairwise_filterMap, ← List.pairwise_and_iff]
  refine List.Pairwise.iff fun f g => and_congr_right fun _ => ?_
  constructor
  · rintro differ tag here tag' there rfl
    exact differ tag here there
  · intro differ tag here there
    exact differ tag here tag there rfl

/-! ### Types -/

namespace FieldType

/-- A type that is not an array, or an array of a type that can be an element: arrays are never
nested. -/
def IsFlat (type : FieldType) : Prop :=
  ∀ element, type = .array element → element.isElement = true

theorem isFlat_of_mem_keywords {name : String} {type : FieldType} (mem : (name, type) ∈ keywords) :
    type.IsFlat := by
  rintro element rfl
  simp [keywords] at mem

theorem readElement_isFlat (cs : List Char) : (readElement cs).IsFlat := by
  unfold readElement
  split
  · rename_i type found
    obtain ⟨before, after, split, -⟩ := List.lookup_eq_some_iff.1 found
    exact isFlat_of_mem_keywords (split ▸ List.mem_append_right _ (List.mem_cons_self ..))
  · split
    · split <;> exact fun _ h => nomatch h
    · exact fun _ h => nomatch h

theorem read_isFlat (text : String) : (read text).IsFlat := by
  unfold read readTrimmed
  split
  · exact readElement_isFlat _
  · dsimp only
    split
    · rename_i ok
      rintro element ⟨⟩
      exact (Bool.and_eq_true_iff.1 ok).2
    · exact fun _ h => nomatch h

end FieldType

/-! ### Building fields -/

namespace Schema

theorem required_eq_ok {α : Type} {place : Place} {key : Attribute} {a? : Option α} {a : α} :
    required place key a? = .ok a ↔ a? = some a := by
  cases a? <;> simp [required]

/-- What it means that a record describes a field of a struct with the versions `within`. -/
structure Built (struct : String) (within : VersionRange) (record : FieldRecord)
    (field : FieldSpec) : Prop where
  /-- The name is required. -/
  name : record.name = some field.name
  /-- The type is required, and read from its text. -/
  type : ∃ text, record.type = some text ∧ field.type = FieldType.read text
  /-- The versions are required; they are cut down to those of the struct, and the tagged versions
  to those of the field. -/
  versions : ∃ text declared, record.versions = some text ∧
    readRange (.field struct field.name) text = .ok declared ∧
    effectiveVersions struct field.name declared within = .ok field.versions ∧
    readTagged struct field.name declared field.versions record.taggedVersions =
      .ok field.taggedVersions
  /-- A tag goes with tagged versions. -/
  tag : field.tag = record.tag ∧
    checkTag struct field.name field.taggedVersions field.tag = .ok ()
  /-- The nullable versions are read as they are. -/
  nullable : readRangeOrNone (.field struct field.name) record.nullableVersions =
    .ok field.nullableVersions
  /-- The default is kept as a text. -/
  default : field.defaultText = record.default.map defaultText
  /-- The documentation is kept. -/
  about : field.about = record.about
  /-- Nested fields make a struct of the name that the type refers to, with the versions of the
  field. -/
  inline : (record.fields = none ∧ field.inlineStruct = none) ∨
    ∃ children structName fields, record.fields = some children ∧
      field.type.structName? = some structName ∧
      buildFields structName field.versions [] children = .ok fields ∧
      field.inlineStruct = some ⟨structName, field.versions, fields⟩

theorem buildInline_eq_ok {place : Place} {typeText : String} {versions : VersionRange}
    {target? : Option String} {nested : Option (List FieldRecord)} {inline? : Option StructSpec} :
    buildInline place typeText versions target? nested = .ok inline? ↔
      (nested = none ∧ inline? = none) ∨
        ∃ children structName fields, nested = some children ∧ target? = some structName ∧
          buildFields structName versions [] children = .ok fields ∧
          inline? = some ⟨structName, versions, fields⟩ := by
  cases nested with
  | none =>
      rw [buildInline]
      simp [eq_comm]
  | some children =>
      cases target? with
      | none =>
          rw [buildInline]
          simp
      | some structName =>
          simp only [buildInline, Outcome.bind_eq_ok]
          simp [eq_comm]

/-- Building a field succeeds exactly with the field that the record describes. -/
theorem buildField_eq_ok {struct : String} {within : VersionRange} {record : FieldRecord}
    {field : FieldSpec} :
    buildField struct within record = .ok field ↔ Built struct within record field := by
  obtain ⟨name?, type?, versions?, tagged?, tag, nullable?, default, about, nested⟩ := record
  simp only [buildField, Outcome.bind_eq_ok, required_eq_ok, buildInline_eq_ok]
  constructor
  · rintro ⟨name, hname, typeText, htype, versionsText, hversions, declared, hdeclared, versions,
      heffective, tagged, htagged, ⟨⟩, htag, nullable, hnullable, inlineStruct, hinline, same⟩
    cases same
    exact ⟨hname, ⟨typeText, htype, rfl⟩,
      ⟨versionsText, declared, hversions, hdeclared, heffective, htagged⟩, ⟨rfl, htag⟩, hnullable,
      rfl, rfl, hinline⟩
  · obtain ⟨name, type, versions, tagged, tag', nullable, text?, about', inlineStruct⟩ := field
    rintro ⟨hname, ⟨typeText, htype, type_eq⟩,
      ⟨versionsText, declared, hversions, hdeclared, heffective, htagged⟩, ⟨tag_eq, htag⟩,
      hnullable, default_eq, about_eq, hinline⟩
    dsimp only at type_eq tag_eq default_eq about_eq
    subst type_eq tag_eq default_eq about_eq
    exact ⟨name, hname, typeText, htype, versionsText, hversions, declared, hdeclared, versions,
      heffective, tagged, htagged, (), htag, nullable, hnullable, inlineStruct, hinline, rfl⟩

theorem readRange_eq_ok {place : Place} {text : String} {range : VersionRange} :
    readRange place text = .ok range ↔ VersionRange.read text = .ok range := by
  unfold readRange
  cases VersionRange.read text <;> simp

/-- An attribute is the text of a version range. -/
def Gives (text? : Option String) (range : VersionRange) : Prop :=
  ∃ text, text? = some text ∧ VersionRange.read text = .ok range

theorem Gives.unique {text? : Option String} {r s : VersionRange} (first : Gives text? r)
    (second : Gives text? s) : r = s := by
  obtain ⟨text, given, read⟩ := first
  obtain ⟨text', given', read'⟩ := second
  cases given.symm.trans given'
  cases read.symm.trans read'
  rfl

theorem effectiveVersions_eq_ok {struct field : String}
    {declared within versions : VersionRange} :
    effectiveVersions struct field declared within = .ok versions ↔
      versions = declared.intersect within ∧
        (declared.isEmpty = true ∨
          ∃ v, declared.contains v = true ∧ within.contains v = true) := by
  have meet : (declared.intersect within).isEmpty = false ↔
      ∃ v, declared.contains v = true ∧ within.contains v = true := by
    simp only [VersionRange.isEmpty_eq_false_iff, VersionRange.contains_intersect, Bool.and_eq_true]
  rw [← meet]
  unfold effectiveVersions
  grind

/-- Tagged versions are read if there are any. They must not be empty, nor leave the declared
versions; what is kept of them are those in which the field exists. -/
theorem readTagged_eq_ok {struct field : String} {declared versions : VersionRange}
    {text? : Option String} {tagged? : Option VersionRange} :
    readTagged struct field declared versions text? = .ok tagged? ↔
      (text? = none ∧ tagged? = none) ∨
        ∃ tagged, Gives text? tagged ∧ (∃ v, tagged.contains v = true) ∧
          (∀ v, tagged.contains v = true → declared.contains v = true) ∧
          tagged? = some (tagged.intersect versions) := by
  cases text? with
  | none =>
      rw [readTagged, Except.ok.injEq, eq_comm]
      simp [Gives]
  | some text =>
      simp only [readTagged, Outcome.bind_eq_ok, readRange_eq_ok, Gives, reduceCtorEq, false_and,
        false_or, Option.some.injEq, exists_eq_left']
      refine exists_congr fun tagged => and_congr_right fun _ => ?_
      rw [← VersionRange.isEmpty_eq_false_iff, ← VersionRange.isSubsetOf_iff]
      -- A subset that is not empty starts no earlier, so the first check repeats the second.
      have starts : tagged.isEmpty = false → tagged.isSubsetOf declared = true →
          ¬ tagged.lowest < declared.lowest := by
        intro nonempty subset
        simp only [VersionRange.isSubsetOf, nonempty, Bool.false_or, Bool.and_eq_true,
          decide_eq_true_eq] at subset
        exact Int.not_lt.2 subset.1.2
      cases empty : tagged.isEmpty <;> cases subset : tagged.isSubsetOf declared <;> grind

theorem checkTag_eq_ok {struct field : String} {tagged : Option VersionRange} {tag : Option Int} :
    checkTag struct field tagged tag = .ok () ↔
      (tag.isSome ↔ tagged.isSome) ∧ ∀ n, tag = some n → 0 ≤ n := by
  cases tagged <;> cases tag <;> simp [checkTag]

theorem Built.versions_eq {struct : String} {within : VersionRange} {record : FieldRecord}
    {field : FieldSpec} (built : Built struct within record field) {declared : VersionRange}
    (given : Gives record.versions declared) : field.versions = declared.intersect within := by
  obtain ⟨text, declared', text_eq, read, effective, -⟩ := built.versions
  obtain rfl : declared = declared' := given.unique ⟨text, text_eq, readRange_eq_ok.1 read⟩
  exact (effectiveVersions_eq_ok.1 effective).1

/-- A field exists at a version if its record declares it for that version and the struct exists. -/
theorem Built.existsAt_eq {struct : String} {within : VersionRange} {record : FieldRecord}
    {field : FieldSpec} (built : Built struct within record field) (v : Version) :
    ∃ text declared, record.versions = some text ∧ VersionRange.read text = .ok declared ∧
      field.existsAt v = (declared.contains v && within.contains v) := by
  obtain ⟨text, declared, given, read, -⟩ := built.versions
  have declares := readRange_eq_ok.1 read
  refine ⟨text, declared, given, declares, ?_⟩
  rw [FieldSpec.existsAt, built.versions_eq ⟨text, given, declares⟩,
    VersionRange.contains_intersect]

/-- The struct that a field defines has the name that its type refers to, and its versions. -/
theorem Built.inline_eq {struct : String} {within : VersionRange} {record : FieldRecord}
    {field : FieldSpec} (built : Built struct within record field) {u : StructSpec}
    (inline : field.inlineStruct = some u) :
    field.type.structName? = some u.name ∧ u.versions = field.versions ∧
      ∃ children, record.fields = some children ∧
        buildFields u.name u.versions [] children = .ok u.fields := by
  rcases built.inline with ⟨-, absent⟩ | ⟨children, structName, fields, nested, refers, run, there⟩
  · cases inline.symm.trans absent
  · cases inline.symm.trans there
    exact ⟨refers, rfl, children, nested, run⟩

/-! ### Lists of fields -/

theorem checkUnique_eq_ok {struct : String} {before : List FieldSpec} {field : FieldSpec} :
    checkUnique struct before field = .ok () ↔ ∀ earlier ∈ before, earlier.Apart field := by
  unfold checkUnique FieldSpec.Apart
  cases field.tag <;> grind

section

variable {struct : String} {within : VersionRange} {records : List FieldRecord}
  {before fields : List FieldSpec}

/-- Building the fields of a struct succeeds exactly with the fields that the records describe one
by one, provided that they are apart from each other and from those before them. -/
theorem buildFields_eq_ok :
    buildFields struct within before records = .ok fields ↔
      List.Forall₂ (Built struct within) records fields ∧ fields.Pairwise FieldSpec.Apart ∧
        ∀ earlier ∈ before, ∀ field ∈ fields, earlier.Apart field := by
  induction records generalizing before fields with
  | nil =>
      rw [buildFields, List.forall₂_nil_left_iff]
      constructor
      · intro run
        cases run
        simp
      · rintro ⟨rfl, -⟩
        rfl
  | cons record records ih =>
      simp only [buildFields, Outcome.bind_eq_ok, buildField_eq_ok, List.forall₂_cons_left_iff]
      constructor
      · rintro ⟨first, built, ⟨⟩, unique, others, run, same⟩
        cases same
        obtain ⟨all, apart, later⟩ := ih.1 run
        refine ⟨⟨first, others, built, all, rfl⟩, List.pairwise_cons.2 ⟨?_, apart⟩, ?_⟩
        · exact later first (List.mem_cons_self ..)
        · intro earlier mem field listed
          rcases List.mem_cons.1 listed with rfl | listed
          · exact checkUnique_eq_ok.1 unique earlier mem
          · exact later earlier (List.mem_cons_of_mem _ mem) field listed
      · rintro ⟨⟨first, others, built, all, rfl⟩, apart, new⟩
        obtain ⟨apart_first, apart⟩ := List.pairwise_cons.1 apart
        refine ⟨first, built, (), checkUnique_eq_ok.2 ?_, others, ih.2 ⟨all, apart, ?_⟩, rfl⟩
        · exact fun earlier mem => new earlier mem first (List.mem_cons_self ..)
        · intro earlier mem field listed
          rcases List.mem_cons.1 mem with rfl | mem
          · exact apart_first field listed
          · exact new earlier mem field (List.mem_cons_of_mem _ listed)

/-- The same for all the fields of a struct, with nothing before them. -/
theorem buildFields_nil_eq_ok :
    buildFields struct within [] records = .ok fields ↔
      List.Forall₂ (Built struct within) records fields ∧ fields.Pairwise FieldSpec.Apart := by
  rw [buildFields_eq_ok]
  simp

theorem exists_built_of_mem (run : buildFields struct within before records = .ok fields)
    {field : FieldSpec} (mem : field ∈ fields) :
    ∃ record ∈ records, Built struct within record field :=
  Outcome.exists_of_mem_right (buildFields_eq_ok.1 run).1 mem

end

/-! ### Shared structs and messages -/

theorem readRangeOrNone_eq_ok {place : Place} {text? : Option String} {range : VersionRange} :
    readRangeOrNone place text? = .ok range ↔
      (text? = none ∧ range = .none) ∨ Gives text? range := by
  cases text? with
  | none => simp [readRangeOrNone, Gives, eq_comm]
  | some text => simp [readRangeOrNone, Gives, readRange_eq_ok]

theorem readValidVersions_eq_ok {message text : String} {range : VersionRange} :
    readValidVersions message text = .ok range ↔
      VersionRange.read text = .ok range ∧ range.isOpenEnded = false ∧ range.isEmpty = false := by
  simp only [readValidVersions, Outcome.bind_eq_ok, readRange_eq_ok]
  constructor
  · rintro ⟨valid, read, run⟩
    split at run
    · cases run
    · split at run
      · cases run
      · rename_i closed nonempty
        cases run
        exact ⟨read, Bool.eq_false_iff.2 closed, Bool.eq_false_iff.2 nonempty⟩
  · rintro ⟨read, closed, nonempty⟩
    exact ⟨range, read, by simp [closed, nonempty]⟩

theorem buildCommonStruct_eq_ok {message : String} {record : StructRecord} {spec : StructSpec} :
    buildCommonStruct message record = .ok spec ↔
      record.name = some spec.name ∧ Gives record.versions spec.versions ∧
        ∃ records, record.fields = some records ∧
          buildFields spec.name spec.versions [] records = .ok spec.fields := by
  simp only [buildCommonStruct, Outcome.bind_eq_ok, required_eq_ok, readRange_eq_ok, Gives]
  constructor
  · rintro ⟨name, hname, text, htext, versions, read, records, hrecords, fields, run, same⟩
    cases same
    exact ⟨hname, ⟨text, htext, read⟩, records, hrecords, run⟩
  · obtain ⟨name, versions, fields⟩ := spec
    rintro ⟨hname, ⟨text, htext, read⟩, records, hrecords, run⟩
    exact ⟨name, hname, text, htext, versions, read, records, hrecords, fields, run, rfl⟩

/-- What it means that a record describes a message. -/
structure BuiltMessage (record : MessageRecord) (m : MessageSpec) : Prop where
  /-- The name is required. -/
  name : record.name = some m.name
  /-- What is not checked is kept. -/
  kept : m.apiKey = record.apiKey ∧ m.role = record.role
  /-- The versions are required, and neither open ended nor empty. -/
  valid : Gives record.validVersions m.validVersions ∧ m.validVersions.isOpenEnded = false ∧
    m.validVersions.isEmpty = false
  /-- There need not be flexible versions. -/
  flexible : (record.flexibleVersions = none ∧ m.flexibleVersions = .none) ∨
    Gives record.flexibleVersions m.flexibleVersions
  /-- The top-level struct has the name and the versions of the message. -/
  struct : m.struct.name = m.name ∧ m.struct.versions = m.validVersions
  /-- Its fields are required. -/
  fields : ∃ records, record.fields = some records ∧
    buildFields m.name m.validVersions [] records = .ok m.struct.fields
  /-- The shared structs are built one by one. -/
  shared : List.Forall₂ (fun shared spec => buildCommonStruct m.name shared = .ok spec)
    record.commonStructs m.commonStructs

/-- Building a message succeeds exactly with the message that the record describes. -/
theorem buildMessage_eq_ok {record : MessageRecord} {m : MessageSpec} :
    buildMessage record = .ok m ↔ BuiltMessage record m := by
  simp only [buildMessage, Outcome.bind_eq_ok, required_eq_ok, readValidVersions_eq_ok,
    readRangeOrNone_eq_ok, Outcome.mapM_eq_ok]
  constructor
  · rintro ⟨name, hname, text, htext, valid, ⟨read, finite⟩, flexible, hflexible, records, hrecords,
      fields, run, commonStructs, hcommon, same⟩
    cases same
    exact ⟨hname, ⟨rfl, rfl⟩, ⟨⟨text, htext, read⟩, finite⟩, hflexible, ⟨rfl, rfl⟩,
      ⟨records, hrecords, run⟩, hcommon⟩
  · obtain ⟨name, apiKey, role, valid, flexible, ⟨structName, structVersions, fields⟩,
      commonStructs⟩ := m
    rintro ⟨hname, ⟨key_eq, role_eq⟩, ⟨⟨text, htext, read⟩, finite⟩, hflexible,
      ⟨name_eq, versions_eq⟩, ⟨records, hrecords, run⟩, hcommon⟩
    dsimp only at key_eq role_eq name_eq versions_eq
    subst key_eq role_eq name_eq versions_eq
    exact ⟨_, hname, text, htext, _, ⟨read, finite⟩, flexible, hflexible, records, hrecords,
      fields, run, commonStructs, hcommon, rfl⟩

end Schema

/-! ### Loading -/

namespace StructSpec

open Schema (buildFields)

/-- The fields of a struct are those that some records describe. -/
def FromRecords (s : StructSpec) : Prop :=
  ∃ records, buildFields s.name s.versions [] records = .ok s.fields

/-- What a field of a struct built from records defines is built from records too. -/
theorem FromRecords.inline {s u : StructSpec} {f : FieldSpec} (h : s.FromRecords)
    (mem : f ∈ s.fields) (inline : f.inlineStruct = some u) : u.FromRecords := by
  obtain ⟨records, run⟩ := h
  obtain ⟨record, -, built⟩ := Schema.exists_built_of_mem run mem
  obtain ⟨-, -, children, -, fields⟩ := built.inline_eq inline
  exact ⟨children, fields⟩

theorem FromRecords.structName?_of_inline {s u : StructSpec} {f : FieldSpec} (h : s.FromRecords)
    (mem : f ∈ s.fields) (inline : f.inlineStruct = some u) :
    ∃ typeName, f.type.structName? = some typeName := by
  obtain ⟨records, run⟩ := h
  obtain ⟨record, -, built⟩ := Schema.exists_built_of_mem run mem
  exact ⟨u.name, (built.inline_eq inline).1⟩

theorem FromRecords.fieldNames_nodup {s : StructSpec} (h : s.FromRecords) : s.fieldNames.Nodup := by
  obtain ⟨records, run⟩ := h
  exact (FieldSpec.pairwise_apart_iff.1 (Schema.buildFields_nil_eq_ok.1 run).2).1

end StructSpec

namespace MessageSpec

open Schema (Built buildCommonStruct buildMessage)

/-- Loading reads a record, and builds the message that it describes. -/
theorem load_eq_ok {text : String} {m : MessageSpec} :
    load text = .ok m ↔
      ∃ record, Schema.MessageRecord.read? (Text.stripComments text) = some record ∧
        buildMessage record = .ok m := by
  unfold load
  cases Schema.MessageRecord.read? (Text.stripComments text) <;> simp

/-- Loading stage by stage, which is how the message of a given document is worked out. -/
theorem load_of_tokens {cs : List Char} {tokens : List Json.Token} {tree : Json.Written}
    {record : Schema.MessageRecord} {m : MessageSpec}
    (split : Json.tokens? (Text.dropComments .code cs) = some tokens)
    (arranged : tokens.foldlM Json.Reading.step (.value []) = some (.complete tree))
    (read : Schema.MessageRecord.ofWritten? Json.nestingLimit tree = some record)
    (built : buildMessage record = .ok m) : load (String.ofList cs) = .ok m := by
  refine load_eq_ok.2 ⟨record, ?_, built⟩
  simp [Text.stripComments, Schema.MessageRecord.read?, Json.Written.ofText?, split, arranged, read]

theorem fromRecords_of_buildCommonStruct {message : String} {record : Schema.StructRecord}
    {spec : StructSpec} (run : buildCommonStruct message record = .ok spec) : spec.FromRecords := by
  obtain ⟨-, -, records, -, fields⟩ := Schema.buildCommonStruct_eq_ok.1 run
  exact ⟨records, fields⟩

theorem fromRecords_of_buildMessage {record : Schema.MessageRecord} {m : MessageSpec}
    (run : buildMessage record = .ok m) :
    m.struct.name = m.name ∧ m.struct.FromRecords ∧
      ∀ shared ∈ m.commonStructs, shared.FromRecords := by
  have built := Schema.buildMessage_eq_ok.1 run
  obtain ⟨records, -, fields⟩ := built.fields
  refine ⟨built.struct.1, ⟨records, ?_⟩, fun shared mem => ?_⟩
  · rw [built.struct.1, built.struct.2]
    exact fields
  · obtain ⟨record', -, common⟩ := Outcome.exists_of_mem_right built.shared mem
    exact fromRecords_of_buildCommonStruct common

/-- **Every struct of a loaded message**, at any depth, is built from records. -/
theorem exists_records {text : String} {m : MessageSpec} (loaded : load text = .ok m)
    {s : StructSpec} (has : m.HasStruct s) : s.FromRecords := by
  obtain ⟨record, -, run⟩ := load_eq_ok.1 loaded
  obtain ⟨-, top, shared⟩ := fromRecords_of_buildMessage run
  have step : ∀ (t : StructSpec) (f : FieldSpec) (u : StructSpec), t.FromRecords → f ∈ t.fields →
      f.inlineStruct = some u → u.FromRecords :=
    fun _ _ _ h mem inline => h.inline mem inline
  rcases has with rfl | mem | inside | ⟨outer, mem, inside⟩
  · exact top
  · exact shared s mem
  · exact inside.induction top step
  · exact inside.induction (shared outer mem) step

theorem struct_name_of_load {text : String} {m : MessageSpec} (loaded : load text = .ok m) :
    m.struct.name = m.name := by
  obtain ⟨record, -, run⟩ := load_eq_ok.1 loaded
  exact (fromRecords_of_buildMessage run).1

theorem exists_built {text : String} {m : MessageSpec} (loaded : load text = .ok m)
    {s : StructSpec} (has : m.HasStruct s) {f : FieldSpec} (mem : f ∈ s.fields) :
    ∃ record, Built s.name s.versions record f := by
  obtain ⟨records, run⟩ := exists_records loaded has
  obtain ⟨record, -, built⟩ := Schema.exists_built_of_mem run mem
  exact ⟨record, built⟩

theorem isFlat_of_load {text : String} {m : MessageSpec} (loaded : load text = .ok m)
    {s : StructSpec} (has : m.HasStruct s) {f : FieldSpec} (mem : f ∈ s.fields) :
    f.type.IsFlat := by
  obtain ⟨record, built⟩ := exists_built loaded has mem
  obtain ⟨typeText, -, type_eq⟩ := built.type
  rw [type_eq]
  exact FieldType.read_isFlat typeText

end MessageSpec

/-! ### Two documents

`Journal` has one nested struct, which refers to itself and so is referred to from two call sites.

`Ticket` has every kind of struct: `Seat` defines `Place`, whose fields are open to either side of
it, and is tagged from version 3 on; `Fare` is shared and has versions that the message has not. The
documentation of `RideCount` has a closing brace and a field in it. -/

namespace Sample

def journalText : String :=
  "\x7b\"name\":\"Journal\",\"validVersions\":\"0-1\",\"fields\":[
    \x7b\"name\":\"Head\",\"type\":\"Entry\",\"versions\":\"0+\",\"fields\":[
      \x7b\"name\":\"Next\",\"type\":\"Entry\",\"versions\":\"0+\"\x7d,
      \x7b\"name\":\"Tags\",\"type\":\"[]string\",\"versions\":\"1+\"\x7d]\x7d,
    \x7b\"name\":\"Note\",\"type\":\"string\",\"versions\":\"0+\"\x7d]\x7d"

/-- The nested struct. -/
def entry : StructSpec :=
  ⟨"Entry", ⟨0, 1⟩,
    [⟨"Next", .struct "Entry", ⟨0, 1⟩, none, none, .none, none, none, none⟩,
      ⟨"Tags", .array .string, ⟨1, 1⟩, none, none, .none, none, none, none⟩]⟩

def journal : MessageSpec where
  name := "Journal"
  apiKey := none
  role := .data
  validVersions := ⟨0, 1⟩
  flexibleVersions := .none
  struct := ⟨"Journal", ⟨0, 1⟩,
    [⟨"Head", .struct "Entry", ⟨0, 1⟩, none, none, .none, none, none, some entry⟩,
      ⟨"Note", .string, ⟨0, 1⟩, none, none, .none, none, none, none⟩]⟩
  commonStructs := []

set_option maxRecDepth 2000 in
theorem load_journalText : MessageSpec.load journalText = .ok journal :=
  MessageSpec.load_of_tokens (by cbv) rfl rfl rfl

def journalRegistry : Registry where
  definitions := [entry]
  firstSites := [("Entry", ⟨"Journal", "Journal", "Head"⟩)]
  visited := [⟨"Journal", "Entry", "Next"⟩, ⟨"Journal", "Journal", "Head"⟩]
  common := ["Entry"]
  distinct := by decide

theorem ofMessage_journal : Registry.ofMessage journal = .ok journalRegistry := rfl

def ticketText : String :=
  "\x7b\"name\":\"Ticket\",\"type\":\"request\",\"validVersions\":\"1-4\",
    \"flexibleVersions\":\"1+\",\"fields\":[
    \x7b\"name\":\"Seat\",\"type\":\"Place\",\"versions\":\"2+\",\"taggedVersions\":\"3+\",
      \"tag\":0,\"fields\":[
      \x7b\"name\":\"Row\",\"type\":\"int32\",\"versions\":\"0-3\"\x7d,
      \x7b\"name\":\"Label\",\"type\":\"string\",\"versions\":\"3+\",\"nullableVersions\":\"3+\",
        \"taggedVersions\":\"4\",\"tag\":0,\"about\":\"Where to sit.\"\x7d,
      \x7b\"name\":\"Keys\",\"type\":\"[]uuid\",\"versions\":\"0+\"\x7d]\x7d,
    \x7b\"name\":\"RideCount\",\"type\":\"int8\",\"versions\":\"0+\",
      \"about\":\"Rides.\\n\x7d\\n    pub hidden: bool,\\r\\n\"\x7d,
    \x7b\"name\":\"Type\",\"type\":\"string\",\"versions\":\"0+\"\x7d,
    \x7b\"name\":\"Level\",\"type\":\"int8\",\"versions\":\"4+\",\"default\":\"0x7F\"\x7d],
   \"commonStructs\":[\x7b\"name\":\"Fare\",\"versions\":\"0-5\",\"fields\":[
      \x7b\"name\":\"Price\",\"type\":\"int64\",\"versions\":\"3+\"\x7d]\x7d]\x7d"

/-- The nested struct. -/
def place : StructSpec :=
  ⟨"Place", ⟨2, 4⟩,
    [⟨"Row", .int .int32, ⟨2, 3⟩, none, none, .none, none, none, none⟩,
      ⟨"Label", .string, ⟨3, 4⟩, some ⟨4, 4⟩, some 0, .startingAt 3, none, some "Where to sit.",
        none⟩,
      ⟨"Keys", .array .uuid, ⟨2, 4⟩, none, none, .none, none, none, none⟩]⟩

/-- The shared struct. -/
def fare : StructSpec :=
  ⟨"Fare", ⟨0, 5⟩, [⟨"Price", .int .int64, ⟨3, 5⟩, none, none, .none, none, none, none⟩]⟩

def rideCount : FieldSpec :=
  ⟨"RideCount", .int .int8, ⟨1, 4⟩, none, none, .none, none,
    some "Rides.\n\x7d\n    pub hidden: bool,\r\n", none⟩

def level : FieldSpec :=
  ⟨"Level", .int .int8, ⟨4, 4⟩, none, none, .none, some "0x7F", none, none⟩

def ticket : MessageSpec where
  name := "Ticket"
  apiKey := none
  role := .request
  validVersions := ⟨1, 4⟩
  flexibleVersions := .startingAt 1
  struct := ⟨"Ticket", ⟨1, 4⟩,
    [⟨"Seat", .struct "Place", ⟨2, 4⟩, some ⟨3, 4⟩, some 0, .none, none, none, some place⟩,
      rideCount,
      ⟨"Type", .string, ⟨1, 4⟩, none, none, .none, none, none, none⟩,
      level]⟩
  commonStructs := [fare]

set_option maxRecDepth 4000 in
theorem load_ticketText : MessageSpec.load ticketText = .ok ticket :=
  MessageSpec.load_of_tokens (by cbv) rfl rfl rfl

def ticketRegistry : Registry where
  definitions := [fare, place]
  firstSites := [("Place", ⟨"Ticket", "Ticket", "Seat"⟩)]
  visited := [⟨"Ticket", "Ticket", "Seat"⟩]
  common := ["Fare"]
  distinct := by decide

end Sample

end WireSchema
