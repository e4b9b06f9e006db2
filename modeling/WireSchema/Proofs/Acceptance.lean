import WireSchema.Proofs.Loaded

/-!
# Which records describe a message

The loader checks a record attribute by attribute, goes down into nested fields on the way, and
stops at the first fault. The rules themselves have no order. This module states them about the
record alone, in terms of the versions that ranges contain, and shows that the loader accepts
exactly the records that obey them (`buildMessage_succeeds_iff_admissible`).

Two ranges occur in the rules for a field: tagged versions are compared with the versions that the
field *declares*, and nested fields with those that are left of them inside the struct.
-/

namespace WireSchema

namespace Schema

/-! ### The rules -/

/-- The rules for a field by itself, in a struct with the versions `within`. -/
structure FieldRecord.Sound (within : VersionRange) (record : FieldRecord) : Prop where
  name : record.name.isSome
  type : record.type.isSome
  /-- The versions can be read; there are none of them, or the struct has some of them. Tagged
  versions are some of them. -/
  versions : ∃ declared, Gives record.versions declared ∧
    (declared.isEmpty = true ∨ ∃ v, declared.contains v = true ∧ within.contains v = true) ∧
    ∀ text, record.taggedVersions = some text →
      ∃ tagged, VersionRange.read text = .ok tagged ∧ (∃ v, tagged.contains v = true) ∧
        ∀ v, tagged.contains v = true → declared.contains v = true
  tag : (record.tag.isSome ↔ record.taggedVersions.isSome) ∧ ∀ n, record.tag = some n → 0 ≤ n
  nullable : ∀ text, record.nullableVersions = some text →
    ∃ range, VersionRange.read text = .ok range
  /-- Only a struct or an array of structs has nested fields. -/
  nested : record.fields.isSome → ∃ text name, record.type = some text ∧
    (FieldType.read text = .struct name ∨ FieldType.read text = .array (.struct name))

/-- The rules for the fields of a struct with the versions `within`, at every depth. -/
inductive AdmissibleFields : VersionRange → List FieldRecord → Prop where
  | intro {within : VersionRange} {records : List FieldRecord}
      (names : (records.filterMap (·.name)).Nodup)
      (tags : (records.filterMap (·.tag)).Nodup)
      (each : ∀ record ∈ records, record.Sound within)
      (nested : ∀ record ∈ records, ∀ declared children, Gives record.versions declared →
        record.fields = some children →
        AdmissibleFields (declared.intersect within) children) : AdmissibleFields within records

/-- The rules for a shared struct. -/
structure StructRecord.Admissible (record : StructRecord) : Prop where
  name : record.name.isSome
  fields : ∃ versions records, Gives record.versions versions ∧ record.fields = some records ∧
    AdmissibleFields versions records

/-- The rules for a message. -/
structure MessageRecord.Admissible (record : MessageRecord) : Prop where
  name : record.name.isSome
  /-- There is a finite number of versions, and at least one. -/
  fields : ∃ valid records, Gives record.validVersions valid ∧ (∃ v, valid.contains v = true) ∧
    valid.isOpenEnded = false ∧ record.fields = some records ∧ AdmissibleFields valid records
  flexible : ∀ text, record.flexibleVersions = some text →
    ∃ range, VersionRange.read text = .ok range
  shared : ∀ shared ∈ record.commonStructs, shared.Admissible

/-! ### Single checks -/

theorem readRangeOrNone_succeeds_iff {place : Place} {text? : Option String} :
    (∃ range, readRangeOrNone place text? = .ok range) ↔
      ∀ text, text? = some text → ∃ range, VersionRange.read text = .ok range := by
  simp only [readRangeOrNone_eq_ok, Gives]
  cases text? <;> simp

theorem readTagged_succeeds_iff {struct field : String} {declared versions : VersionRange}
    {text? : Option String} :
    (∃ tagged?, readTagged struct field declared versions text? = .ok tagged?) ↔
      ∀ text, text? = some text →
        ∃ tagged, VersionRange.read text = .ok tagged ∧ (∃ v, tagged.contains v = true) ∧
          ∀ v, tagged.contains v = true → declared.contains v = true := by
  simp only [readTagged_eq_ok, Gives]
  cases text? with
  | none => simp
  | some text =>
      simp only [reduceCtorEq, false_and, false_or, Option.some.injEq, exists_eq_left', forall_eq']
      constructor
      · rintro ⟨_, tagged, read, some_v, subset, -⟩
        exact ⟨tagged, read, some_v, subset⟩
      · rintro ⟨tagged, read, some_v, subset⟩
        exact ⟨_, tagged, read, some_v, subset, rfl⟩

theorem isSome_of_readTagged {struct field : String} {declared versions : VersionRange}
    {text? : Option String} {tagged? : Option VersionRange}
    (run : readTagged struct field declared versions text? = .ok tagged?) :
    tagged?.isSome ↔ text?.isSome := by
  rcases readTagged_eq_ok.1 run with ⟨rfl, rfl⟩ | ⟨tagged, ⟨text, rfl, -⟩, -, -, rfl⟩
  · exact Iff.rfl
  · simp

theorem structName?_read_iff {text name : String} :
    (FieldType.read text).structName? = some name ↔
      FieldType.read text = .struct name ∨ FieldType.read text = .array (.struct name) := by
  have flat := FieldType.read_isFlat text
  cases type : FieldType.read text with
  | struct other => simp [FieldType.structName?]
  | array element =>
      -- An element is no array itself, so that the name cannot come from further inside.
      have inner := flat element type
      cases element <;> simp_all [FieldType.structName?, FieldType.isElement]
  | _ => simp [FieldType.structName?]

/-! ### One field -/

section

variable {struct : String} {within : VersionRange} {record : FieldRecord} {field : FieldSpec}

/-- A record that describes a field obeys the rules. -/
theorem Built.sound (built : Built struct within record field) : record.Sound within := by
  obtain ⟨typeText, type_given, type_eq⟩ := built.type
  obtain ⟨text, declared, given, read, effective, tagged⟩ := built.versions
  obtain ⟨tag_eq, tag_checked⟩ := built.tag
  have inside := (effectiveVersions_eq_ok.1 effective).2
  have tagged_within := readTagged_succeeds_iff.1 ⟨_, tagged⟩
  have tag_rule := checkTag_eq_ok.1 tag_checked
  rw [tag_eq, isSome_of_readTagged tagged] at tag_rule
  refine ⟨by simp [built.name], by simp [type_given],
    ⟨declared, ⟨text, given, readRange_eq_ok.1 read⟩, inside, tagged_within⟩, tag_rule,
    readRangeOrNone_succeeds_iff.1 ⟨_, built.nullable⟩, ?_⟩
  intro has_nested
  rcases built.inline with ⟨absent, -⟩ | ⟨_, structName, _, -, refers, -⟩
  · simp [absent] at has_nested
  · rw [type_eq] at refers
    exact ⟨typeText, structName, type_given, structName?_read_iff.1 refers⟩

theorem Built.nested (built : Built struct within record field) {declared : VersionRange}
    {children : List FieldRecord} (given : Gives record.versions declared)
    (nested : record.fields = some children) :
    ∃ structName fields,
      buildFields structName (declared.intersect within) [] children = .ok fields := by
  rcases built.inline with ⟨absent, -⟩ | ⟨_, structName, fields, children_eq, -, run, -⟩
  · cases nested.symm.trans absent
  · cases nested.symm.trans children_eq
    rw [built.versions_eq given] at run
    exact ⟨structName, fields, run⟩

/-- A record that obeys the rules describes a field, if the records nested in it describe fields. -/
theorem FieldRecord.Sound.exists_built (sound : record.Sound within)
    (nested : ∀ declared children, Gives record.versions declared →
      record.fields = some children → ∀ structName, ∃ fields,
        buildFields structName (declared.intersect within) [] children = .ok fields) :
    ∃ field, Built struct within record field := by
  obtain ⟨name, name_given⟩ := Option.isSome_iff_exists.1 sound.name
  obtain ⟨typeText, type_given⟩ := Option.isSome_iff_exists.1 sound.type
  obtain ⟨declared, given, inside, tagged_within⟩ := sound.versions
  have effective : effectiveVersions struct name declared within =
      .ok (declared.intersect within) := effectiveVersions_eq_ok.2 ⟨rfl, inside⟩
  obtain ⟨tagged, htagged⟩ : ∃ tagged?, readTagged struct name declared
      (declared.intersect within) record.taggedVersions = .ok tagged? :=
    readTagged_succeeds_iff.2 tagged_within
  have tag_checked : checkTag struct name tagged record.tag = .ok () := by
    rw [checkTag_eq_ok, isSome_of_readTagged htagged]
    exact sound.tag
  obtain ⟨nullable, hnullable⟩ : ∃ range,
      readRangeOrNone (.field struct name) record.nullableVersions = .ok range :=
    readRangeOrNone_succeeds_iff.2 sound.nullable
  obtain ⟨inline?, hinline⟩ : ∃ inline?, buildInline (.field struct name) typeText
      (declared.intersect within) (FieldType.read typeText).structName? record.fields =
      .ok inline? := by
    simp only [buildInline_eq_ok]
    cases children_eq : record.fields with
    | none => exact ⟨none, .inl ⟨rfl, rfl⟩⟩
    | some children =>
        obtain ⟨text, structName, type_eq, refers⟩ := sound.nested (by simp [children_eq])
        cases type_given.symm.trans type_eq
        obtain ⟨fields, run⟩ := nested declared children given children_eq structName
        exact ⟨_, .inr ⟨children, structName, fields, rfl, structName?_read_iff.2 refers, run, rfl⟩⟩
  obtain ⟨text, text_given, read⟩ := given
  exact ⟨⟨name, FieldType.read typeText, declared.intersect within, tagged, record.tag, nullable,
      record.default.map defaultText, record.about, inline?⟩,
    name_given, ⟨typeText, type_given, rfl⟩,
    ⟨text, declared, text_given, readRange_eq_ok.2 read, effective, htagged⟩, ⟨rfl, tag_checked⟩,
    hnullable, rfl, rfl, buildInline_eq_ok.1 hinline⟩

end

/-! ### Lists of fields -/

section

variable {struct : String} {within : VersionRange} {records : List FieldRecord}
  {fields : List FieldSpec}

/-- The fields have the names and tags of the records. -/
theorem keys_of_built (built : List.Forall₂ (Built struct within) records fields) :
    records.filterMap (·.name) = fields.map (·.name) ∧
      records.filterMap (·.tag) = fields.filterMap (·.tag) := by
  induction built with
  | nil => exact ⟨rfl, rfl⟩
  | cons first _ ih =>
      obtain ⟨names, tags⟩ := ih
      simp [List.filterMap_cons, first.name, first.tag.1, names, tags]

theorem sizeOf_lt_of_nested {record : FieldRecord} {children : List FieldRecord}
    (mem : record ∈ records) (nested : record.fields = some children) :
    sizeOf children < sizeOf records := by
  have listed := List.sizeOf_lt_of_mem mem
  obtain ⟨_, _, _, _, _, _, _, _, fields⟩ := record
  simp only at nested
  subst nested
  simp at listed
  omega

theorem admissible_of_buildFields {struct : String} {within : VersionRange}
    {records : List FieldRecord} {fields : List FieldSpec}
    (run : buildFields struct within [] records = .ok fields) :
    AdmissibleFields within records := by
  obtain ⟨built, apart⟩ := buildFields_nil_eq_ok.1 run
  obtain ⟨names, tags⟩ := keys_of_built built
  rw [FieldSpec.pairwise_apart_iff, ← names, ← tags] at apart
  refine .intro apart.1 apart.2 (fun record mem => ?_) ?_
  · obtain ⟨field, -, here⟩ := Outcome.exists_of_mem_left built mem
    exact here.sound
  · intro record mem declared children given nested
    obtain ⟨field, -, here⟩ := Outcome.exists_of_mem_left built mem
    obtain ⟨structName, inner, run⟩ := here.nested given nested
    exact admissible_of_buildFields run
termination_by sizeOf records
decreasing_by exact sizeOf_lt_of_nested mem nested

/-- Records that obey the rules describe the fields of a struct, whatever its name. -/
theorem AdmissibleFields.exists_buildFields (h : AdmissibleFields within records)
    (struct : String) : ∃ fields, buildFields struct within [] records = .ok fields := by
  induction h generalizing struct with
  | @intro within records names tags each _ ih =>
      have describes : ∀ record ∈ records, ∃ field, Built struct within record field := by
        intro record mem
        refine (each record mem).exists_built fun declared children given nested structName => ?_
        exact ih record mem declared children given nested structName
      obtain ⟨fields, built⟩ := Outcome.exists_forall₂ describes
      obtain ⟨names_eq, tags_eq⟩ := keys_of_built built
      rw [names_eq] at names
      rw [tags_eq] at tags
      exact ⟨fields, buildFields_nil_eq_ok.2 ⟨built, FieldSpec.pairwise_apart_iff.2 ⟨names, tags⟩⟩⟩

end

/-! ### Shared structs and messages -/

theorem buildCommonStruct_succeeds_iff {message : String} {record : StructRecord} :
    (∃ spec, buildCommonStruct message record = .ok spec) ↔ record.Admissible := by
  simp only [buildCommonStruct_eq_ok]
  constructor
  · rintro ⟨spec, name, given, records, records_eq, run⟩
    exact ⟨by simp [name], spec.versions, records, given, records_eq, admissible_of_buildFields run⟩
  · rintro ⟨named, versions, records, given, records_eq, admissible⟩
    obtain ⟨name, name_eq⟩ := Option.isSome_iff_exists.1 named
    obtain ⟨fields, run⟩ := admissible.exists_buildFields name
    exact ⟨⟨name, versions, fields⟩, name_eq, given, records, records_eq, run⟩

/-- **Acceptance.** A record is accepted as a message exactly if it obeys the declared rules. -/
theorem buildMessage_succeeds_iff_admissible (record : MessageRecord) :
    (∃ m, buildMessage record = .ok m) ↔ record.Admissible := by
  simp only [buildMessage_eq_ok]
  constructor
  · rintro ⟨m, built⟩
    obtain ⟨given, closed, nonempty⟩ := built.valid
    obtain ⟨records, records_eq, run⟩ := built.fields
    have flexible : readRangeOrNone (.message m.name) record.flexibleVersions =
        .ok m.flexibleVersions := readRangeOrNone_eq_ok.2 built.flexible
    refine ⟨by simp [built.name], ⟨m.validVersions, records, given,
      VersionRange.isEmpty_eq_false_iff.1 nonempty, closed, records_eq,
      admissible_of_buildFields run⟩, readRangeOrNone_succeeds_iff.1 ⟨_, flexible⟩, ?_⟩
    intro shared mem
    obtain ⟨spec, -, common⟩ := Outcome.exists_of_mem_left built.shared mem
    exact buildCommonStruct_succeeds_iff.1 ⟨spec, common⟩
  · rintro ⟨named, ⟨valid, records, given, nonempty, closed, records_eq, admissible⟩, flexible,
      shared⟩
    obtain ⟨name, name_eq⟩ := Option.isSome_iff_exists.1 named
    obtain ⟨fields, run⟩ := admissible.exists_buildFields name
    obtain ⟨range, flexible⟩ : ∃ range, readRangeOrNone (.message name) record.flexibleVersions =
        .ok range := readRangeOrNone_succeeds_iff.2 flexible
    have common : ∀ s ∈ record.commonStructs, ∃ spec, buildCommonStruct name s = .ok spec :=
      fun s mem => buildCommonStruct_succeeds_iff.2 (shared s mem)
    obtain ⟨specs, built⟩ := Outcome.exists_forall₂ common
    exact ⟨⟨name, record.apiKey, record.role, valid, range, ⟨name, valid, fields⟩, specs⟩, name_eq,
      ⟨rfl, rfl⟩, ⟨given, closed, VersionRange.isEmpty_eq_false_iff.2 nonempty⟩,
      readRangeOrNone_eq_ok.1 flexible, ⟨rfl, rfl⟩, ⟨records, records_eq, run⟩, built⟩

end Schema

end WireSchema
