import Mathlib.Data.List.Nodup
import WireSchema.Instance
import WireSchema.Proofs.Casing
import WireSchema.Proofs.Declarations
import WireSchema.Proofs.Definitions
import WireSchema.Proofs.Rendering

/-!
# Identifiers of fields

A struct declares no field name twice, but a generated struct shows the identifiers of the fields,
and two names may have one identifier. This module says when: the names have one snake case form, or
one form is a keyword and the other is how that keyword is written (`fieldIdentifier_eq_iff`). A
field may also take the identifier of the field for unknown tagged fields.

None of this happens to names in Pascal case in which no `#` occurs.
-/

namespace WireSchema

namespace Backend.Rust

/-! ### Keywords -/

/-- The second text is how the first one is written, which is a keyword. -/
def Escapes (word name : String) : Prop :=
  (word ∈ keywords ∧ name = "r#" ++ word) ∨ (word ∈ pathKeywords ∧ name = word ++ "_")

theorem hash_not_mem_keyword : ∀ word ∈ keywords, '#' ∉ word.toList := by
  decide

theorem hash_not_mem_path : ∀ word ∈ pathKeywords, '#' ∉ (word ++ "_").toList := by
  decide

theorem not_mem_keywords_of_path : ∀ word ∈ pathKeywords, word ∉ keywords := by
  decide

theorem hash_mem_marked (word : String) : '#' ∈ ("r#" ++ word).toList := by
  simp

theorem escapeKeyword_of_keyword {word : String} (keyword : word ∈ keywords) :
    escapeKeyword word = "r#" ++ word := by
  simp [escapeKeyword, keyword]

theorem escapeKeyword_of_path {word : String} (path : word ∈ pathKeywords) :
    escapeKeyword word = word ++ "_" := by
  simp [escapeKeyword, not_mem_keywords_of_path word path, path]

theorem escapeKeyword_of_plain {name : String} (keyword : name ∉ keywords)
    (path : name ∉ pathKeywords) : escapeKeyword name = name := by
  simp [escapeKeyword, keyword, path]

theorem escapeKeyword_of_digit {name : String} (digit : name.toList.any Char.isDigit = true) :
    escapeKeyword name = name := by
  have words : ∀ word ∈ keywords ++ pathKeywords, word.toList.any Char.isDigit = false := by
    decide
  have plain : name ∉ keywords ++ pathKeywords := by
    intro mem
    rw [words name mem] at digit
    cases digit
  obtain ⟨keyword, path⟩ := not_or.1 (mt List.mem_append.2 plain)
  exact escapeKeyword_of_plain keyword path

/-- What a keyword is written as is not a keyword itself. -/
theorem escapeKeyword_of_escapes {word name : String} (escapes : Escapes word name) :
    escapeKeyword word = escapeKeyword name := by
  rcases escapes with ⟨keyword, rfl⟩ | ⟨path, rfl⟩
  · rw [escapeKeyword_of_keyword keyword, escapeKeyword_of_plain]
    · intro again
      exact hash_not_mem_keyword _ again (hash_mem_marked word)
    · intro again
      have absent := hash_not_mem_path _ again
      simp at absent
  · rw [escapeKeyword_of_path path]
    -- There are only four of these words.
    revert word
    decide

theorem escapes_or_eq (name : String) :
    Escapes name (escapeKeyword name) ∨ escapeKeyword name = name := by
  by_cases keyword : name ∈ keywords
  · exact .inl (.inl ⟨keyword, escapeKeyword_of_keyword keyword⟩)
  by_cases path : name ∈ pathKeywords
  · exact .inl (.inr ⟨path, escapeKeyword_of_path path⟩)
  · exact .inr (escapeKeyword_of_plain keyword path)

/-- No two keywords are written alike. -/
theorem Escapes.unique {a b name : String} (escapesA : Escapes a name) (escapesB : Escapes b name) :
    a = b := by
  rcases escapesA with ⟨-, rfl⟩ | ⟨pathA, rfl⟩ <;> rcases escapesB with ⟨-, same⟩ | ⟨pathB, same⟩
  · simpa using same
  · exact absurd (same ▸ hash_mem_marked a) (hash_not_mem_path b pathB)
  · exact absurd (same ▸ hash_mem_marked b) (hash_not_mem_path a pathA)
  · simpa using same

/-- Two texts become one identifier only if one of them is a keyword and the other is how it is
written. -/
theorem escapeKeyword_eq_iff {a b : String} :
    escapeKeyword a = escapeKeyword b ↔ a = b ∨ Escapes a b ∨ Escapes b a := by
  constructor
  · intro same
    rcases escapes_or_eq a with escapesA | plainA <;> rcases escapes_or_eq b with escapesB | plainB
    · exact .inl (escapesA.unique (same ▸ escapesB))
    · rw [same, plainB] at escapesA
      exact .inr (.inl escapesA)
    · rw [← same, plainA] at escapesB
      exact .inr (.inr escapesB)
    · rw [plainA, plainB] at same
      exact .inl same
  · intro related
    rcases related with rfl | escapes | escapes
    · rfl
    · exact escapeKeyword_of_escapes escapes
    · exact (escapeKeyword_of_escapes escapes).symm

/-! ### Fields -/

/-- Two declared names with one identifier, said about their snake case forms: they are the same, or
one is a keyword and the other how it is written. -/
def Collide (a b : String) : Prop :=
  Text.snakeCase a = Text.snakeCase b ∨ Escapes (Text.snakeCase a) (Text.snakeCase b) ∨
    Escapes (Text.snakeCase b) (Text.snakeCase a)

theorem fieldIdentifier_eq_iff {a b : String} :
    fieldIdentifier a = fieldIdentifier b ↔ Collide a b :=
  escapeKeyword_eq_iff

theorem escapeKeyword_unknownTaggedKey : escapeKeyword unknownTaggedKey = unknownTaggedKey := by
  decide

/-- No keyword is written as the identifier for unknown tagged fields. -/
theorem not_escapes_unknownTaggedKey {word : String} : ¬ Escapes word unknownTaggedKey := by
  intro escapes
  rcases escapes with ⟨-, same⟩ | ⟨path, same⟩
  · exact absurd (same ▸ hash_mem_marked word) (by decide)
  · revert word
    decide

theorem fieldIdentifier_eq_unknown_iff {name : String} :
    fieldIdentifier name = unknownTaggedKey ↔ Text.snakeCase name = unknownTaggedKey := by
  rw [fieldIdentifier]
  constructor
  · intro same
    rcases escapes_or_eq (Text.snakeCase name) with escapes | plain
    · exact absurd (same ▸ escapes) not_escapes_unknownTaggedKey
    · exact plain.symm.trans same
  · intro same
    rw [same, escapeKeyword_unknownTaggedKey]

/-! ### Names in Pascal case -/

theorem nil_mem_splitOn_path : ∀ word ∈ pathKeywords,
    [] ∈ (word ++ "_").toList.splitOn '_' := by
  decide

theorem nil_mem_splitOn_unknownTaggedKey : [] ∈ unknownTaggedKey.toList.splitOn '_' := by
  decide

/-- A name in Pascal case without a mark is never how a keyword is written. -/
theorem not_escapes_of_isPascal {word name : String} (pascal : Text.IsPascal name)
    (free : '#' ∉ name.toList) : ¬ Escapes word (Text.snakeCase name) := by
  intro escapes
  rcases escapes with ⟨-, same⟩ | ⟨path, same⟩
  · have absent := Text.not_mem_snakeCase free (by decide) (by decide)
    exact absent (same ▸ hash_mem_marked word)
  · have pieces := Text.nil_not_mem_splitOn_snakeCase pascal
    rw [same] at pieces
    exact pieces (nil_mem_splitOn_path word path)

theorem eq_of_collide {a b : String} (pascalA : Text.IsPascal a) (freeA : '#' ∉ a.toList)
    (pascalB : Text.IsPascal b) (freeB : '#' ∉ b.toList) (collide : Collide a b) : a = b := by
  rcases collide with same | escapes | escapes
  · exact Text.snakeCase_inj pascalA pascalB same
  · exact absurd escapes (not_escapes_of_isPascal pascalB freeB)
  · exact absurd escapes (not_escapes_of_isPascal pascalA freeA)

theorem snakeCase_ne_unknownTaggedKey {name : String} (pascal : Text.IsPascal name) :
    Text.snakeCase name ≠ unknownTaggedKey := by
  intro same
  have pieces := Text.nil_not_mem_splitOn_snakeCase pascal
  rw [same] at pieces
  exact pieces nil_mem_splitOn_unknownTaggedKey

end Backend.Rust

/-! ### Structs -/

open Backend.Rust (fieldIdentifier Collide)

/-- The identifiers of the fields of a generated struct, in order. They are what its text shows
(`structDeclaration_lists` in `WireSchema.Proofs.DeclaredFields`). -/
def StructAt.identifiers (s : StructAt) : List String :=
  s.fields.map (fun field => fieldIdentifier field.name) ++
    if s.hasUnknownTagged then [unknownTaggedKey] else []

/-- No two declared names of the struct have one identifier, and none has the reserved one. -/
structure StructAt.Apart (s : StructAt) : Prop where
  /-- Different names do not collide. -/
  fields : ∀ f ∈ s.fields, ∀ g ∈ s.fields, f.name ≠ g.name → ¬ Collide f.name g.name
  /-- No field takes the identifier for unknown tagged fields where there is one. -/
  reserved : s.hasUnknownTagged = true → ∀ f ∈ s.fields, Text.snakeCase f.name ≠ unknownTaggedKey

theorem StructAt.identifiers_nodup_iff {s : StructAt} (names : (s.fields.map (·.name)).Nodup) :
    s.identifiers.Nodup ↔ s.Apart := by
  have fields : (s.fields.map fun field => fieldIdentifier field.name).Nodup ↔
      ∀ f ∈ s.fields, ∀ g ∈ s.fields, f.name ≠ g.name → ¬ Collide f.name g.name := by
    have inj := List.nodup_map_iff_inj_on (f := fieldIdentifier) names
    rw [List.map_map] at inj
    refine inj.trans ?_
    simp only [List.forall_mem_map, Backend.Rust.fieldIdentifier_eq_iff, not_imp_not, ne_eq]
  rw [identifiers, List.nodup_append, fields]
  by_cases tagged : s.hasUnknownTagged = true
  · simp only [if_pos tagged, List.nodup_singleton, true_and, List.mem_singleton, forall_eq,
      List.forall_mem_map, ne_eq, Backend.Rust.fieldIdentifier_eq_unknown_iff]
    exact ⟨fun ⟨first, second⟩ => ⟨first, fun _ => second⟩,
      fun apart => ⟨apart.fields, apart.reserved tagged⟩⟩
  · simp only [if_neg tagged, List.nodup_nil, List.not_mem_nil, false_implies, implies_true,
      and_true]
    exact ⟨fun first => ⟨first, fun h => absurd h tagged⟩, fun apart => apart.fields⟩

theorem StructAt.apart_of_isPascal {s : StructAt}
    (pascal : ∀ f ∈ s.fields, Text.IsPascal f.name ∧ '#' ∉ f.name.toList) : s.Apart where
  fields := by
    intro f memF g memG differ collide
    obtain ⟨pascalF, freeF⟩ := pascal f memF
    obtain ⟨pascalG, freeG⟩ := pascal g memG
    exact differ (Backend.Rust.eq_of_collide pascalF freeF pascalG freeG collide)
  reserved := fun _ f mem => Backend.Rust.snakeCase_ne_unknownTaggedKey (pascal f mem).1

/-- Every declared struct has the fields of a struct of the message, at the version. -/
theorem exists_struct_of_declared {text : String} {message : MessageSpec} {r : Registry}
    {v : Version} {u : MessageAt} (loaded : MessageSpec.load text = .ok message)
    (registered : Registry.ofMessage message = .ok r) (resolved : message.atVersion r v = .ok u)
    {s : StructAt} (mem : s ∈ u.structs) :
    ∃ spec : StructSpec, spec.FromRecords ∧ s.fields = (spec.fieldsAt v).map (·.atVersion v) ∧
      s.hasUnknownTagged = message.isFlexibleAt v := by
  obtain ⟨spec, origin, fields, flexible⟩ := MessageSpec.exists_spec_of_declared resolved mem
  refine ⟨spec, ?_, fields, flexible⟩
  rcases origin with rfl | defined
  · exact MessageSpec.exists_records loaded (.inl rfl)
  · have met := Registry.met_of_mem_definitions registered defined
    exact MessageSpec.exists_records loaded (MessageSpec.hasStruct_of_met met)

theorem StructSpec.FromRecords.names_nodup {spec : StructSpec} (records : spec.FromRecords)
    (v : Version) : (((spec.fieldsAt v).map (·.atVersion v)).map (·.name)).Nodup := by
  rw [List.map_map]
  exact records.fieldNames_nodup.sublist (List.filter_sublist.map _)

/-- **When identifiers clash.** In every struct of a unit that is generated for a loaded message the
identifiers of the fields are distinct exactly if no two declared names collide and none has the
reserved snake case form where unknown tagged fields are kept. They are always distinct if the names
are in Pascal case and no `#` occurs in them. -/
theorem identifiers_distinct_iff {text : String} {message : MessageSpec} {r : Registry}
    {v : Version} {withTests : Bool} {unit : String} (loaded : MessageSpec.load text = .ok message)
    (registered : Registry.ofMessage message = .ok r)
    (generated : (Backend.rust withTests).generate message r v = .ok unit) :
    ∃ u, message.atVersion r v = .ok u ∧ ∀ s ∈ u.structs,
      (s.identifiers.Nodup ↔
        (∀ f ∈ s.fields, ∀ g ∈ s.fields, f.name ≠ g.name → ¬ Collide f.name g.name) ∧
        (message.isFlexibleAt v = true →
          ∀ f ∈ s.fields, Text.snakeCase f.name ≠ unknownTaggedKey)) ∧
      ((∀ f ∈ s.fields, Text.IsPascal f.name ∧ '#' ∉ f.name.toList) → s.identifiers.Nodup) := by
  obtain ⟨u, resolved, -⟩ := Backend.generate_eq_ok.1 generated
  refine ⟨u, resolved, ?_⟩
  intro s mem
  obtain ⟨spec, records, fields, flexible⟩ :=
    exists_struct_of_declared loaded registered resolved mem
  have names : (s.fields.map (·.name)).Nodup := by
    rw [fields]
    exact records.names_nodup v
  have nodup_iff := StructAt.identifiers_nodup_iff names
  refine ⟨nodup_iff.trans ?_, fun pascal => nodup_iff.2 (StructAt.apart_of_isPascal pascal)⟩
  rw [← flexible]
  exact ⟨fun apart => ⟨apart.fields, apart.reserved⟩, fun ⟨first, second⟩ => ⟨first, second⟩⟩

namespace Sample

/-- The document of a message that has a field in Pascal case, and from version 1 on another one
with the same snake case form. -/
def meterText : String :=
  "\x7b\"name\":\"Meter\",\"validVersions\":\"0-1\",\"flexibleVersions\":\"0+\",\"fields\":[
    \x7b\"name\":\"RateMs\",\"type\":\"int32\",\"versions\":\"0+\"\x7d,
    \x7b\"name\":\"Type\",\"type\":\"string\",\"versions\":\"0+\"\x7d,
    \x7b\"name\":\"rate_ms\",\"type\":\"int32\",\"versions\":\"1+\"\x7d]\x7d"

/-- The message. -/
def meter : MessageSpec where
  name := "Meter"
  apiKey := none
  role := .data
  validVersions := ⟨0, 1⟩
  flexibleVersions := .startingAt 0
  struct := ⟨"Meter", ⟨0, 1⟩,
    [⟨"RateMs", .int .int32, ⟨0, 1⟩, none, none, .none, none, none, none⟩,
      ⟨"Type", .string, ⟨0, 1⟩, none, none, .none, none, none, none⟩,
      ⟨"rate_ms", .int .int32, ⟨1, 1⟩, none, none, .none, none, none, none⟩]⟩
  commonStructs := []

set_option maxRecDepth 2000 in
theorem load_meterText : MessageSpec.load meterText = .ok meter :=
  MessageSpec.load_of_tokens (by cbv) rfl rfl rfl

theorem ofMessage_meter : Registry.ofMessage meter = .ok .empty := rfl

/-- The struct of the unit. -/
def meterAt (v : Version) : StructAt :=
  meter.struct.atVersion v true true false

theorem atVersion_meter : meter.atVersion .empty 0 = .ok ⟨"Meter", .data, 0, [meterAt 0]⟩ ∧
    meter.atVersion .empty 1 = .ok ⟨"Meter", .data, 1, [meterAt 1]⟩ := by
  constructor <;> cbv

theorem isPascal_rateMs : Text.IsPascal "RateMs" :=
  ⟨⟨'R', ['a', 't', 'e'], by decide, by decide, Text.isInner_of_all rfl⟩,
    [⟨'M', ['s'], by decide, by decide, Text.isInner_of_all rfl⟩], rfl⟩

theorem isPascal_type : Text.IsPascal "Type" :=
  ⟨⟨'T', ['y', 'p', 'e'], by decide, by decide, Text.isInner_of_all rfl⟩, [], rfl⟩

/-- At version 0 the names are in Pascal case. One identifier is a marked keyword. -/
theorem meter_identifiers_distinct :
    MessageSpec.load meterText = .ok meter ∧ Registry.ofMessage meter = .ok .empty ∧
      (∃ unit, (Backend.rust true).generate meter .empty 0 = .ok unit) ∧
      (meterAt 0).identifiers = ["rate_ms", "r#type", "_unknown_tagged_fields"] ∧
      (meterAt 0).identifiers.Nodup := by
  obtain ⟨unit, generated⟩ : ∃ unit, (Backend.rust true).generate meter .empty 0 = .ok unit :=
    Backend.Rust.generate_succeeds_iff.2 ⟨_, atVersion_meter.1, by decide⟩
  obtain ⟨u, resolved, all⟩ := identifiers_distinct_iff load_meterText ofMessage_meter generated
  cases atVersion_meter.1.symm.trans resolved
  refine ⟨load_meterText, ofMessage_meter, ⟨unit, generated⟩, by decide, ?_⟩
  refine (all (meterAt 0) (List.mem_singleton_self _)).2 ?_
  intro f mem
  have name : f.name ∈ ["RateMs", "Type"] := List.mem_map_of_mem (f := FieldAt.name) mem
  simp only [List.mem_cons, List.not_mem_nil, or_false] at name
  rcases name with same | same <;> rw [same]
  · exact ⟨isPascal_rateMs, by decide⟩
  · exact ⟨isPascal_type, by decide⟩

/-- **Identifiers may clash.** At version 1 the sample has two fields with the identifier `rate_ms`,
and a unit is generated all the same. -/
theorem meter_identifiers_clash :
    MessageSpec.load meterText = .ok meter ∧ Registry.ofMessage meter = .ok .empty ∧
      (∃ unit, (Backend.rust true).generate meter .empty 1 = .ok unit) ∧
      (∃ u, meter.atVersion .empty 1 = .ok u ∧ ∃ s ∈ u.structs, ¬ s.identifiers.Nodup) := by
  refine ⟨load_meterText, ofMessage_meter, ?_, _, atVersion_meter.2, meterAt 1,
    List.mem_singleton_self _, by decide⟩
  exact Backend.Rust.generate_succeeds_iff.2 ⟨_, atVersion_meter.2, by decide⟩

end Sample

end WireSchema
