import WireSchema.Proofs.DeclaredFields
import WireSchema.Proofs.Persistence

/-!
# The imports of a unit

The symbols that a unit imports are collected while its structs and fields are rendered. They are
exactly those that the text uses: what every struct derives, the markers of the top-level struct,
UUIDs if some field holds them, and raw tagged fields if the version is flexible. No mix of kinds,
nesting and flexibility leaves a symbol out or brings one in that nothing uses.

A field holds UUIDs if its type is that of a UUID or of an array of them; a type that was read from
a document never nests arrays (`FieldType.IsFlat`). Every struct of a unit has the flexibility of
the message, and one struct is the top-level one, so the parts that depend on a struct are the same
for the whole unit.

What the unit says below its imports is spelled out by relations between a part and its text
(`WritesType`, `WritesField`, `WritesStruct`). A part has at most one text, so they leave no choice.
-/

namespace WireSchema

/-- Some field of a unit holds UUIDs. -/
def MessageAt.UsesUuid (u : MessageAt) : Prop :=
  ∃ s ∈ u.structs, ∃ f ∈ s.fields, f.type = .uuid ∨ f.type = .array .uuid

instance (u : MessageAt) : Decidable u.UsesUuid :=
  inferInstanceAs
    (Decidable (∃ s ∈ u.structs, ∃ f ∈ s.fields, f.type = .uuid ∨ f.type = .array .uuid))

/-- Texts that can all be read as paths are all added. -/
theorem Imports.foldlM_add {texts : List String}
    (readable : ∀ text ∈ texts, (ImportPath.read? text).isSome = true) (i : Imports) :
    texts.foldlM Imports.add i = .ok (i.insertAll (texts.filterMap ImportPath.read?)) := by
  induction texts generalizing i with
  | nil => rfl
  | cons text texts ih =>
      obtain ⟨first, others⟩ := List.forall_mem_cons.1 readable
      obtain ⟨path, read⟩ := Option.isSome_iff_exists.1 first
      have added : i.add text = .ok (i.insert path) := by
        rw [Imports.add, read]
      rw [List.foldlM_cons, added, List.filterMap_cons_some read]
      exact ih others (i.insert path)

namespace Backend.Rust

variable {m : MessageAt}

/-! ### What a declaration needs -/

theorem path_eq_iff {type : FieldType} {text : String} {path : Option ImportPath}
    (flat : type.IsFlat) (rendered : typeOf? type = some (text, path)) :
    path = some uuidPath ↔ type = .uuid ∨ type = .array .uuid := by
  cases type with
  | array element =>
      rw [typeOf?, Option.map_eq_some_iff] at rendered
      obtain ⟨⟨inner, path'⟩, found, same⟩ := rendered
      cases same
      have notNested := flat element rfl
      cases element with
      | array nested => cases notNested
      | _ => cases found <;> simp
  | _ => cases rendered <;> simp

/-- The fields of a struct need the symbol for UUIDs exactly if one of them holds UUIDs. -/
theorem mem_fieldsDeclaration_imports {fields : List FieldAt} {text : String}
    (flat : ∀ f ∈ fields, f.type.IsFlat) (rendered : (fieldsDeclaration m fields).text = .ok text)
    {path : ImportPath} :
    path ∈ (fieldsDeclaration m fields).imports ↔
      path = uuidPath ∧ ∃ f ∈ fields, f.type = .uuid ∨ f.type = .array .uuid := by
  induction fields generalizing text with
  | nil => simp [fieldsDeclaration]
  | cons field fields ih =>
      obtain ⟨first, others⟩ := List.forall_mem_cons.1 flat
      rw [fieldsDeclaration] at rendered ⊢
      split at rendered
      · cases rendered
      · next type path? typed =>
          obtain ⟨rest, follows, -⟩ := Outcome.map_eq_ok.1 rendered
          have own : path ∈ path?.toList ↔
              path = uuidPath ∧ (field.type = .uuid ∨ field.type = .array .uuid) := by
            rw [← path_eq_iff first typed, Option.mem_toList]
            constructor
            · intro here
              rw [here] at typed ⊢
              rw [path_of_typeOf? typed]
              exact ⟨rfl, rfl⟩
            · rintro ⟨same, here⟩
              rw [here, same]
          rw [List.mem_append, own, ih others follows, List.exists_mem_cons_iff, ← and_or_left]

theorem mem_structDeclaration_imports {s : StructAt} {text : String}
    (flat : ∀ f ∈ s.fields, f.type.IsFlat)
    (rendered : (structDeclaration m s).text = .ok text) {path : ImportPath} :
    path ∈ (structDeclaration m s).imports ↔
      path ∈ serdePaths ∨
      (path = uuidPath ∧ ∃ f ∈ s.fields, f.type = .uuid ∨ f.type = .array .uuid) ∨
      (s.hasUnknownTagged = true ∧ path = taggedFieldPath) ∨
      (s.isTopLevel = true ∧ path ∈ markerPaths m.role) := by
  simp only [structDeclaration] at rendered ⊢
  split at rendered
  · cases rendered
  · next fields fieldsRendered =>
      simp only [List.mem_append, mem_fieldsDeclaration_imports flat fieldsRendered,
        List.mem_ite_nil_right, List.mem_singleton, or_assoc]

/-! ### What a declaration says -/

/-- How a type is written. -/
inductive WritesType : FieldType → String → Prop
  | bool : WritesType .bool "bool"
  | int8 : WritesType (.int .int8) "i8"
  | int16 : WritesType (.int .int16) "i16"
  | uint16 : WritesType (.int .uint16) "u16"
  | int32 : WritesType (.int .int32) "i32"
  | uint32 : WritesType (.int .uint32) "u32"
  | int64 : WritesType (.int .int64) "i64"
  | float64 : WritesType .float64 "f64"
  | string : WritesType .string "String"
  | bytes : WritesType .bytes "Vec<u8>"
  | records : WritesType .records "Vec<u8>"
  | uuid : WritesType .uuid "Uuid"
  | struct (name : String) : WritesType (.struct name) name
  | array {element : FieldType} {text : String} (inner : WritesType element text) :
      WritesType (.array element) ("Vec<" ++ text ++ ">")

/-- How a field is written: below its documentation and the lines of a tagged field stands its
identifier with its type, which is optional if the field can be null. -/
def WritesField (f : FieldAt) (text : String) : Prop :=
  ∃ type, WritesType f.type type ∧
    text = docComment f.about ++ tagComment f ++ "    pub " ++ fieldIdentifier f.name ++ ": " ++
      (if f.nullable then "Option<" ++ type ++ ">" else type) ++ ",\n"

/-- How a struct is written: what it derives, its name, its fields, in a flexible version the raw
tagged fields, and below the top-level struct its markers. -/
def WritesStruct (role : MessageRole) (flexible : Bool) (s : StructAt) (text : String) : Prop :=
  ∃ fields, List.Forall₂ WritesField s.fields fields ∧
    text = "#[derive(Serialize, Deserialize, Debug, Clone, PartialEq, Default)]\n" ++
      "pub struct " ++ s.name ++ " \x7b\n" ++ String.join fields ++
      (if flexible then
        "    #[serde(default)]\n    pub _unknown_tagged_fields: Vec<RawTaggedField>,\n"
      else "") ++ "\x7d\n" ++
      (if s.isTopLevel then
        "\nimpl ApiMessage for " ++ s.name ++ " \x7b\x7d\n\nimpl " ++ marker role ++ " for " ++
          s.name ++ " \x7b\x7d\n"
      else "")

/-- How the test of a unit is written, for a top-level struct of the given name. -/
def testText (name : String) : String :=
  "#[cfg(test)]\nmod tests \x7b\n    use super::*;\n\n    #[test]\n" ++
    "    fn default_is_constructible() \x7b\n        let _ = " ++ name ++
    "::default();\n    \x7d\n\x7d\n"

theorem writesType_unique : Relator.RightUnique WritesType := by
  intro type text text' here there
  induction here generalizing text' with
  | array inner ih =>
      cases there with
      | array inner' => rw [ih inner']
  | _ =>
      cases there
      rfl

theorem writesField_unique : Relator.RightUnique WritesField := by
  rintro f _ _ ⟨type, written, rfl⟩ ⟨type', written', rfl⟩
  rw [writesType_unique written written']

theorem writesStruct_unique (role : MessageRole) (flexible : Bool) :
    Relator.RightUnique (WritesStruct role flexible) := by
  rintro s _ _ ⟨fields, written, rfl⟩ ⟨fields', written', rfl⟩
  rw [writesField_unique.forall₂ written written']

theorem writesType_of_typeOf? {type : FieldType} {text : String} {path : Option ImportPath}
    (rendered : typeOf? type = some (text, path)) : WritesType type text := by
  induction type generalizing text path with
  | array element ih =>
      rw [typeOf?, Option.map_eq_some_iff] at rendered
      obtain ⟨⟨inner, path'⟩, found, same⟩ := rendered
      cases same
      exact .array (ih found)
  | int width =>
      cases rendered
      cases width <;> constructor
  | unsupported text => cases rendered
  | _ =>
      cases rendered
      constructor

theorem writesField_of_fieldsDeclaration {fields : List FieldAt} {text : String}
    (rendered : (fieldsDeclaration m fields).text = .ok text) :
    ∃ texts, List.Forall₂ WritesField fields texts ∧ text = String.join texts := by
  induction fields generalizing text with
  | nil =>
      cases rendered
      exact ⟨[], .nil, rfl⟩
  | cons field fields ih =>
      rw [fieldsDeclaration] at rendered
      split at rendered
      · cases rendered
      · next type path typed =>
          obtain ⟨rest, follows, rfl⟩ := Outcome.map_eq_ok.1 rendered
          obtain ⟨texts, written, rfl⟩ := ih follows
          refine ⟨fieldText field type :: texts, .cons ?_ written, String.join_cons.symm⟩
          exact ⟨type, writesType_of_typeOf? typed, rfl⟩

theorem writesStruct_of_structDeclaration {s : StructAt} {text : String}
    (rendered : (structDeclaration m s).text = .ok text) :
    WritesStruct m.role s.hasUnknownTagged s text := by
  simp only [structDeclaration] at rendered
  split at rendered
  · cases rendered
  · next fields fieldsRendered =>
      cases rendered
      obtain ⟨texts, written, rfl⟩ := writesField_of_fieldsDeclaration fieldsRendered
      exact ⟨texts, written, rfl⟩

/-! ### What a unit needs -/

/-- The paths that a unit imports. -/
def usedPaths (role : MessageRole) (uuid flexible : Bool) : List ImportPath :=
  serdePaths ++ markerPaths role ++ (if uuid then [uuidPath] else []) ++
    (if flexible then [taggedFieldPath] else [])

/-- The same paths, as they are written. -/
def writtenPaths (role : MessageRole) (uuid flexible : Bool) : List String :=
  ["serde::Serialize", "serde::Deserialize", "crate::markers::ApiMessage",
    "crate::markers::" ++ marker role] ++
    (if uuid then ["uuid::Uuid"] else []) ++
    (if flexible then ["crate::tagged_fields::RawTaggedField"] else [])

theorem read_writtenPaths (role : MessageRole) (uuid flexible : Bool) :
    (writtenPaths role uuid flexible).map ImportPath.read? =
      (usedPaths role uuid flexible).map some := by
  have serialize : ImportPath.read? "serde::Serialize" = some ⟨"serde", "Serialize"⟩ := by decide
  have deserialize : ImportPath.read? "serde::Deserialize" = some ⟨"serde", "Deserialize"⟩ := by
    decide
  have message : ImportPath.read? "crate::markers::ApiMessage" =
      some ⟨"crate::markers", "ApiMessage"⟩ := by
    decide
  have marked : ImportPath.read? ("crate::markers::" ++ marker role) =
      some ⟨"crate::markers", marker role⟩ := by
    cases role <;> decide
  have uuids : ImportPath.read? "uuid::Uuid" = some uuidPath := by decide
  have tagged : ImportPath.read? "crate::tagged_fields::RawTaggedField" = some taggedFieldPath := by
    decide
  cases uuid <;> cases flexible <;>
    simp [writtenPaths, usedPaths, serdePaths, markerPaths, serialize, deserialize, message, marked,
      uuids, tagged]

theorem readable_of_mem_writtenPaths {role : MessageRole} {uuid flexible : Bool} {text : String}
    (mem : text ∈ writtenPaths role uuid flexible) : (ImportPath.read? text).isSome = true := by
  have read := List.mem_map_of_mem (f := ImportPath.read?) mem
  rw [read_writtenPaths] at read
  obtain ⟨path, -, same⟩ := List.mem_map.1 read
  rw [← same]
  rfl

theorem filterMap_writtenPaths (role : MessageRole) (uuid flexible : Bool) :
    (writtenPaths role uuid flexible).filterMap ImportPath.read? = usedPaths role uuid flexible :=
  calc (writtenPaths role uuid flexible).filterMap ImportPath.read?
    _ = ((writtenPaths role uuid flexible).map ImportPath.read?).filterMap id := by
        rw [List.filterMap_map, Function.id_comp]
    _ = ((usedPaths role uuid flexible).map some).filterMap id := by rw [read_writtenPaths]
    _ = usedPaths role uuid flexible := by simp

theorem mem_usedPaths {role : MessageRole} {uuid flexible : Bool} {path : ImportPath} :
    path ∈ usedPaths role uuid flexible ↔
      path ∈ serdePaths ∨ path ∈ markerPaths role ∨ (uuid = true ∧ path = uuidPath) ∨
        (flexible = true ∧ path = taggedFieldPath) := by
  simp only [usedPaths, List.mem_append, List.mem_ite_nil_right, List.mem_singleton, or_assoc]

end Backend.Rust

/-- A unit whose structs all have the same flexibility and whose types do not nest arrays, with a
top-level struct of the given name. -/
structure MessageAt.Uniform (u : MessageAt) (name : String) (flexible : Bool) : Prop where
  flexible : ∀ s ∈ u.structs, s.hasUnknownTagged = flexible
  topLevel : ∃ top, u.topLevel? = some top ∧ top.name = name
  flat : ∀ s ∈ u.structs, ∀ f ∈ s.fields, f.type.IsFlat

/-- The units of loaded messages are uniform, whatever loaded messages are registered. -/
theorem MessageSpec.uniform_of_atVersion {text : String} {message : MessageSpec}
    {ms : List MessageSpec} {v : Version} {u : MessageAt} (loaded : load text = .ok message)
    (others : ∀ other ∈ ms, ∃ text, load text = .ok other)
    (resolved : message.atVersion (Registry.afterAll ms) v = .ok u) :
    u.Uniform message.name (message.isFlexibleAt v) := by
  constructor
  case flexible =>
    intro s mem
    obtain ⟨_, -, -, flexible⟩ := exists_spec_of_declared resolved mem
    exact flexible
  case topLevel =>
    obtain ⟨-, walked, -⟩ := atVersion_eq_ok.1 resolved
    obtain ⟨rest, shape, -⟩ := (declaring_of_structsAt walked).1.shape
    rw [MessageAt.topLevel?, shape]
    exact ⟨_, rfl, struct_name_of_load loaded⟩
  case flat =>
    intro s mem f listed
    obtain ⟨spec, origin, fields, -⟩ := exists_spec_of_declared resolved mem
    rw [fields] at listed
    obtain ⟨g, there, rfl⟩ := List.mem_map.1 listed
    have declared : g ∈ spec.fields := (List.mem_filter.1 there).1
    rcases origin with rfl | defined
    · exact isFlat_of_load loaded (.inl rfl) declared
    · obtain ⟨_, _, loaded', has⟩ := Registry.exists_owner others defined
      exact isFlat_of_load loaded' has declared

namespace Backend.Rust

variable {u : MessageAt} {name : String} {flexible : Bool}

theorem mem_unitImports (uniform : u.Uniform name flexible)
    (rendered : ∀ s ∈ u.structs, ∃ text, (structDeclaration u s).text = .ok text)
    {path : ImportPath} :
    path ∈ (u.structs.flatMap fun s => (structDeclaration u s).imports) ↔
      path ∈ usedPaths u.role (decide u.UsesUuid) flexible := by
  have each : ∀ s ∈ u.structs, (path ∈ (structDeclaration u s).imports ↔
      path ∈ serdePaths ∨
      (path = uuidPath ∧ ∃ f ∈ s.fields, f.type = .uuid ∨ f.type = .array .uuid) ∨
      (flexible = true ∧ path = taggedFieldPath) ∨
      (s.isTopLevel = true ∧ path ∈ markerPaths u.role)) := by
    intro s mem
    obtain ⟨text, ok⟩ := rendered s mem
    rw [mem_structDeclaration_imports (uniform.flat s mem) ok, uniform.flexible s mem]
  -- What does not depend on the fields is needed by the top-level struct, if by any.
  obtain ⟨top, found, -⟩ := uniform.topLevel
  have mem : top ∈ u.structs := List.mem_of_find?_eq_some found
  have isTop : top.isTopLevel = true := List.find?_some found
  rw [List.mem_flatMap, mem_usedPaths, decide_eq_true_iff]
  constructor
  · rintro ⟨s, mem, needed⟩
    rcases (each s mem).1 needed with serde | ⟨same, holds⟩ | tagged | ⟨-, marked⟩
    · exact .inl serde
    · exact .inr (.inr (.inl ⟨⟨s, mem, holds⟩, same⟩))
    · exact .inr (.inr (.inr tagged))
    · exact .inr (.inl marked)
  · intro used
    rcases used with serde | marked | ⟨⟨s, mem, holds⟩, same⟩ | tagged
    · exact ⟨top, mem, (each top mem).2 (.inl serde)⟩
    · exact ⟨top, mem, (each top mem).2 (.inr (.inr (.inr ⟨isTop, marked⟩)))⟩
    · exact ⟨s, mem, (each s mem).2 (.inr (.inl ⟨same, holds⟩))⟩
    · exact ⟨top, mem, (each top mem).2 (.inr (.inr (.inl tagged)))⟩

theorem testModule_eq (uniform : u.Uniform name flexible) : testModule u = testText name := by
  obtain ⟨top, found, rfl⟩ := uniform.topLevel
  rw [testModule, found]
  rfl

theorem testText_ne_empty : testText name ≠ "" := by
  unfold testText
  simp

/-- The header of a unit is the text of its imports, which are never empty. -/
theorem unitText_eq {withTests : Bool} {unit : String} (uniform : u.Uniform name flexible)
    (run : (rust withTests).unitText u = .ok unit) :
    ∃ texts, List.Forall₂ (WritesStruct u.role flexible) u.structs texts ∧
      unit = "\n".intercalate
        ((Imports.empty.insertAll (usedPaths u.role (decide u.UsesUuid) flexible)).toText ::
          texts ++ if withTests then [testText name] else []) := by
  obtain ⟨⟨imports, texts⟩, declared, done⟩ := Outcome.bind_eq_ok.1 run
  obtain ⟨collected, rendered⟩ := of_declareAll declared
  have used : imports =
      Imports.empty.insertAll (usedPaths u.role (decide u.UsesUuid) flexible) := by
    rw [collected]
    refine Imports.insertAll_congr fun path => mem_unitImports uniform ?_
    intro s mem
    obtain ⟨text, -, ok⟩ := Outcome.exists_of_mem_left rendered mem
    exact ⟨text, ok⟩
  have header : imports.toText ≠ "" := by
    have serde : (⟨"serde", "Serialize"⟩ : ImportPath) ∈ imports.paths := by
      rw [used, Imports.mem_paths_insertAll, mem_usedPaths]
      exact .inl (.inl (by decide))
    exact Imports.toText_ne_empty serde
  have scaffold : (if (rust withTests).scaffold u = "" then [] else [(rust withTests).scaffold u]) =
      if withTests then [testText name] else [] := by
    cases withTests with
    | false => rfl
    | true =>
        show (if testModule u = "" then [] else [testModule u]) = [testText name]
        rw [testModule_eq uniform, if_neg testText_ne_empty]
  have written : List.Forall₂ (WritesStruct u.role flexible) u.structs texts := by
    refine ((List.forall₂_and_left _ _).2 ⟨uniform.flexible, rendered⟩).imp ?_
    rintro s text ⟨rfl, ok⟩
    exact writesStruct_of_structDeclaration ok
  refine ⟨texts, written, ?_⟩
  cases done
  show "\n".intercalate ((if imports.toText = "" then [] else [imports.toText]) ++ texts ++ _) = _
  rw [if_neg header, scaffold, ← used]
  rfl

end Backend.Rust

open Backend.Rust (WritesStruct testText writtenPaths)

/-- **A unit imports what it uses.** Take any unit that is generated for a loaded message, whatever
loaded messages have been registered. It begins with the imports of exactly these paths, added in
any order and any number of times: what structs derive, the markers of the message, UUIDs exactly if
some field of the unit holds them, and raw tagged fields exactly if the version is flexible. Then
come the structs in their order, each with all its fields and their types, and the test if there is
to be one. Raw tagged fields are listed in the structs of a flexible version and nowhere else, and
the markers stand below the top-level struct. -/
theorem unit_imports_what_it_uses {text : String} {message : MessageSpec} {ms : List MessageSpec}
    {v : Version} {withTests : Bool} {unit : String} (loaded : MessageSpec.load text = .ok message)
    (others : ∀ other ∈ ms, ∃ text, MessageSpec.load text = .ok other)
    (generated : (Backend.rust withTests).generate message (Registry.afterAll ms) v = .ok unit) :
    ∃ u texts, message.atVersion (Registry.afterAll ms) v = .ok u ∧
      List.Forall₂ (WritesStruct message.role (message.flexibleVersions.contains v))
        u.structs texts ∧
      ∀ added : List String,
        (∀ path, path ∈ added ↔
          path ∈ writtenPaths message.role u.UsesUuid (message.flexibleVersions.contains v)) →
        ∃ imports, added.foldlM Imports.add .empty = .ok imports ∧
          unit = "\n".intercalate
            (imports.toText :: texts ++ if withTests then [testText message.name] else []) := by
  obtain ⟨u, resolved, run⟩ := Backend.generate_eq_ok.1 generated
  have uniform := MessageSpec.uniform_of_atVersion loaded others resolved
  obtain ⟨texts, written, unit_eq⟩ := Backend.Rust.unitText_eq uniform run
  have role : u.role = message.role := by
    rw [(MessageSpec.atVersion_eq_ok.1 resolved).2.2]
  rw [role] at written unit_eq
  refine ⟨u, texts, resolved, written, ?_⟩
  intro added same
  have readable : ∀ path ∈ added, (ImportPath.read? path).isSome = true :=
    fun path mem => Backend.Rust.readable_of_mem_writtenPaths ((same path).1 mem)
  have equal : Imports.empty.insertAll (added.filterMap ImportPath.read?) =
      Imports.empty.insertAll
        (Backend.Rust.usedPaths message.role (decide u.UsesUuid) (message.isFlexibleAt v)) := by
    refine Imports.insertAll_congr ?_
    intro path
    rw [← Backend.Rust.filterMap_writtenPaths, List.mem_filterMap, List.mem_filterMap]
    exact exists_congr fun text => and_congr_left fun _ => same text
  refine ⟨_, Imports.foldlM_add readable .empty, ?_⟩
  rw [equal]
  exact unit_eq

namespace Sample

/-- The registry of two messages. -/
def registered : Registry where
  definitions := [entry, fare, place]
  firstSites :=
    [("Entry", ⟨"Journal", "Journal", "Head"⟩), ("Place", ⟨"Ticket", "Ticket", "Seat"⟩)]
  visited :=
    [⟨"Ticket", "Ticket", "Seat"⟩, ⟨"Journal", "Entry", "Next"⟩, ⟨"Journal", "Journal", "Head"⟩]
  common := ["Entry", "Fare"]
  distinct := by decide

theorem afterAll_registered : Registry.afterAll [journal, ticket] = registered := rfl

/-- The unit of the second message. It has the shared struct of the first one, too. -/
def ticketUnit : MessageAt where
  name := "Ticket"
  role := .request
  version := 4
  structs :=
    [ticket.struct.atVersion 4 true true false, place.atVersion 4 true false false,
      entry.atVersion 4 true false true, fare.atVersion 4 true false true]

theorem atVersion_ticketUnit :
    ticket.atVersion (Registry.afterAll [journal, ticket]) 4 = .ok ticketUnit := by
  rw [afterAll_registered]
  cbv

/-- What the unit starts with. -/
def ticketHeader : String :=
  String.join ["use serde::\x7bDeserialize, Serialize\x7d;\n", "use uuid::Uuid;\n", "\n",
    "use crate::markers::\x7bApiMessage, Request\x7d;\n",
    "use crate::tagged_fields::RawTaggedField;\n"]

theorem toText_writtenPaths_ticket :
    ∃ imports, (writtenPaths .request ticketUnit.UsesUuid
        (ticket.flexibleVersions.contains 4)).foldlM Imports.add .empty = .ok imports ∧
      imports.toText = ticketHeader :=
  ⟨⟨[⟨"crate::markers", ["ApiMessage", "Request"], by decide, by decide⟩,
      ⟨"crate::tagged_fields", ["RawTaggedField"], by decide, by decide⟩,
      ⟨"serde", ["Deserialize", "Serialize"], by decide, by decide⟩,
      ⟨"uuid", ["Uuid"], by decide, by decide⟩], by decide⟩, rfl, by decide⟩

/-- The structs of the unit, as they are written. -/
def ticketTexts : List String :=
  [String.join ["#[derive(Serialize, Deserialize, Debug, Clone, PartialEq, Default)]\n",
      "pub struct Ticket \x7b\n",
      "    // tag 0\n",
      "    #[serde(default)]\n",
      "    pub seat: Place,\n",
      "    /// Rides.\n",
      "    /// \x7d\n",
      "    ///     pub hidden: bool,\n",
      "    pub ride_count: i8,\n",
      "    pub r#type: String,\n",
      "    pub level: i8,\n",
      "    #[serde(default)]\n",
      "    pub _unknown_tagged_fields: Vec<RawTaggedField>,\n",
      "\x7d\n\n",
      "impl ApiMessage for Ticket \x7b\x7d\n\n",
      "impl Request for Ticket \x7b\x7d\n"],
    String.join ["#[derive(Serialize, Deserialize, Debug, Clone, PartialEq, Default)]\n",
      "pub struct Place \x7b\n",
      "    /// Where to sit.\n",
      "    // tag 0\n",
      "    #[serde(default)]\n",
      "    pub label: Option<String>,\n",
      "    pub keys: Vec<Uuid>,\n",
      "    #[serde(default)]\n",
      "    pub _unknown_tagged_fields: Vec<RawTaggedField>,\n",
      "\x7d\n"],
    String.join ["#[derive(Serialize, Deserialize, Debug, Clone, PartialEq, Default)]\n",
      "pub struct Entry \x7b\n",
      "    #[serde(default)]\n",
      "    pub _unknown_tagged_fields: Vec<RawTaggedField>,\n",
      "\x7d\n"],
    String.join ["#[derive(Serialize, Deserialize, Debug, Clone, PartialEq, Default)]\n",
      "pub struct Fare \x7b\n",
      "    pub price: i64,\n",
      "    #[serde(default)]\n",
      "    pub _unknown_tagged_fields: Vec<RawTaggedField>,\n",
      "\x7d\n"]]

theorem writesStruct_ticketTexts :
    List.Forall₂ (WritesStruct .request true) ticketUnit.structs ticketTexts := by
  refine .cons ⟨_, .cons ⟨_, .struct _, rfl⟩ (.cons ⟨_, .int8, rfl⟩ (.cons ⟨_, .string, rfl⟩
      (.cons ⟨_, .int8, rfl⟩ .nil))), ?_⟩
    (.cons ⟨_, .cons ⟨_, .string, rfl⟩ (.cons ⟨_, .array .uuid, rfl⟩ .nil), ?_⟩
      (.cons ⟨_, .nil, ?_⟩ (.cons ⟨_, .cons ⟨_, .int64, rfl⟩ .nil, ?_⟩ .nil)))
  all_goals decide +kernel

/-- The UUIDs of the nested struct are imported, and the raw tagged fields of all structs. -/
theorem ticket_imports_uuids :
    MessageSpec.load ticketText = .ok ticket ∧
      (∀ other ∈ [journal, ticket], ∃ text, MessageSpec.load text = .ok other) ∧
      (Backend.rust true).generate ticket (Registry.afterAll [journal, ticket]) 4 =
        .ok ("\n".intercalate (ticketHeader :: ticketTexts ++ [testText "Ticket"])) := by
  have others : ∀ other ∈ [journal, ticket], ∃ text, MessageSpec.load text = .ok other := by
    intro other mem
    rcases List.mem_pair.1 mem with rfl | rfl
    · exact ⟨journalText, load_journalText⟩
    · exact ⟨ticketText, load_ticketText⟩
  obtain ⟨unit, generated⟩ : ∃ unit, (Backend.rust true).generate ticket
      (Registry.afterAll [journal, ticket]) 4 = .ok unit :=
    Backend.Rust.generate_succeeds_iff.2 ⟨_, atVersion_ticketUnit, by decide⟩
  refine ⟨load_ticketText, others, generated.trans (congrArg _ ?_)⟩
  obtain ⟨u, texts, resolved, written, begins⟩ :=
    unit_imports_what_it_uses load_ticketText others generated
  cases atVersion_ticketUnit.symm.trans resolved
  obtain ⟨imports, added, unit_eq⟩ := begins _ fun _ => Iff.rfl
  obtain ⟨imports', added', header⟩ := toText_writtenPaths_ticket
  cases added'.symm.trans added
  have spelled : texts = ticketTexts :=
    (Backend.Rust.writesStruct_unique .request true).forall₂ written writesStruct_ticketTexts
  rw [unit_eq, header, spelled]
  rfl

end Sample

end WireSchema
