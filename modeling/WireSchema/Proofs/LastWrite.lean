import WireSchema.Proofs.KeyOrder
import WireSchema.Proofs.Persistence
import WireSchema.Proofs.Positions

/-!
# The last write to a field

An object of a fixture starts from the defaults of its struct and is read member by member. Here is
what that comes to, without the order in which it is done: each field holds the conversion of the
**last** member that sets it, and its default if none does (`Written`). A member sets the field that
its key stands for, unless it is a null that keeps the default or the reserved entry for unknown
tagged fields. The reserved entry never sets a field, not even one that is declared under its name.

Effects tell which member wrote last (`Effect.get?_foldl_of_last`). An effect names the field it
writes to, and a key finds it; that the two mean one field is due to the loader, which refuses a
struct with two fields of one name.
-/

namespace WireSchema

open Fixture (Node)

/-! ### Structs at positions -/

/-- The positions that names lead to have structs of the registry, or the one at the start. -/
theorem Fixture.Node.struct?_of_descend {r : Registry} {names : List String} {start node : Node}
    {spec : StructSpec} (reached : start.descend r names = .ok node)
    (here : node.struct? = some spec) : start.struct? = some spec ∨ spec ∈ r.definitions := by
  induction names generalizing start with
  | nil =>
      cases reached
      exact .inl here
  | cons name names ih =>
      obtain ⟨next, stepped, reached⟩ := Outcome.bind_eq_ok.1 reached
      rcases ih reached with first | defined
      · obtain ⟨field, -, position⟩ := Outcome.bind_eq_ok.1 stepped
        obtain ⟨struct?, rfl, found⟩ := Materializer.ofField_eq_ok position
        exact .inr (Registry.mem_of_find? (Registry.find?_of_findStruct (found spec first)))
      · exact .inr defined

/-- Every struct at a position of a message has its fields by different names, if the messages are
loaded. -/
theorem MessageSpec.fieldNames_nodup_of_descend {text : String} {message : MessageSpec}
    {ms : List MessageSpec} {names : List String} {node : Node} {spec : StructSpec}
    (loaded : load text = .ok message) (others : ∀ other ∈ ms, ∃ text, load text = .ok other)
    (reached : (Node.root message.struct).descend (Registry.afterAll ms) names = .ok node)
    (here : node.struct? = some spec) : spec.fieldNames.Nodup := by
  rcases Node.struct?_of_descend reached here with top | defined
  · cases top
    exact (exists_records loaded (.inl rfl)).fieldNames_nodup
  · obtain ⟨_, _, loaded', has⟩ := Registry.exists_owner others defined
    exact (exists_records loaded' has).fieldNames_nodup

namespace Materializer

variable {m : Materializer} {node : Node} {spec : StructSpec} {f : FieldSpec}

/-! ### Members that set a field -/

/-- A null keeps the default of a scalar that is tagged at the version, and of a UUID. -/
def keepsDefault (m : Materializer) (field : FieldSpec) (json : Json) : Bool :=
  isNull json &&
    (field.type.isScalar && field.isTaggedAt m.version ||
      match field.type with
      | .uuid => true
      | _ => false)

/-- The value that a JSON value stands for in a field, at the position of the field. -/
def conversion (m : Materializer) (field : FieldSpec) (child : Node) (json : Json) :
    Except FixtureError Value :=
  if isNull json then .ok .null else m.convert child field.type field.name json

/-- A member sets a field: it is not the reserved entry, its key stands for the field, and it is not
a null that keeps the default. -/
structure Sets (m : Materializer) (node : Node) (field : FieldSpec) (member : String × Json) :
    Prop where
  ordinary : member.1 ≠ unknownTaggedKey
  key : node.fieldOf member.1 = .ok field
  value : m.keepsDefault field member.2 = false

theorem given_of_keepsDefault {json : Json} (child : Node) (keeps : m.keepsDefault f json = true) :
    m.given f child json = .ok none := by
  obtain ⟨null, kind⟩ := Bool.and_eq_true_iff.1 keeps
  rw [given, if_pos null, nullField]
  cases type : f.type <;> simp_all [FieldType.isScalar]

theorem given_eq_ok {child : Node} {json : Json} {value? : Option Value}
    (sets : m.keepsDefault f json = false) (run : m.given f child json = .ok value?) :
    ∃ value, value? = some value ∧ m.conversion f child json = .ok value := by
  rw [given] at run
  split at run
  · rename_i null
    refine ⟨.null, ?_, if_pos null⟩
    rw [nullField] at run
    cases type : f.type <;> simp_all [keepsDefault, FieldType.isScalar]
  · rename_i value
    obtain ⟨converted, ran, rfl⟩ := Outcome.map_eq_ok.1 run
    refine ⟨converted, rfl, ?_⟩
    rw [conversion, if_neg value, ran]

/-! ### The effects of members on a field -/

/-- A field that a key selects exists at the version, and no other field there has its name. -/
theorem select_unique {key : String} {field : FieldSpec} {child : Node}
    (distinct : spec.fieldNames.Nodup) (here : node.struct? = some spec)
    (selected : m.select node key = .ok (field, child)) :
    field ∈ spec.fieldsAt m.version ∧
      ∀ f ∈ spec.fieldsAt m.version, f.name = field.name → f = field := by
  have mem : field ∈ spec.fieldsAt m.version :=
    List.mem_of_find?_eq_some (select_eq_ok here selected).1
  refine ⟨mem, fun f present same => ?_⟩
  have inFields : ∀ g ∈ spec.fieldsAt m.version, g ∈ spec.fields :=
    fun g listed => List.mem_of_mem_filter listed
  exact List.inj_on_of_nodup_map distinct (inFields f present) (inFields field mem) same

/-- What gives a value to a field is a member that sets it. -/
theorem sets_of_effect {member : String × Json} {value : Value} (distinct : spec.fieldNames.Nodup)
    (here : node.struct? = some spec) (present : f ∈ spec.fieldsAt m.version)
    (run : m.effect node member = .ok (.give f.name value)) : m.Sets node f member := by
  obtain ⟨ordinary, field, child, selected, same, given⟩ := effect_eq_give run
  have one : f = field := (select_unique distinct here selected).2 f present same.symm
  subst one
  refine ⟨ordinary, fieldOf_of_select selected, ?_⟩
  by_contra keeps
  have nothing := given_of_keepsDefault child (Bool.not_eq_false _ ▸ keeps)
  cases given.symm.trans nothing

/-- A member that sets a field gives it its conversion. -/
theorem effect_of_sets {member : String × Json} {e : Effect} (here : node.struct? = some spec)
    (sets : m.Sets node f member) (run : m.effect node member = .ok e) :
    ∃ child value, Node.ofField m.registry f = .ok child ∧
      m.conversion f child member.2 = .ok value ∧ e = .give f.name value := by
  obtain ⟨field, child, value?, selected, given, rfl⟩ := select_of_effect sets.ordinary run
  cases (fieldOf_of_select selected).symm.trans sets.key
  obtain ⟨value, rfl, converted⟩ := given_eq_ok sets.value given
  exact ⟨child, value, (select_eq_ok here selected).2, converted, rfl⟩

theorem added_eq_nil {members : List (String × Json)} {es : List Effect}
    (each : List.Forall₂ (fun member e => m.effect node member = .ok e) members es)
    (absent : ∀ member ∈ members, member.1 ≠ unknownTaggedKey) : es.flatMap Effect.added = [] := by
  refine List.flatMap_eq_nil_iff.2 fun e listed => ?_
  obtain ⟨member, mem, run⟩ := Outcome.exists_of_mem_right each listed
  exact (added_of_effect run).1 (absent member mem)

/-! ### What is written -/

/-- The instance of an object: what its members have written over the defaults of a struct. -/
structure Written (m : Materializer) (node : Node) (spec : StructSpec)
    (members : List (String × Json)) (defaults i : Instance) : Prop where
  /-- The instance has the fields of the struct at the version. -/
  fields : i.fieldNames = (spec.fieldsAt m.version).map (·.name)
  /-- A field holds the conversion of the last member that sets it. -/
  last : ∀ f ∈ spec.fieldsAt m.version, ∀ before member after,
    members = before ++ member :: after → m.Sets node f member →
    (∀ later ∈ after, ¬ m.Sets node f later) →
    ∃ child value, Node.ofField m.registry f = .ok child ∧
      m.conversion f child member.2 = .ok value ∧ i.get? f.name = some value
  /-- A field that no member sets holds its default. -/
  untouched : ∀ f ∈ spec.fieldsAt m.version, (∀ member ∈ members, ¬ m.Sets node f member) →
    i.get? f.name = defaults.get? f.name
  /-- The unknown tagged fields are those of the reserved entry. -/
  tagged : ∀ json, (unknownTaggedKey, json) ∈ members → readTagged json = .ok i.unknownTagged
  /-- Without a reserved entry there are none. -/
  untagged : unknownTaggedKey ∉ members.map (·.1) → i.unknownTagged = []
  /-- Every other key stands for a field that exists at the version. -/
  known : ∀ member ∈ members, member.1 ≠ unknownTaggedKey →
    ∃ f ∈ spec.fieldsAt m.version, node.fieldOf member.1 = .ok f

section

variable {members : List (String × Json)} {es : List Effect} {defaults : Instance}

theorem get?_of_last {before after : List (String × Json)} {member : String × Json}
    (distinct : spec.fieldNames.Nodup) (here : node.struct? = some spec)
    (present : f ∈ spec.fieldsAt m.version)
    (names : defaults.fieldNames = (spec.fieldsAt m.version).map (·.name))
    (each : List.Forall₂ (fun member e => m.effect node member = .ok e)
      (before ++ member :: after) es)
    (sets : m.Sets node f member) (last : ∀ later ∈ after, ¬ m.Sets node f later) :
    ∃ child value, Node.ofField m.registry f = .ok child ∧
      m.conversion f child member.2 = .ok value ∧
      (es.foldl Effect.apply defaults).get? f.name = some value := by
  obtain ⟨done, e, rest, rfl, run, later⟩ := Outcome.exists_split each
  obtain ⟨child, value, position, converted, rfl⟩ := effect_of_sets here sets run
  refine ⟨child, value, position, converted, Effect.get?_foldl_of_last ?_ ?_⟩
  · rw [names]
    exact List.mem_map_of_mem present
  · intro e listed value' same
    obtain ⟨member', mem, run'⟩ := Outcome.exists_of_mem_right later listed
    exact last member' mem (sets_of_effect distinct here present (same ▸ run'))

theorem get?_of_untouched (distinct : spec.fieldNames.Nodup) (here : node.struct? = some spec)
    (present : f ∈ spec.fieldsAt m.version)
    (each : List.Forall₂ (fun member e => m.effect node member = .ok e) members es)
    (untouched : ∀ member ∈ members, ¬ m.Sets node f member) :
    (es.foldl Effect.apply defaults).get? f.name = defaults.get? f.name := by
  refine Effect.get?_foldl_of_ne ?_ defaults
  intro e listed value same
  obtain ⟨member, mem, run⟩ := Outcome.exists_of_mem_right each listed
  exact untouched member mem (sets_of_effect distinct here present (same ▸ run))

/-- An object has a key once, so the entries around the reserved one add nothing. -/
theorem readTagged_of_mem {json : Json} (keys : (members.map (·.1)).Nodup)
    (each : List.Forall₂ (fun member e => m.effect node member = .ok e) members es)
    (listed : (unknownTaggedKey, json) ∈ members) :
    readTagged json = .ok (es.flatMap Effect.added) := by
  induction each with
  | nil => cases listed
  | @cons member e members es run each ih =>
      obtain ⟨fresh, keys⟩ := List.nodup_cons.1 keys
      rw [List.flatMap_cons]
      rcases List.mem_cons.1 listed with rfl | later
      · have absent : ∀ other ∈ members, other.1 ≠ unknownTaggedKey := by
          intro other mem same
          exact fresh (List.mem_map.2 ⟨other, mem, same⟩)
        rw [added_eq_nil each absent, List.append_nil]
        exact (added_of_effect run).2 rfl
      · have ordinary : member.1 ≠ unknownTaggedKey := by
          intro same
          exact fresh (List.mem_map.2 ⟨_, later, same.symm⟩)
        rw [(added_of_effect run).1 ordinary]
        exact ih keys later

end

/-- Reading the members of an object over the defaults of a struct writes what they set. -/
theorem written_of_assign {members : List (String × Json)} {defaults i : Instance}
    (distinct : spec.fieldNames.Nodup) (here : node.struct? = some spec)
    (keys : (members.map (·.1)).Nodup) (default : m.defaultInstance spec = .ok defaults)
    (run : m.assign node defaults members = .ok i) : m.Written node spec members defaults i := by
  have names : defaults.fieldNames = (spec.fieldsAt m.version).map (·.name) :=
    (defaultInstance_conforms default).fieldNames
  have clean : defaults.unknownTagged = [] := by
    obtain ⟨fields, -, rfl⟩ := defaultInstance_eq_ok.1 default
    rfl
  obtain ⟨es, each, rfl⟩ := assign_eq_ok.1 run
  have tagged : (es.foldl Effect.apply defaults).unknownTagged = es.flatMap Effect.added := by
    rw [Effect.unknownTagged_foldl, clean, List.nil_append]
  constructor
  case fields => rw [Effect.fieldNames_foldl, names]
  case last =>
    intro f present before member after split sets last
    subst split
    exact get?_of_last distinct here present names each sets last
  case untouched =>
    intro f present untouched
    exact get?_of_untouched distinct here present each untouched
  case tagged =>
    intro json listed
    rw [tagged]
    exact readTagged_of_mem keys each listed
  case untagged =>
    intro absent
    rw [tagged]
    exact added_eq_nil each fun member mem same => absent (same ▸ List.mem_map_of_mem mem)
  case known =>
    intro member mem ordinary
    obtain ⟨e, -, run⟩ := Outcome.exists_of_mem_left each mem
    obtain ⟨field, child, _, selected, -, -⟩ := select_of_effect ordinary run
    exact ⟨field, (select_unique distinct here selected).1, fieldOf_of_select selected⟩

end Materializer

/-- **Defaults, then the last write.** Take a loaded message at a valid version, with the registry
that loaded messages have led to, and a position of the message that names lead to. If an object is
turned into an instance there, then the position has a struct, and the instance is what the members
have written over the default instance of the struct: each field has the conversion of the last
member that sets it, or else its default; the unknown tagged fields are those of the reserved entry;
and all other keys stand for fields that exist at the version. -/
theorem materialized_object_written {text : String} {message : MessageSpec}
    {ms : List MessageSpec} {v : Version} {m : Materializer} {names : List String} {node : Node}
    {members : List (String × Json)} {i : Instance} (loaded : MessageSpec.load text = .ok message)
    (others : ∀ other ∈ ms, ∃ text, MessageSpec.load text = .ok other)
    (valid : Materializer.new message (Registry.afterAll ms) v = .ok m)
    (reached : m.root.descend m.registry names = .ok node) (keys : (members.map (·.1)).Nodup)
    (run : m.materialize node (.object members) = .ok (some i)) :
    ∃ spec defaults, node.struct? = some spec ∧ m.defaultInstance spec = .ok defaults ∧
      m.Written node spec members defaults i := by
  obtain rfl := new_eq_ok valid
  obtain ⟨defaults, started, run⟩ := Outcome.bind_eq_ok.1 run
  obtain ⟨_, assigned, same⟩ := Outcome.bind_eq_ok.1 run
  cases same
  obtain ⟨spec, here⟩ := Materializer.struct?_of_start started
  have default : Materializer.defaultInstance ⟨message, Registry.afterAll ms, v⟩ spec =
      .ok defaults := by
    rwa [Materializer.start, here] at started
  have distinct := MessageSpec.fieldNames_nodup_of_descend loaded others reached here
  exact ⟨spec, defaults, here, default,
    Materializer.written_of_assign distinct here keys default assigned⟩

namespace Sample

/-- The position of the head of the sample. -/
def headNode : Node :=
  .field ⟨"Head", .struct "Entry", ⟨0, 1⟩, none, none, .none, none, none, some entry⟩ (some entry)

/-- Two spellings of one key, with the reserved entry between them. -/
def headMembers : List (String × Json) :=
  [("tags", .array [.string "draft"]), (unknownTaggedKey, .array []),
    ("Tags", .array [.string "final"])]

theorem materialize_head : journalMaterializer.materialize headNode (.object headMembers) =
    .ok (some (entryInstance .null [.string "final"])) := by
  refine Outcome.bind_eq_ok.2 ⟨entryInstance .null [], defaultInstance_entry, ?_⟩
  refine Outcome.bind_eq_ok.2 ⟨entryInstance .null [.string "final"], ?_, rfl⟩
  refine Materializer.assign_cons.2 ⟨_, .value (by decide) rfl rfl rfl, ?_⟩
  refine Materializer.assign_cons.2 ⟨_, .tagged rfl, ?_⟩
  exact Materializer.assign_cons.2 ⟨_, .value (by decide) rfl rfl rfl, rfl⟩

theorem journal_head_written :
    MessageSpec.load journalText = .ok journal ∧
      Materializer.new journal (Registry.afterAll [journal]) 1 = .ok journalMaterializer ∧
      journalMaterializer.root.descend journalRegistry ["Head"] = .ok headNode ∧
      journalMaterializer.materialize headNode (.object headMembers) =
        .ok (some (entryInstance .null [.string "final"])) ∧
      ∃ spec defaults, headNode.struct? = some spec ∧
        journalMaterializer.defaultInstance spec = .ok defaults ∧
        journalMaterializer.Written headNode spec headMembers defaults
          (entryInstance .null [.string "final"]) := by
  have valid : Materializer.new journal (Registry.afterAll [journal]) 1 =
      .ok journalMaterializer := rfl
  have reached : journalMaterializer.root.descend journalMaterializer.registry ["Head"] =
      .ok headNode := rfl
  have loaded : ∀ other ∈ [journal], ∃ text, MessageSpec.load text = .ok other := by
    intro other listed
    cases List.mem_singleton.1 listed
    exact ⟨journalText, load_journalText⟩
  exact ⟨load_journalText, valid, reached, materialize_head,
    materialized_object_written load_journalText loaded valid reached (by decide) materialize_head⟩

/-! ### A field under the reserved name -/

/-- A document that declares a field by the reserved name. -/
def crateText : String :=
  "\x7b\"name\":\"Crate\",\"validVersions\":\"0\",\"fields\":[
    \x7b\"name\":\"_unknown_tagged_fields\",\"type\":\"[]string\",\"versions\":\"0+\",
      \"nullableVersions\":\"0+\",\"default\":\"null\"\x7d]\x7d"

def crateField : FieldSpec :=
  ⟨"_unknown_tagged_fields", .array .string, ⟨0, 0⟩, none, none, .startingAt 0, some "null", none,
    none⟩

def crate : MessageSpec where
  name := "Crate"
  apiKey := none
  role := .data
  validVersions := ⟨0, 0⟩
  flexibleVersions := .none
  struct := ⟨"Crate", ⟨0, 0⟩, [crateField]⟩
  commonStructs := []

set_option maxRecDepth 2000 in
theorem load_crateText : MessageSpec.load crateText = .ok crate :=
  MessageSpec.load_of_tokens (by cbv) rfl rfl rfl

def crateMaterializer : Materializer := ⟨crate, Registry.afterAll [crate], 0⟩

/-- The reserved entry of the fixture converts to an empty array of the field that its key stands
for, and the field holds its default all the same. -/
theorem reserved_entry_sets_no_field :
    MessageSpec.load crateText = .ok crate ∧
      Materializer.new crate (Registry.afterAll [crate]) 0 = .ok crateMaterializer ∧
      crateMaterializer.materialize crateMaterializer.root
        (.object [(unknownTaggedKey, .array [])]) =
          .ok (some ⟨"Crate", [(crateField.name, .null)], []⟩) ∧
      crateMaterializer.root.fieldOf unknownTaggedKey = .ok crateField ∧
      crateMaterializer.keepsDefault crateField (.array []) = false ∧
      crateMaterializer.conversion crateField (.field crateField none) (.array []) =
        .ok (.array []) := by
  refine ⟨load_crateText, rfl, ?_, rfl, rfl, rfl⟩
  cbv

end Sample

end WireSchema
