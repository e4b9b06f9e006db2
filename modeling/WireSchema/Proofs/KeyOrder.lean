import Mathlib.Data.List.Nodup
import Mathlib.Data.List.Perm.Basic
import WireSchema.Proofs.Effects

/-!
# The order of keys

Two fixtures that differ only in the order of the members of their objects, at any depth, give the
same instance, or neither gives one. This needs two things of the fixture, neither of which the
order has a part in: an object has no key twice, and where a struct is read no two keys stand for
one field. Without the second the last of the two would decide.

Members are told apart by their effects (`WireSchema.Proofs.Effects`). Effects on different fields
commute, so a permutation of the members is a permutation of effects with the same outcome
(`assign_perm`). The recursion over the fixture (`convert_reordered`) only has to show that the
members which correspond to each other have the same effect.
-/

namespace WireSchema

open Fixture (Node)

/-! ### Fixtures up to the order of members -/

namespace Json

mutual

/-- Two JSON values that differ only in the order of the members of objects, at every depth. -/
inductive Reordered : Json → Json → Prop where
  | null : Reordered .null .null
  | bool (b : Bool) : Reordered (.bool b) (.bool b)
  | number (n : Number) : Reordered (.number n) (.number n)
  | string (s : String) : Reordered (.string s) (.string s)
  | array {items items' : List Json} (each : ItemsReordered items items') :
      Reordered (.array items) (.array items')
  /-- The members are reordered inside, where they are, and then among each other. -/
  | object {members moved members' : List (String × Json)} (each : MembersReordered members moved)
      (order : moved.Perm members') : Reordered (.object members) (.object members')

/-- Items that correspond to each other, in their order. -/
inductive ItemsReordered : List Json → List Json → Prop where
  | nil : ItemsReordered [] []
  | cons {item item' : Json} {items items' : List Json} (first : Reordered item item')
      (others : ItemsReordered items items') : ItemsReordered (item :: items) (item' :: items')

/-- Members with the same keys, in their order, and values that correspond to each other. -/
inductive MembersReordered : List (String × Json) → List (String × Json) → Prop where
  | nil : MembersReordered [] []
  | cons {key : String} {value value' : Json} {members members' : List (String × Json)}
      (first : Reordered value value') (others : MembersReordered members members') :
      MembersReordered ((key, value) :: members) ((key, value') :: members')

end

/-- No object has a key twice, at any depth. -/
inductive KeysDistinct : Json → Prop where
  | null : KeysDistinct .null
  | bool (b : Bool) : KeysDistinct (.bool b)
  | number (n : Number) : KeysDistinct (.number n)
  | string (s : String) : KeysDistinct (.string s)
  | array {items : List Json} (each : ∀ item ∈ items, KeysDistinct item) :
      KeysDistinct (.array items)
  | object {members : List (String × Json)} (keys : (members.map (·.1)).Nodup)
      (each : ∀ member ∈ members, KeysDistinct member.2) : KeysDistinct (.object members)

theorem MembersReordered.keys {members moved : List (String × Json)}
    (each : MembersReordered members moved) : moved.map (·.1) = members.map (·.1) := by
  induction moved generalizing members with
  | nil =>
      cases each
      rfl
  | cons _ _ ih =>
      cases each with
      | cons first others => simp [ih others]

/-! ### Read texts

Of two members with one key only the last is read, in the place of the first. -/

theorem mem_insertMember {key : String} {value : Json} {members : List (String × Json)}
    {member : String × Json} (mem : member ∈ insertMember key value members) :
    member = (key, value) ∨ member ∈ members := by
  induction members with
  | nil => simpa [insertMember] using mem
  | cons first members ih =>
      obtain ⟨k, v⟩ := first
      by_cases here : k = key
      · rw [insertMember, if_pos here, List.mem_cons] at mem
        simp only [here] at mem
        exact mem.imp_right (List.mem_cons_of_mem _)
      · rw [insertMember, if_neg here, List.mem_cons] at mem
        rcases mem with first | later
        · exact .inr (first ▸ List.mem_cons_self ..)
        · exact (ih later).imp_right (List.mem_cons_of_mem _)

theorem nodup_insertMember {members : List (String × Json)} (keys : (members.map (·.1)).Nodup)
    (key : String) (value : Json) : ((insertMember key value members).map (·.1)).Nodup := by
  induction members with
  | nil => simp [insertMember]
  | cons first members ih =>
      obtain ⟨k, v⟩ := first
      rw [List.map_cons, List.nodup_cons] at keys
      by_cases here : k = key
      · rw [insertMember, if_pos here]
        exact List.nodup_cons.2 keys
      · rw [insertMember, if_neg here, List.map_cons, List.nodup_cons]
        refine ⟨?_, ih keys.2⟩
        intro mem
        obtain ⟨member, listed, same⟩ := List.mem_map.1 mem
        rcases mem_insertMember listed with new | old
        · rw [new] at same
          exact here same.symm
        · exact keys.1 (List.mem_map.2 ⟨member, old, same⟩)

theorem KeysDistinct.insertMember {key : String} {value : Json} {members : List (String × Json)}
    (new : value.KeysDistinct) (before : KeysDistinct (.object members)) :
    KeysDistinct (.object (insertMember key value members)) := by
  cases before with
  | object keys each =>
      refine .object (nodup_insertMember keys key value) ?_
      intro member mem
      rcases mem_insertMember mem with rfl | old
      · exact new
      · exact each member old

mutual

theorem Written.value?_keysDistinct : ∀ (tree : Written) {limit : Nat} {json : Json},
    tree.value? limit = some json → json.KeysDistinct
  | .null, _, _, h => by
      cases h
      exact .null
  | .bool b, _, _, h => by
      cases h
      exact .bool b
  | .number literal, _, _, h => by
      rw [Written.value?, Option.map_eq_some_iff] at h
      obtain ⟨n, -, rfl⟩ := h
      exact .number n
  | .string pieces, _, _, h => by
      rw [Written.value?, Option.map_eq_some_iff] at h
      obtain ⟨text, -, rfl⟩ := h
      exact .string text
  | .array items, 0, _, h => by cases h
  | .array items, inner + 1, _, h => by
      rw [Written.value?, Option.map_eq_some_iff] at h
      obtain ⟨values, read, rfl⟩ := h
      exact .array (Written.values?_keysDistinct items read)
  | .object members, 0, _, h => by cases h
  | .object members, inner + 1, _, h => by
      rw [Written.value?, Option.map_eq_some_iff] at h
      obtain ⟨found, read, rfl⟩ := h
      have empty : KeysDistinct (.object []) := .object List.nodup_nil nofun
      exact Written.members?_keysDistinct members empty read

theorem Written.values?_keysDistinct : ∀ (items : List Written) {limit : Nat} {values : List Json},
    Written.values? limit items = some values → ∀ value ∈ values, value.KeysDistinct
  | [], _, _, h => by
      cases h
      nofun
  | item :: items, _, _, h => by
      rw [Written.values?] at h
      split at h
      · next value values first others =>
          cases h
          exact List.forall_mem_cons.2 ⟨Written.value?_keysDistinct item first,
            Written.values?_keysDistinct items others⟩
      · cases h

theorem Written.members?_keysDistinct : ∀ (members : List (List Piece × Written)) {limit : Nat}
    {before found : List (String × Json)}, KeysDistinct (.object before) →
    Written.members? limit before members = some found → KeysDistinct (.object found)
  | [], _, _, _, distinct, h => by
      cases h
      exact distinct
  | (key, tree) :: members, _, _, _, distinct, h => by
      rw [Written.members?] at h
      split at h
      · next name value _ read =>
          exact Written.members?_keysDistinct members
            (.insertMember (Written.value?_keysDistinct tree read) distinct) h
      · cases h

end

/-- What is read from a text has no key twice in any object. -/
theorem keysDistinct_of_read? {text : String} {json : Json} (read : read? text = some json) :
    json.KeysDistinct := by
  obtain ⟨tree, -, value⟩ := Option.bind_eq_some_iff.1 read
  exact tree.value?_keysDistinct value

/-! ### Look-up -/

theorem lookup_eq_some_iff_mem {β : Type} {members : List (String × β)}
    (keys : (members.map (·.1)).Nodup) {key : String} {value : β} :
    members.lookup key = some value ↔ (key, value) ∈ members := by
  induction members with
  | nil => simp
  | cons member members ih =>
      obtain ⟨first, other⟩ := member
      rw [List.map_cons, List.nodup_cons] at keys
      by_cases here : key = first
      · subst here
        have absent : (key, value) ∉ members := by
          intro mem
          exact keys.1 (List.mem_map.2 ⟨(key, value), mem, rfl⟩)
        simp [absent, eq_comm]
      · simp [List.lookup_cons, beq_false_of_ne here, ih keys.2, here]

theorem lookup_perm {members members' : List (String × Json)} (order : members.Perm members')
    (keys : (members.map (·.1)).Nodup) (key : String) :
    members.lookup key = members'.lookup key := by
  have keys' : (members'.map (·.1)).Nodup := (order.map _).nodup_iff.1 keys
  ext value
  rw [lookup_eq_some_iff_mem keys, lookup_eq_some_iff_mem keys', order.mem_iff]

theorem MembersReordered.lookup {members moved : List (String × Json)}
    (each : MembersReordered members moved) (key : String) :
    Option.Rel Reordered (members.lookup key) (moved.lookup key) := by
  induction moved generalizing members with
  | nil =>
      cases each
      exact .none
  | cons member moved ih =>
      cases each with
      | @cons first _ _ _ _ here others =>
          by_cases same : key = first
          · simpa [same] using Option.Rel.some here
          · simpa [List.lookup_cons, beq_false_of_ne same] using ih others

end Json

/-! ### Unknown tagged fields -/

namespace TaggedField

open Json (Reordered)

theorem readTag_reordered {json json' : Json} (h : json.Reordered json') {index : Nat} {n : Int} :
    readTag index json = .ok n ↔ readTag index json' = .ok n := by
  cases h with
  | array | object => simp [readTag, Json.integer?]
  | _ => exact Iff.rfl

theorem readData_reordered {json json' : Json} (h : json.Reordered json') {index : Nat} :
    readData index json = readData index json' := by
  cases h <;> rfl

/-- One entry: its parts, and what they are read as. -/
def readOne (index : Nat) (entry : Json) : Except TaggedEntryFault TaggedField :=
  parts index entry >>= fun found =>
    readTag index found.1 >>= fun tag => (readData index found.2).map fun data => ⟨tag, data⟩

theorem readFrom_cons_eq (index : Nat) (entry : Json) (entries : List Json) :
    readFrom index (entry :: entries) =
      readOne index entry >>= fun field => (readFrom (index + 1) entries).map (field :: ·) := by
  rw [readFrom, readOne]
  cases parts index entry with
  | error fault => rfl
  | ok found =>
      obtain ⟨tag, data⟩ := found
      cases tagged : readTag index tag with
      | error fault => simp [bind, Except.bind, tagged]
      | ok n =>
          cases read : readData index data <;> cases readFrom (index + 1) entries <;>
            simp [bind, Except.bind, Except.map, tagged, read]

theorem readOne_of_parts {index : Nat} {entry entry' tag tag' data data' : Json}
    {field : TaggedField} (found : parts index entry = .ok (tag, data))
    (found' : parts index entry' = .ok (tag', data')) (tags : tag.Reordered tag')
    (datas : data.Reordered data') :
    readOne index entry = .ok field ↔ readOne index entry' = .ok field := by
  rw [readOne, readOne, found, found']
  change (readTag index tag >>= _) = _ ↔ (readTag index tag' >>= _) = _
  simp only [Outcome.bind_eq_ok, readTag_reordered tags, readData_reordered datas]

theorem readOne_of_faults {index : Nat} {entry entry' : Json} {fault fault' : TaggedEntryFault}
    {field : TaggedField} (missing : parts index entry = .error fault)
    (missing' : parts index entry' = .error fault') :
    readOne index entry = .ok field ↔ readOne index entry' = .ok field := by
  rw [readOne, readOne, missing, missing']
  constructor <;> nofun

/-- The parts that an object has under the two keys. -/
def partsOf (index : Nat) : Option Json → Option Json → Except TaggedEntryFault (Json × Json)
  | some tag, some data => .ok (tag, data)
  | _, _ => .error (.missingKeys index)

theorem parts_object (index : Nat) (members : List (String × Json)) :
    parts index (.object members) =
      partsOf index (members.lookup "tag") (members.lookup "data") := by
  rw [parts]
  cases members.lookup "tag" <;> cases members.lookup "data" <;> rfl

theorem readOne_reordered {entry entry' : Json} (h : entry.Reordered entry')
    (distinct : entry.KeysDistinct) {index : Nat} {field : TaggedField} :
    readOne index entry = .ok field ↔ readOne index entry' = .ok field := by
  cases h with
  | array each =>
      -- Only an array of two items is a pair.
      cases each with
      | nil => exact Iff.rfl
      | cons tags others =>
          cases others with
          | nil => exact readOne_of_faults rfl rfl
          | cons datas others =>
              cases others with
              | nil => exact readOne_of_parts rfl rfl tags datas
              | cons => exact readOne_of_faults rfl rfl
  | @object members moved members' each order =>
      cases distinct with
      | object keys _ =>
          rw [← each.keys] at keys
          have tags := each.lookup "tag"
          have datas := each.lookup "data"
          rw [Json.lookup_perm order keys] at tags datas
          have object := parts_object index members
          have object' := parts_object index members'
          revert tags datas object object'
          generalize members.lookup "tag" = tag, members'.lookup "tag" = tag',
            members.lookup "data" = data, members'.lookup "data" = data'
          intro tags datas object object'
          cases tags with
          | none => exact readOne_of_faults object object'
          | some tags =>
              cases datas with
              | none => exact readOne_of_faults object object'
              | some datas => exact readOne_of_parts object object' tags datas
  | _ => exact Iff.rfl

theorem readFrom_reordered {entries entries' : List Json}
    (each : Json.ItemsReordered entries entries') (distinct : ∀ e ∈ entries, e.KeysDistinct)
    {index : Nat} {fields : List TaggedField} :
    readFrom index entries = .ok fields ↔ readFrom index entries' = .ok fields := by
  induction entries generalizing entries' index fields with
  | nil =>
      cases each
      exact Iff.rfl
  | cons entry entries ih =>
      cases each with
      | cons first others =>
          obtain ⟨here, distinct⟩ := List.forall_mem_cons.1 distinct
          simp only [readFrom_cons_eq, Outcome.bind_eq_ok, Outcome.map_eq_ok,
            readOne_reordered first here, ih others distinct]

end TaggedField

/-! ### Keys at a position -/

/-- The field that a key stands for at a position. -/
def Fixture.Node.fieldOf (node : Node) (key : String) : Except FixtureError FieldSpec :=
  Fixture.normalize node.knownNames key >>= node.lookup

/-- No two keys stand for one field. The reserved key stands for none. -/
def Fixture.Node.Unambiguous (node : Node) (keys : List String) : Prop :=
  ∀ a ∈ keys, ∀ b ∈ keys, a ≠ unknownTaggedKey → b ≠ unknownTaggedKey → ∀ field,
    node.fieldOf a = .ok field → node.fieldOf b = .ok field → a = b

/-- Keys that are all spelled as the fields are declared stand for different fields. -/
theorem Fixture.Node.unambiguous_of_declared {node : Node} {keys : List String}
    (declared : ∀ key ∈ keys, (node.fieldOf key).map (·.name) = .ok key) :
    node.Unambiguous keys := by
  intro a memA b memB _ _ field fieldA fieldB
  have nameA := declared a memA
  have nameB := declared b memB
  rw [fieldA] at nameA
  rw [fieldB] at nameB
  exact (Except.ok.inj nameA).symm.trans (Except.ok.inj nameB)

namespace Materializer

variable {m : Materializer} {node : Node}

/-- The objects at the positions of structs: reading a JSON value as a type at a position comes upon
an object, with these members, at a position where a struct is read. -/
inductive Meets (m : Materializer) :
    Node → FieldType → Json → Node → List (String × Json) → Prop where
  /-- The value itself is read as a struct. -/
  | here {node : Node} {name : String} {members : List (String × Json)} :
      Meets m node (.struct name) (.object members) node members
  /-- A member of it is read as the type of the field that its key selects. -/
  | member {node child node' : Node} {name key : String} {members members' : List (String × Json)}
      {value : Json} {field : FieldSpec} (mem : (key, value) ∈ members)
      (ordinary : key ≠ unknownTaggedKey) (selected : m.select node key = .ok (field, child))
      (inner : Meets m child field.type value node' members') :
      Meets m node (.struct name) (.object members) node' members'
  /-- An item of it is read as the type of the elements. -/
  | item {node node' : Node} {type element : FieldType} {items : List Json} {item : Json}
      {members' : List (String × Json)} (elements : node.element? = some element)
      (mem : item ∈ items) (inner : Meets m node element item node' members') :
      Meets m node (.array type) (.array items) node' members'

theorem fieldOf_of_select {key : String} {field : FieldSpec} {child : Node}
    (selected : m.select node key = .ok (field, child)) : node.fieldOf key = .ok field := by
  rw [select_eq] at selected
  obtain ⟨canonical, settled, h⟩ := Outcome.bind_eq_ok.1 selected
  obtain ⟨found, looked, h⟩ := Outcome.bind_eq_ok.1 h
  obtain ⟨position, -, h⟩ := Outcome.bind_eq_ok.1 h
  split at h
  · cases h
    exact Outcome.bind_eq_ok.2 ⟨canonical, settled, looked⟩
  · cases h

/-! ### Permutations of members -/

/-- Members with different keys have effects that commute. -/
theorem effects_comm {spec : StructSpec} {members : List (String × Json)}
    (here : node.struct? = some spec) (unambiguous : node.Unambiguous (members.map (·.1)))
    {a b : String × Json} (memA : a ∈ members) (memB : b ∈ members) (differ : a.1 ≠ b.1)
    {d e : Effect} (effectA : m.effect node a = .ok d) (effectB : m.effect node b = .ok e)
    (i : Instance) : e.apply (d.apply i) = d.apply (e.apply i) := by
  refine Effect.apply_comm ?_ ?_ i
  · intro name value value' giveA giveB
    obtain ⟨ordinaryA, f, _, selectedA, nameA, -⟩ := effect_eq_give (effectA.trans (by rw [giveA]))
    obtain ⟨ordinaryB, g, _, selectedB, nameB, -⟩ := effect_eq_give (effectB.trans (by rw [giveB]))
    -- Fields of one name are one field: both are the first of that name.
    have same : f = g := by
      obtain ⟨firstA, -⟩ := select_eq_ok here selectedA
      obtain ⟨firstB, -⟩ := select_eq_ok here selectedB
      rw [nameA] at firstA
      rw [nameB] at firstB
      exact Option.some.inj (firstA.symm.trans firstB)
    subst same
    exact differ (unambiguous _ (List.mem_map_of_mem memA) _ (List.mem_map_of_mem memB) ordinaryA
      ordinaryB f (fieldOf_of_select selectedA) (fieldOf_of_select selectedB))
  · intro more more' addA addB
    rw [addA] at effectA
    rw [addB] at effectB
    exact differ ((effect_eq_add effectA).trans (effect_eq_add effectB).symm)

theorem assign_of_perm {spec : StructSpec} {members members' : List (String × Json)}
    {i i' : Instance} (here : node.struct? = some spec) (keys : (members.map (·.1)).Nodup)
    (unambiguous : node.Unambiguous (members.map (·.1))) (order : members.Perm members')
    (run : m.assign node i members = .ok i') : m.assign node i members' = .ok i' := by
  -- The effects are permuted as the members are, and any two of them commute.
  obtain ⟨es, each, rfl⟩ := assign_eq_ok.1 run
  obtain ⟨es', each', order'⟩ := List.perm_comp_forall₂ order.symm each
  refine assign_eq_ok.2 ⟨es', each', order'.symm.foldl_eq' ?_ i |>.symm⟩
  intro d memD e memE j
  obtain ⟨a, memA, effectA⟩ := Outcome.exists_of_mem_right each memD
  obtain ⟨b, memB, effectB⟩ := Outcome.exists_of_mem_right each memE
  by_cases same : a.1 = b.1
  · have equal : a = b := List.inj_on_of_nodup_map keys memA memB same
    subst equal
    cases effectA.symm.trans effectB
    rfl
  · exact effects_comm here unambiguous memA memB same effectA effectB j

theorem assign_perm {spec : StructSpec} {members members' : List (String × Json)}
    {i i' : Instance} (here : node.struct? = some spec) (keys : (members.map (·.1)).Nodup)
    (unambiguous : node.Unambiguous (members.map (·.1))) (order : members.Perm members') :
    m.assign node i members = .ok i' ↔ m.assign node i members' = .ok i' := by
  constructor
  · exact assign_of_perm here keys unambiguous order
  · refine assign_of_perm here ((order.map _).nodup_iff.1 keys) ?_ order.symm
    intro a memA b memB
    exact unambiguous a ((order.map _).mem_iff.2 memA) b ((order.map _).mem_iff.2 memB)

/-! ### Fixtures -/

open Json (Reordered ItemsReordered MembersReordered)

theorem isNull_reordered {json json' : Json} (h : json.Reordered json') :
    isNull json = isNull json' := by
  cases h <;> rfl

theorem readTagged_reordered {json json' : Json} (h : json.Reordered json')
    (distinct : json.KeysDistinct) {tagged : List TaggedField} :
    readTagged json = .ok tagged ↔ readTagged json' = .ok tagged := by
  have readTagged_eq_ok : ∀ json, readTagged json = .ok tagged ↔
      TaggedField.readEntry json = .ok tagged := by
    intro json
    unfold readTagged TaggedField.read
    cases TaggedField.readEntry json <;> simp
  rw [readTagged_eq_ok, readTagged_eq_ok]
  cases h with
  | array each =>
      cases distinct with
      | array distinct => exact TaggedField.readFrom_reordered each distinct
  | object => exact ⟨nofun, nofun⟩
  | _ => exact Iff.rfl

/-- An object or array that is not read as a struct or an array only shows its kind. -/
theorem convertLeaf_object (type : FieldType) (label : String)
    (members members' : List (String × Json)) :
    m.convertLeaf node type label (.object members) =
      m.convertLeaf node type label (.object members') := by
  cases type <;> rfl

theorem convertLeaf_array (type : FieldType) (label : String) (items items' : List Json) :
    m.convertLeaf node type label (.array items) =
      m.convertLeaf node type label (.array items') := by
  cases type <;> rfl

/-- The effect of a member is that of the corresponding one, if the values are converted alike. -/
theorem effect_congr {key : String} {json json' : Json} {e : Effect} (h : json.Reordered json')
    (distinct : json.KeysDistinct)
    (converted : key ≠ unknownTaggedKey → ∀ field child, m.select node key = .ok (field, child) →
      ∀ value, m.convert child field.type field.name json = .ok value ↔
        m.convert child field.type field.name json' = .ok value) :
    m.effect node (key, json) = .ok e ↔ m.effect node (key, json') = .ok e := by
  by_cases reserved : key = unknownTaggedKey
  · subst reserved
    simp only [effect_tagged, Outcome.map_eq_ok, readTagged_reordered h distinct]
  · cases selected : m.select node key with
    | error failed =>
        simp [effect, reserved, selected, bind, Except.bind]
    | ok found =>
        obtain ⟨field, child⟩ := found
        rw [effect_of_selected reserved selected, effect_of_selected reserved selected, given,
          given, isNull_reordered h]
        split
        · exact Iff.rfl
        · simp only [Outcome.map_eq_ok, converted reserved field child selected]

theorem struct?_of_start {i : Instance} (started : m.start node = .ok i) :
    ∃ spec, node.struct? = some spec := by
  unfold start at started
  split at started
  · cases started
  · next spec found => exact ⟨spec, found⟩

/-- Members that are replaced by ones of the same effects and then permuted leave the same
instance. -/
theorem assign_reordered {spec : StructSpec} {members moved members' : List (String × Json)}
    {i i' : Instance} (here : node.struct? = some spec) (keys : (members.map (·.1)).Nodup)
    (unambiguous : node.Unambiguous (members.map (·.1))) (each : MembersReordered members moved)
    (order : moved.Perm members')
    (same : List.Forall₂ (fun a b => ∀ e, m.effect node a = .ok e ↔ m.effect node b = .ok e)
      members moved) :
    m.assign node i members = .ok i' ↔ m.assign node i members' = .ok i' := by
  rw [← each.keys] at keys unambiguous
  rw [← assign_perm here keys unambiguous order]
  simp only [assign_eq_ok, Outcome.forall₂_congr_left same]

theorem convertItem_congr {type : FieldType} {label : String} {item item' : Json}
    (h : item.Reordered item') (value : Value)
    (converted : m.convert node type label item = .ok value ↔
      m.convert node type label item' = .ok value) :
    m.convertItem node type label item = .ok value ↔
      m.convertItem node type label item' = .ok value := by
  unfold convertItem
  rw [isNull_reordered h]
  split
  · exact Iff.rfl
  · exact converted

mutual

/-- Values that correspond to each other are converted to the same. -/
theorem convert_reordered : ∀ (json : Json) {json' : Json} {node : Node} {type : FieldType}
      (label : String) (value : Value), json.Reordered json' → json.KeysDistinct →
      (∀ node' members, m.Meets node type json node' members →
        node'.Unambiguous (members.map (·.1))) →
      (m.convert node type label json = .ok value ↔ m.convert node type label json' = .ok value)
  | .object members, json', node, type, label, value, h, distinct, unambiguous => by
      cases h with
      | @object _ moved members' each order =>
          cases type with
          | struct name =>
              cases distinct with
              | object keys distinct =>
                  have same := effects_reordered members each distinct
                    fun key value mem ordinary field child selected node' inside meets =>
                      unambiguous node' inside (.member mem ordinary selected meets)
                  simp only [convert, Outcome.bind_eq_ok]
                  refine exists_congr fun defaults => and_congr_right fun started => ?_
                  refine exists_congr fun i => and_congr_left fun _ => ?_
                  obtain ⟨spec, here⟩ := struct?_of_start started
                  exact assign_reordered here keys (unambiguous node members .here) each order same
          | _ =>
              simp only [convert]
              rw [convertLeaf_object]
  | .array items, json', node, type, label, value, h, distinct, unambiguous => by
      cases h with
      | array each =>
          cases type with
          | array element =>
              cases elements : node.element? with
              | none =>
                  simp only [convert, elements]
                  rw [convertLeaf_array]
              | some element' =>
                  cases distinct with
                  | array distinct =>
                      have same := fun values =>
                        convertItems_reordered items label 0 values each distinct
                          fun item mem node' inside meets =>
                            unambiguous node' inside (.item elements mem meets)
                      simp only [convert, elements, Outcome.bind_eq_ok, same]
          | _ =>
              simp only [convert]
              rw [convertLeaf_array]
  | .null, _, _, _, _, _, h, _, _ => by
      cases h
      exact Iff.rfl
  | .bool _, _, _, _, _, _, h, _, _ => by
      cases h
      exact Iff.rfl
  | .number _, _, _, _, _, _, h, _, _ => by
      cases h
      exact Iff.rfl
  | .string _, _, _, _, _, _, h, _, _ => by
      cases h
      exact Iff.rfl

theorem convertItems_reordered : ∀ (items : List Json) {items' : List Json} {node : Node}
      {element : FieldType} (label : String) (index : Nat) (values : List Value),
      ItemsReordered items items' → (∀ item ∈ items, item.KeysDistinct) →
      (∀ item ∈ items, ∀ node' members, m.Meets node element item node' members →
        node'.Unambiguous (members.map (·.1))) →
      (m.convertItems node element label index items = .ok values ↔
        m.convertItems node element label index items' = .ok values)
  | [], _, _, _, _, _, _, each, _, _ => by
      cases each
      exact Iff.rfl
  | item :: items, _, node, element, label, index, values, each, distinct, unambiguous => by
      cases each with
      | cons first others =>
          obtain ⟨here, distinct⟩ := List.forall_mem_cons.1 distinct
          obtain ⟨hereToo, unambiguous⟩ := List.forall_mem_cons.1 unambiguous
          have same := fun value => convertItem_congr first value
            (convert_reordered item (itemLabel label index) value first here hereToo)
          have rest := fun values =>
            convertItems_reordered items label (index + 1) values others distinct unambiguous
          simp only [convertItems_cons_eq, Outcome.bind_eq_ok, Outcome.map_eq_ok, same, rest]

/-- Members that correspond to each other have the same effect, if they have one. -/
theorem effects_reordered : ∀ (members : List (String × Json)) {moved : List (String × Json)}
      {node : Node}, MembersReordered members moved → (∀ member ∈ members, member.2.KeysDistinct) →
      (∀ key value, (key, value) ∈ members → key ≠ unknownTaggedKey → ∀ field child,
        m.select node key = .ok (field, child) → ∀ node' inside,
        m.Meets child field.type value node' inside → node'.Unambiguous (inside.map (·.1))) →
      List.Forall₂ (fun a b => ∀ e, m.effect node a = .ok e ↔ m.effect node b = .ok e) members moved
  | [], _, _, each, _, _ => by
      cases each
      exact .nil
  | (key, value) :: members, _, node, each, distinct, unambiguous => by
      cases each with
      | cons first others =>
          obtain ⟨here, distinct⟩ := List.forall_mem_cons.1 distinct
          refine .cons (fun e => effect_congr first here ?_)
            (effects_reordered members others distinct ?_)
          · intro ordinary field child selected converted
            exact convert_reordered value field.name converted first here
              (unambiguous key value (List.mem_cons_self ..) ordinary field child selected)
          · intro key' value' mem
            exact unambiguous key' value' (List.mem_cons_of_mem _ mem)

end

theorem materializeRoot_reordered {fixture fixture' : Json} (distinct : fixture.KeysDistinct)
    (reordered : fixture.Reordered fixture')
    (unambiguous : ∀ node members, m.Meets m.root (.struct m.message.name) fixture node members →
      node.Unambiguous (members.map (·.1))) (i : Instance) :
    m.materializeRoot fixture = .ok i ↔ m.materializeRoot fixture' = .ok i := by
  cases reordered with
  | @object members moved members' each order =>
      -- An object is read as it would be at the position of a struct.
      have same := convert_reordered (m := m) (.object members) m.message.name (.struct i)
        (.object each order) distinct unambiguous
      have read : ∀ members, m.convert m.root (.struct m.message.name) m.message.name
          (.object members) = .ok (.struct i) ↔ m.materializeRoot (.object members) = .ok i := by
        intro members
        simp [convert, materializeRoot_object, Outcome.bind_eq_ok, start, root, Node.struct?]
      rw [← read, ← read]
      exact same
  | _ => exact ⟨nofun, nofun⟩

end Materializer

/-- **The order of keys does not matter.** Let two fixtures be equal up to the order of the members
of objects, at every depth, and let no object where a struct is read have two keys that stand for
one field. Then both give the same instance or neither gives one, for every message, every registry
and every version. A fixture that is read from a text has no key twice in an object
(`Json.keysDistinct_of_read?`). -/
theorem reordered_fixture_same_instance {m : Materializer} {fixture fixture' : Json}
    (distinct : fixture.KeysDistinct) (reordered : fixture.Reordered fixture')
    (unambiguous : ∀ node members, m.Meets m.root (.struct m.message.name) fixture node members →
      node.Unambiguous (members.map (·.1))) :
    ∀ i, m.materializeRoot fixture = .ok i ↔ m.materializeRoot fixture' = .ok i :=
  Materializer.materializeRoot_reordered distinct reordered unambiguous

namespace Sample

def journalFixtureText : String :=
  "\x7b\"Head\": \x7b\"Next\": \x7b\x7d, \"Tags\": [\"new\"]\x7d, \"Note\": null\x7d"

/-- The fixture of the sample, from its end. -/
def journalFixtureReordered : Json :=
  .object [("Note", .null),
    ("Head", .object [("Tags", .array [.string "new"]), ("Next", .object [])])]

theorem read?_journalFixtureText : Json.read? journalFixtureText = some journalFixture := by
  cbv

theorem reordered_journalFixture : journalFixture.Reordered journalFixtureReordered := by
  refine .object (.cons (.object (.cons (.object .nil .nil) (.cons ?_ .nil)) (.swap _ _ _))
    (.cons .null .nil)) (.swap _ _ _)
  exact .array (.cons (.string _) .nil)

theorem journal_unambiguous (node : Node) (members : List (String × Json))
    (meets : journalMaterializer.Meets journalMaterializer.root (.struct "Journal") journalFixture
      node members) : node.Unambiguous (members.map (·.1)) := by
  apply Node.unambiguous_of_declared
  cases meets with
  | here => simpa using ⟨rfl, rfl⟩
  | member mem _ selected inner =>
      simp only [List.mem_cons, List.not_mem_nil, or_false, Prod.mk.injEq] at mem
      rcases mem with ⟨rfl, rfl⟩ | ⟨rfl, rfl⟩
      · cases selected
        cases inner with
        | here => simpa using ⟨rfl, rfl⟩
        | member mem _ selected inner =>
            simp only [List.mem_cons, List.not_mem_nil, or_false, Prod.mk.injEq] at mem
            rcases mem with ⟨rfl, rfl⟩ | ⟨rfl, rfl⟩
            · cases selected
              cases inner with
              | here => nofun
              | member mem => cases mem
            · cases selected
              cases inner with
              | item _ mem inner =>
                  cases List.mem_singleton.1 mem
                  cases inner
      · cases selected
        cases inner

/-- The sample reordered gives the same instance, at both depths. -/
theorem journal_reordered :
    journalFixture.Reordered journalFixtureReordered ∧
      journalMaterializer.materializeRoot journalFixtureReordered = .ok journalInstance :=
  ⟨reordered_journalFixture,
    (reordered_fixture_same_instance (Json.keysDistinct_of_read? read?_journalFixtureText)
      reordered_journalFixture journal_unambiguous journalInstance).1 materializeRoot_journal⟩

end Sample

end WireSchema
