import WireSchema.Proofs.DeclaredFields
import WireSchema.Proofs.LastWrite

/-!
# Keys that reach their field

A key goes through four tables before it is compared with the declared names, so it is not plain
that a field can be reached by its own name, or by the name it has in generated code. This module
says when a key **addresses** a field (`Addresses`): a member with the key does to an instance what
its value gives to the field, and nothing else. Which field that is, is settled by the spelling
alone (`addresses_of_fieldOf`).

* A declared name addresses its own field exactly if it is not replaced as a synonym. A name that is
  replaced never comes back in a later stage (`not_mem_candidates_of_synonym`).
* The snake case form of a name in Pascal case addresses the field of that name, if no field is
  declared in the snake case form and the form is no synonym.
-/

namespace WireSchema

namespace Fixture

/-! ### Spellings -/

/-- The spellings that a key may be settled on, in the order in which they are tried. -/
def candidates (key : String) : List String :=
  let substituted := (synonym? key).getD key
  let cased := Text.pascalCase substituted
  substituted :: cased :: (casingException? cased).toList

theorem mem_candidates_of_normalize {known : List String} {key canonical : String}
    (settled : normalize known key = .ok canonical) : canonical ∈ candidates key := by
  unfold normalize at settled
  dsimp only at settled
  unfold candidates
  split at settled
  · cases settled
    simp
  · split at settled
    · cases settled
      simp
    · split at settled
      · cases settled
      · next overridden exception =>
          split at settled
          · cases settled
            simp [exception]
          · cases settled

/-- No replaced key comes back: not as its replacement, and not by a change of its case. -/
theorem not_mem_candidates_of_synonym : ∀ entry ∈ synonyms, entry.1 ∉ candidates entry.1 := by
  decide

theorem mem_of_lookup {table : List (String × String)} {key other : String}
    (found : table.lookup key = some other) : (key, other) ∈ table := by
  obtain ⟨before, after, split, -⟩ := List.lookup_eq_some_iff.1 found
  rw [split]
  exact List.mem_append_right _ (List.mem_cons_self ..)

theorem synonym?_of_normalize_self {known : List String} {key : String}
    (settled : normalize known key = .ok key) : synonym? key = none := by
  cases replaced : synonym? key with
  | none => rfl
  | some other =>
      have absent := not_mem_candidates_of_synonym _ (mem_of_lookup replaced)
      exact absurd (mem_candidates_of_normalize settled) absent

/-- A declared name is settled on itself, unless it is replaced. -/
theorem normalize_self_iff {known : List String} {name : String} (mem : name ∈ known) :
    normalize known name = .ok name ↔ synonym? name = none := by
  constructor
  · exact synonym?_of_normalize_self
  · intro plain
    have listed : isKnown known name = true := by simp [isKnown, mem]
    simp [normalize, plain, listed]

/-! ### Snake case -/

theorem capital_of_alias : ∀ entry ∈ aliases, entry.1.toList.head?.any Char.isUpper = true := by
  decide

theorem alias?_of_small {name : String} (small : name.toList.head?.any Char.isUpper = false) :
    alias? name = none := by
  cases spelled : alias? name with
  | none => rfl
  | some declared =>
      have capital := capital_of_alias _ (mem_of_lookup spelled)
      rw [small] at capital
      cases capital

end Fixture

theorem Text.head?_snakeCase {name : String} (pascal : IsPascal name) :
    (snakeCase name).toList.head?.any Char.isUpper = false := by
  obtain ⟨first, others, rfl⟩ := pascal
  rw [snakeCase, String.toList_ofList, String.toList_ofList, snakeAfter_name]
  simp [Word.small, (capital_toLower first.isUpper).2.2]

namespace Fixture

/-- The stages before the change of case all miss the snake case form of a declared name. -/
theorem normalize_snakeCase {known : List String} {name : String} (pascal : Text.IsPascal name)
    (mem : name ∈ known) (undeclared : Text.snakeCase name ∉ known)
    (plain : synonym? (Text.snakeCase name) = none) :
    normalize known (Text.snakeCase name) = .ok name := by
  have notAlias := alias?_of_small (Text.head?_snakeCase pascal)
  have missed : isKnown known (Text.snakeCase name) = false := by
    simp [isKnown, undeclared, notAlias]
  have found : isKnown known name = true := by simp [isKnown, mem]
  simp [normalize, plain, missed, Text.pascalCase_snakeCase pascal, found]

/-! ### Fields at a position -/

section

variable {node : Node} {spec : StructSpec} {f : FieldSpec}

theorem Node.fieldOf_of_normalize {key : String} (here : node.struct? = some spec)
    (settled : normalize spec.fieldNames key = .ok f.name)
    (declared : spec.field? f.name = some f) : node.fieldOf key = .ok f := by
  have looked : node.lookup f.name = .ok f := by
    simp [Node.lookup, Node.declared?, here, declared]
  refine Outcome.bind_eq_ok.2 ⟨f.name, ?_, looked⟩
  rw [Node.knownNames, here]
  exact settled

theorem Node.name_of_lookup {name : String} (looked : node.lookup name = .ok f) :
    f.name = name ∨ alias? name = some f.name := by
  have declared : ∀ name, node.declared? name = some f → f.name = name := by
    intro name found
    obtain ⟨spec, -, found⟩ := Option.bind_eq_some_iff.1 found
    simpa using List.find?_some found
  unfold Node.lookup at looked
  split at looked
  · next found =>
      cases looked
      rcases Option.or_eq_some_iff.1 found with found | ⟨-, found⟩
      · exact .inl (declared name found)
      · obtain ⟨spelling, spelled, found⟩ := Option.bind_eq_some_iff.1 found
        exact .inr (declared spelling found ▸ spelled)
  · cases looked

theorem plain_of_alias : ∀ entry ∈ aliases, synonym? entry.2 = none := by
  decide

/-- A field that is found by its own name has a name that is not replaced: it was found directly, or
as an alias, and no alias is for a name that is replaced. -/
theorem Node.synonym?_of_fieldOf (stands : node.fieldOf f.name = .ok f) :
    synonym? f.name = none := by
  obtain ⟨canonical, settled, looked⟩ := Outcome.bind_eq_ok.1 stands
  rcases node.name_of_lookup looked with direct | spelled
  · rw [← direct] at settled
    exact synonym?_of_normalize_self settled
  · exact plain_of_alias _ (mem_of_lookup spelled)

end

end Fixture

namespace Materializer

open Fixture (Node)

variable {m : Materializer} {node : Node}

/-! ### Addressing -/

/-- A key addresses a field at a position. -/
structure Addresses (m : Materializer) (node : Node) (key : String) (f : FieldSpec) : Prop where
  /-- The key stands for the field. -/
  field : node.fieldOf key = .ok f
  /-- Where the field exists, a member with the key does what its value gives to the field. -/
  reads : ∀ child, f.existsAt m.version = true → Node.ofField m.registry f = .ok child →
    ∀ i json, m.assign node i [(key, json)] =
      (m.given f child json).map fun value? => value?.elim i (i.set f.name)
  /-- It changes no other field, and no unknown tagged field. -/
  others : ∀ i json i', m.assign node i [(key, json)] = .ok i' →
    i'.unknownTagged = i.unknownTagged ∧ ∀ other, other ≠ f.name → i'.get? other = i.get? other

theorem select_of_fieldOf {key : String} {f : FieldSpec} {child : Node}
    (stands : node.fieldOf key = .ok f) (present : f.existsAt m.version = true)
    (position : Node.ofField m.registry f = .ok child) : m.select node key = .ok (f, child) := by
  obtain ⟨canonical, settled, looked⟩ := Outcome.bind_eq_ok.1 stands
  rw [select_eq]
  refine Outcome.bind_eq_ok.2 ⟨canonical, settled, ?_⟩
  refine Outcome.bind_eq_ok.2 ⟨f, looked, ?_⟩
  exact Outcome.bind_eq_ok.2 ⟨child, position, if_pos present⟩

theorem assign_singleton (i : Instance) (member : String × Json) :
    m.assign node i [member] = (m.effect node member).map (·.apply i) := by
  rw [assign_cons_eq]
  cases m.effect node member with
  | error e => rfl
  | ok e =>
      show m.assign node (e.apply i) [] = .ok (e.apply i)
      rw [assign]

/-- Which field a key addresses is settled by its spelling. -/
theorem addresses_of_fieldOf {key : String} {f : FieldSpec} (ordinary : key ≠ unknownTaggedKey)
    (stands : node.fieldOf key = .ok f) : m.Addresses node key f where
  field := stands
  reads := by
    intro child present position i json
    have selected := select_of_fieldOf stands present position
    rw [assign_singleton, effect_of_selected ordinary selected]
    cases m.given f child json with
    | error e => rfl
    | ok value? => cases value? <;> rfl
  others := by
    intro i json i' run
    rw [assign_singleton] at run
    obtain ⟨e, effect, rfl⟩ := Outcome.map_eq_ok.1 run
    obtain ⟨field, child, value?, selected, -, rfl⟩ := select_of_effect ordinary effect
    cases (fieldOf_of_select selected).symm.trans stands
    cases value? with
    | none => exact ⟨rfl, fun _ _ => rfl⟩
    | some value =>
        refine ⟨?_, fun other differ => Instance.get?_set_of_ne differ i value⟩
        show (i.set f.name value).unknownTagged = i.unknownTagged
        rw [Instance.set_eq]

end Materializer

open Fixture (Node)

/-- **A declared name addresses its own field, unless it is a synonym.** Whatever names are
declared, one of them is settled on itself exactly if it is not replaced by the table of synonyms.
At every position with a struct, the name of a field addresses the field in the same case: a member
with that key sets the field, and no other. The reserved key apart, this holds of all names. -/
theorem declared_name_addresses_its_field :
    (∀ known name, name ∈ known →
      (Fixture.normalize known name = .ok name ↔ Fixture.synonym? name = none)) ∧
    ∀ (m : Materializer) (node : Node) spec f, node.struct? = some spec →
      spec.field? f.name = some f → f.name ≠ unknownTaggedKey →
      (m.Addresses node f.name f ↔ Fixture.synonym? f.name = none) := by
  refine ⟨fun _ _ => Fixture.normalize_self_iff, ?_⟩
  intro m node spec f here declared ordinary
  constructor
  · intro addresses
    exact node.synonym?_of_fieldOf addresses.field
  · intro plain
    have known : f.name ∈ spec.fieldNames :=
      List.mem_map_of_mem (List.mem_of_find?_eq_some declared)
    have settled := (Fixture.normalize_self_iff known).2 plain
    exact Materializer.addresses_of_fieldOf ordinary
      (node.fieldOf_of_normalize here settled declared)

namespace Sample

def noteField : FieldSpec :=
  ⟨"Note", .string, ⟨0, 1⟩, none, none, .none, none, none, none⟩

theorem journal_note_addressed :
    Fixture.normalize journal.struct.fieldNames "Note" = .ok "Note" ∧
      journalMaterializer.Addresses journalMaterializer.root "Note" noteField := by
  obtain ⟨settled, addressed⟩ := declared_name_addresses_its_field
  constructor
  · exact (settled journal.struct.fieldNames "Note" (by decide)).2 rfl
  · exact (addressed journalMaterializer journalMaterializer.root journal.struct noteField rfl rfl
      (by decide)).2 rfl

/-- **A declared name may miss its field.** Next to the name it is replaced by, the name stands for
that one; alone it stands for nothing. -/
theorem replaced_name_misses_its_field :
    "timeout" ≠ unknownTaggedKey ∧ "timeout" ∈ ["timeout", "timeout_ms"] ∧
      Fixture.normalize ["timeout", "timeout_ms"] "timeout" = .ok "timeout_ms" ∧
      "timeout" ∈ ["timeout"] ∧ Fixture.normalize ["timeout"] "timeout" =
        .error (.unknownKey "timeout" ["timeout_ms", "TimeoutMs"]) :=
  ⟨by decide, by decide, rfl, by decide, rfl⟩

end Sample

/-- **The name in generated code is a key.** Let a name in Pascal case be declared, and its snake
case form neither be declared nor be a synonym. Then the Pascal case of that form is the name again,
the form as a key is settled on the name, and at every position whose struct declares these names it
addresses the field. -/
theorem snake_case_addresses_pascal_field {known : List String} {name : String}
    (pascal : Text.IsPascal name) (mem : name ∈ known) (undeclared : Text.snakeCase name ∉ known)
    (plain : Fixture.synonym? (Text.snakeCase name) = none) :
    Text.pascalCase (Text.snakeCase name) = name ∧
    Fixture.normalize known (Text.snakeCase name) = .ok name ∧
    ∀ (m : Materializer) (node : Node) spec f, node.struct? = some spec → spec.fieldNames = known →
      spec.field? name = some f → m.Addresses node (Text.snakeCase name) f := by
  have settled := Fixture.normalize_snakeCase pascal mem undeclared plain
  refine ⟨Text.pascalCase_snakeCase pascal, settled, ?_⟩
  intro m node spec f here names declared
  subst names
  have named : f.name = name := by simpa using List.find?_some declared
  subst named
  exact Materializer.addresses_of_fieldOf (Backend.Rust.snakeCase_ne_unknownTaggedKey pascal)
    (node.fieldOf_of_normalize here settled declared)

namespace Sample

theorem isPascal_rideCount : Text.IsPascal "RideCount" :=
  ⟨⟨'R', ['i', 'd', 'e'], by decide, by decide, Text.isInner_of_all rfl⟩,
    [⟨'C', ['o', 'u', 'n', 't'], by decide, by decide, Text.isInner_of_all rfl⟩], rfl⟩

theorem ticket_ride_count_addressed :
    Text.snakeCase "RideCount" = "ride_count" ∧
      Fixture.normalize ["Seat", "RideCount", "Type", "Level"] "ride_count" = .ok "RideCount" ∧
      ticket.struct.field? "RideCount" = some rideCount ∧
      Materializer.Addresses ⟨ticket, .empty, 1⟩ (.root ticket.struct) "ride_count" rideCount := by
  have known : "RideCount" ∈ ticket.struct.fieldNames := by decide
  obtain ⟨-, settled, addressed⟩ :=
    snake_case_addresses_pascal_field isPascal_rideCount known (by decide) rfl
  exact ⟨rfl, settled, rfl, addressed _ _ ticket.struct _ rfl rfl rfl⟩

end Sample

end WireSchema
