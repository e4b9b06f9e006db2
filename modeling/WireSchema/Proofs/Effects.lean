import WireSchema.Proofs.Conformance

/-!
# The effects of members

An object of a fixture is read member by member, and each member changes the instance. What a member
does is settled by its key and its value alone: the instance is only written to. So an object
amounts to the list of the **effects** of its members (`assign_eq_ok`), and it fails where one of
these cannot be had (`assign_eq_error`).

An effect writes to one field, which keeps its place. What a field holds in the end is therefore
what the last effect on it gave (`get?_foldl_of_last`).
-/

namespace WireSchema

/-! ### Writing to an instance -/

namespace Instance

theorem setIn_of_not_mem {name : String} {value : Value} {fields : List (String × Value)}
    (absent : name ∉ fields.map (·.1)) : setIn name value fields = fields := by
  induction fields with
  | nil => rfl
  | cons entry fields ih =>
      simp only [List.map_cons, List.mem_cons, not_or] at absent
      simp [setIn, Ne.symm absent.1, ih absent.2]

theorem set_eq (i : Instance) (name : String) (value : Value) :
    i.set name value = ⟨i.name, setIn name value i.fields, i.unknownTagged⟩ := by
  obtain ⟨struct, fields, tagged⟩ := i
  unfold set set?
  split
  · rfl
  · rename_i missing
    have absent : name ∉ fields.map (·.1) := by simpa [fieldNames] using missing
    rw [setIn_of_not_mem absent]
    rfl

@[simp]
theorem map_fst_setIn (name : String) (value : Value) (fields : List (String × Value)) :
    (setIn name value fields).map (·.1) = fields.map (·.1) := by
  induction fields with
  | nil => rfl
  | cons entry fields ih =>
      by_cases here : entry.1 = name <;> simp [setIn, here, ih]

@[simp]
theorem fieldNames_set (i : Instance) (name : String) (value : Value) :
    (i.set name value).fieldNames = i.fieldNames := by
  simp [set_eq, fieldNames]

theorem set?_eq_some {i : Instance} {name : String} (present : name ∈ i.fieldNames)
    (value : Value) : i.set? name value = some (i.set name value) := by
  have contained : i.fieldNames.contains name = true := by simpa using present
  rw [set_eq, set?, if_pos contained]

theorem lookup_setIn_self {name : String} {fields : List (String × Value)}
    (present : name ∈ fields.map (·.1)) (value : Value) :
    (setIn name value fields).lookup name = some value := by
  induction fields with
  | nil => simp at present
  | cons entry fields ih =>
      obtain ⟨first, old⟩ := entry
      by_cases here : first = name
      · simp [setIn, here]
      · have later : name ∈ fields.map (·.1) := by
          rw [List.map_cons, List.mem_cons] at present
          exact present.resolve_left (Ne.symm here)
        simp [setIn, here, List.lookup_cons, beq_false_of_ne (Ne.symm here), ih later]

theorem lookup_setIn_of_ne {name other : String} (differ : other ≠ name) (value : Value)
    (fields : List (String × Value)) :
    (setIn name value fields).lookup other = fields.lookup other := by
  induction fields with
  | nil => rfl
  | cons entry fields ih =>
      obtain ⟨first, old⟩ := entry
      by_cases here : first = name
      · simp [setIn, here, List.lookup_cons, beq_false_of_ne differ]
      · simp [setIn, here, List.lookup_cons, ih]

theorem get?_set_self {i : Instance} {name : String} (present : name ∈ i.fieldNames)
    (value : Value) : (i.set name value).get? name = some value := by
  rw [set_eq]
  exact lookup_setIn_self present value

theorem get?_set_of_ne {name other : String} (differ : other ≠ name) (i : Instance)
    (value : Value) : (i.set name value).get? other = i.get? other := by
  rw [set_eq]
  exact lookup_setIn_of_ne differ value i.fields

theorem setIn_comm {a b : String} (differ : a ≠ b) (x y : Value) (fields : List (String × Value)) :
    setIn a x (setIn b y fields) = setIn b y (setIn a x fields) := by
  induction fields with
  | nil => rfl
  | cons entry fields ih =>
      by_cases isA : entry.1 = a
      · simp [setIn, isA, differ]
      · by_cases isB : entry.1 = b
        · simp [setIn, isB, Ne.symm differ]
        · simp [setIn, isA, isB, ih]

theorem set_comm {a b : String} (differ : a ≠ b) (x y : Value) (i : Instance) :
    (i.set a x).set b y = (i.set b y).set a x := by
  simp [set_eq, setIn_comm differ]

end Instance

/-! ### Effects -/

/-- What a member of a fixture does to an instance. -/
inductive Effect where
  /-- A null that keeps the default does nothing. -/
  | keep
  /-- A field is given a value. -/
  | give (name : String) (value : Value)
  /-- Unknown tagged fields are added. -/
  | add (tagged : List TaggedField)

namespace Effect

/-- The instance after an effect. -/
def apply (i : Instance) : Effect → Instance
  | .keep => i
  | .give name value => i.set name value
  | .add tagged => i.addTagged tagged

/-- The effect of what is given to a field. -/
def ofValue? (name : String) : Option Value → Effect
  | none => .keep
  | some value => .give name value

theorem fieldNames_apply (i : Instance) (e : Effect) : (e.apply i).fieldNames = i.fieldNames := by
  cases e with
  | keep => rfl
  | give name value => exact i.fieldNames_set name value
  | add tagged => rfl

theorem fieldNames_foldl (i : Instance) (es : List Effect) :
    (es.foldl apply i).fieldNames = i.fieldNames := by
  induction es generalizing i with
  | nil => rfl
  | cons e es ih => rw [List.foldl_cons, ih, fieldNames_apply]

theorem get?_apply_of_ne {name : String} {e : Effect} (other : ∀ value, e ≠ .give name value)
    (i : Instance) : (e.apply i).get? name = i.get? name := by
  cases e with
  | keep => rfl
  | give given value =>
      have differ : name ≠ given := fun same => other value (by rw [same])
      exact Instance.get?_set_of_ne differ i value
  | add tagged => rfl

theorem get?_foldl_of_ne {name : String} {es : List Effect}
    (others : ∀ e ∈ es, ∀ value, e ≠ .give name value) (i : Instance) :
    (es.foldl apply i).get? name = i.get? name := by
  induction es generalizing i with
  | nil => rfl
  | cons e es ih =>
      obtain ⟨here, others⟩ := List.forall_mem_cons.1 others
      rw [List.foldl_cons, ih others, get?_apply_of_ne here]

/-- **The last effect on a field decides** what the field holds. -/
theorem get?_foldl_of_last {name : String} {value : Value} {before after : List Effect}
    {i : Instance} (present : name ∈ i.fieldNames)
    (last : ∀ e ∈ after, ∀ value', e ≠ .give name value') :
    ((before ++ .give name value :: after).foldl apply i).get? name = some value := by
  rw [List.foldl_append, List.foldl_cons, get?_foldl_of_ne last]
  refine Instance.get?_set_self ?_ value
  rwa [fieldNames_foldl]

/-- The unknown tagged fields that an effect adds. -/
def added : Effect → List TaggedField
  | .add tagged => tagged
  | _ => []

theorem unknownTagged_apply (i : Instance) (e : Effect) :
    (e.apply i).unknownTagged = i.unknownTagged ++ e.added := by
  cases e with
  | keep => simp [apply, added]
  | give name value => simp [apply, added, Instance.set_eq]
  | add tagged => rfl

theorem unknownTagged_foldl (i : Instance) (es : List Effect) :
    (es.foldl apply i).unknownTagged = i.unknownTagged ++ es.flatMap added := by
  induction es generalizing i with
  | nil => simp
  | cons e es ih => simp [ih, unknownTagged_apply]

/-- Two effects commute, unless both write to one field or both add tagged fields. -/
theorem apply_comm {d e : Effect}
    (fields : ∀ name value value', d = .give name value → e ≠ .give name value')
    (tagged : ∀ more more', d = .add more → e ≠ .add more') (i : Instance) :
    e.apply (d.apply i) = d.apply (e.apply i) := by
  cases d with
  | keep => rfl
  | give name value =>
      cases e with
      | keep => rfl
      | give name' value' =>
          have differ : name ≠ name' := fun same => fields name value value' rfl (by rw [same])
          exact Instance.set_comm differ value value' i
      | add more' => simp [apply, Instance.set_eq, Instance.addTagged]
  | add more =>
      cases e with
      | keep => rfl
      | give name' value' => simp [apply, Instance.set_eq, Instance.addTagged]
      | add more' => exact absurd rfl (tagged more more' rfl)

end Effect

/-! ### Members -/

namespace Materializer

open Fixture (Node)

variable {m : Materializer} {node : Node}

/-- What a JSON value gives to a field: nothing if it is a null that keeps the default. -/
def given (m : Materializer) (field : FieldSpec) (child : Node) (json : Json) :
    Except FixtureError (Option Value) :=
  if isNull json then m.nullField field
  else (m.convert child field.type field.name json).map some

/-- The effect of a member, by its key and its value. -/
def effect (m : Materializer) (node : Node) (member : String × Json) :
    Except FixtureError Effect :=
  if member.1 = unknownTaggedKey then (readTagged member.2).map .add
  else
    m.select node member.1 >>= fun selected =>
      (m.given selected.1 selected.2 member.2).map (.ofValue? selected.1.name)

theorem assign_cons_eq (i : Instance) (member : String × Json) (members : List (String × Json)) :
    m.assign node i (member :: members) =
      m.effect node member >>= fun e => m.assign node (e.apply i) members := by
  obtain ⟨key, json⟩ := member
  rw [assign, effect]
  by_cases reserved : key = unknownTaggedKey
  · rw [if_pos reserved, if_pos reserved]
    cases readTagged json <;> rfl
  · rw [if_neg reserved, if_neg reserved]
    cases m.select node key with
    | error e => rfl
    | ok selected =>
        obtain ⟨field, child⟩ := selected
        by_cases null : isNull json = true
        · cases taken : m.nullField field with
          | error e => simp [given, null, taken, bind, Except.bind, Except.map]
          | ok value? =>
              cases value? <;>
                simp [given, null, taken, bind, Except.bind, Except.map, Effect.ofValue?,
                  Effect.apply]
        · cases converted : m.convert child field.type field.name json <;>
            simp [given, null, converted, bind, Except.bind, Except.map, Effect.ofValue?,
              Effect.apply]

/-- An object is read if each member has an effect, and these are then applied in order. -/
theorem assign_eq_ok {i i' : Instance} {members : List (String × Json)} :
    m.assign node i members = .ok i' ↔
      ∃ es, List.Forall₂ (fun member e => m.effect node member = .ok e) members es ∧
        es.foldl Effect.apply i = i' := by
  induction members generalizing i with
  | nil =>
      rw [assign]
      constructor
      · intro run
        exact ⟨[], .nil, Except.ok.inj run⟩
      · intro ⟨es, each, applied⟩
        cases each
        rw [← applied]
        rfl
  | cons member members ih =>
      rw [assign_cons_eq, Outcome.bind_eq_ok]
      constructor
      · intro ⟨e, here, run⟩
        obtain ⟨es, each, applied⟩ := ih.1 run
        exact ⟨e :: es, .cons here each, applied⟩
      · intro ⟨es, each, applied⟩
        cases each with
        | cons here each => exact ⟨_, here, ih.2 ⟨_, each, applied⟩⟩

/-- An object that cannot be read has a member without an effect. -/
theorem assign_eq_error {i : Instance} {members : List (String × Json)} {e : FixtureError}
    (run : m.assign node i members = .error e) :
    ∃ member ∈ members, m.effect node member = .error e := by
  induction members generalizing i with
  | nil =>
      rw [assign] at run
      cases run
  | cons member members ih =>
      rw [assign_cons_eq] at run
      rcases Outcome.bind_eq_error.1 run with failed | ⟨effect, -, run⟩
      · exact ⟨member, List.mem_cons_self .., failed⟩
      · obtain ⟨later, mem, failed⟩ := ih run
        exact ⟨later, List.mem_cons_of_mem _ mem, failed⟩

/-- The items of an array are converted one by one. -/
theorem convertItems_cons_eq (element : FieldType) (label : String) (index : Nat) (item : Json)
    (items : List Json) :
    m.convertItems node element label index (item :: items) =
      m.convertItem node element (itemLabel label index) item >>= fun value =>
        (m.convertItems node element label (index + 1) items).map (value :: ·) := by
  rw [convertItems]
  unfold convertItem
  split
  · cases m.nullItem element (itemLabel label index) <;>
      cases m.convertItems node element label (index + 1) items <;> rfl
  · cases m.convert node element (itemLabel label index) item <;>
      cases m.convertItems node element label (index + 1) items <;> rfl

theorem effect_of_selected {key : String} {json : Json} {field : FieldSpec} {child : Node}
    (ordinary : key ≠ unknownTaggedKey) (selected : m.select node key = .ok (field, child)) :
    m.effect node (key, json) = (m.given field child json).map (.ofValue? field.name) := by
  rw [effect, if_neg ordinary, selected]
  rfl

theorem effect_tagged {json : Json} :
    m.effect node (unknownTaggedKey, json) = (readTagged json).map .add := by
  rw [effect, if_pos rfl]

/-- A member gives a value to the field that its key selects. -/
theorem effect_eq_give {key : String} {json : Json} {name : String} {value : Value}
    (h : m.effect node (key, json) = .ok (.give name value)) :
    key ≠ unknownTaggedKey ∧ ∃ field child, m.select node key = .ok (field, child) ∧
      field.name = name ∧ m.given field child json = .ok (some value) := by
  rw [effect] at h
  split at h
  · obtain ⟨_, -, ⟨⟩⟩ := Outcome.map_eq_ok.1 h
  · rename_i ordinary
    obtain ⟨⟨field, child⟩, selected, h⟩ := Outcome.bind_eq_ok.1 h
    obtain ⟨value?, taken, same⟩ := Outcome.map_eq_ok.1 h
    refine ⟨ordinary, field, child, selected, ?_⟩
    cases value? with
    | none => cases same
    | some value' =>
        cases same
        exact ⟨rfl, taken⟩

/-- Only the reserved entry adds tagged fields. -/
theorem effect_eq_add {key : String} {json : Json} {tagged : List TaggedField}
    (h : m.effect node (key, json) = .ok (.add tagged)) : key = unknownTaggedKey := by
  rw [effect] at h
  split at h
  · assumption
  · obtain ⟨⟨field, child⟩, -, h⟩ := Outcome.bind_eq_ok.1 h
    obtain ⟨value?, -, same⟩ := Outcome.map_eq_ok.1 h
    cases value? <;> cases same

/-- An ordinary member that has an effect selects a field, and has the effect of what it gives. -/
theorem select_of_effect {member : String × Json} {e : Effect}
    (ordinary : member.1 ≠ unknownTaggedKey) (run : m.effect node member = .ok e) :
    ∃ field child value?, m.select node member.1 = .ok (field, child) ∧
      m.given field child member.2 = .ok value? ∧ e = .ofValue? field.name value? := by
  rw [effect, if_neg ordinary] at run
  obtain ⟨⟨field, child⟩, selected, run⟩ := Outcome.bind_eq_ok.1 run
  obtain ⟨value?, given, rfl⟩ := Outcome.map_eq_ok.1 run
  exact ⟨field, child, value?, selected, given, rfl⟩

/-- Only the reserved entry adds unknown tagged fields: those that it lists. -/
theorem added_of_effect {member : String × Json} {e : Effect} (run : m.effect node member = .ok e) :
    (member.1 ≠ unknownTaggedKey → e.added = []) ∧
      (member.1 = unknownTaggedKey → readTagged member.2 = .ok e.added) := by
  constructor
  · intro ordinary
    obtain ⟨field, _, value?, -, -, rfl⟩ := select_of_effect ordinary run
    cases value? <;> rfl
  · intro reserved
    rw [effect, if_pos reserved] at run
    obtain ⟨tagged, read, rfl⟩ := Outcome.map_eq_ok.1 run
    exact read

/-- The unknown tagged fields of reserved entries are all kept, in the order of the entries. -/
theorem unknownTagged_of_assign {i i' : Instance} {members : List (String × Json)}
    (run : m.assign node i members = .ok i') :
    ∃ lists, List.Forall₂ (fun member tagged => readTagged member.2 = .ok tagged)
        (members.filter (·.1 = unknownTaggedKey)) lists ∧
      i'.unknownTagged = i.unknownTagged ++ lists.flatten := by
  induction members generalizing i with
  | nil =>
      rw [assign] at run
      cases run
      exact ⟨[], .nil, by simp⟩
  | cons member members ih =>
      rw [assign_cons_eq] at run
      obtain ⟨e, effect, run⟩ := Outcome.bind_eq_ok.1 run
      obtain ⟨lists, each, kept⟩ := ih run
      obtain ⟨ordinary, reserved⟩ := added_of_effect effect
      rw [Effect.unknownTagged_apply] at kept
      by_cases here : member.1 = unknownTaggedKey
      · refine ⟨e.added :: lists, ?_, by simp [kept]⟩
        rw [List.filter_cons_of_pos (by simpa using here)]
        exact .cons (reserved here) each
      · refine ⟨lists, ?_, by simp [kept, ordinary here]⟩
        rwa [List.filter_cons_of_neg (by simpa using here)]

end Materializer

end WireSchema
