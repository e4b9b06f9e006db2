import Mathlib.Data.List.Nodup
import Mathlib.Data.List.Perm.Subperm
import WireSchema.Proofs.Grounded

/-!
# How deep defaults nest

A struct field defaults to the default instance of its struct. Structs refer to each other by name
and may do so in circles, so a construction is not bounded by the size of any document. It keeps a
**stack** of the names under construction: a name is pushed when its struct is entered and popped
when the fields of the struct are done, and a struct whose name is on the stack is not entered.

`Fills` gives the rules of such a construction, with one stack that changes on the way and nothing
that bounds its length. It comes to an end from every stack, and a successful one leaves the stack
as it found it (`fills_iff`), so the fields after a struct are built like those before it.

Hence the names along a nesting path of a default are all different, and each after the first is
the name of a definition, which bounds the depth. A struct field is null exactly where its struct is
one of those around it (`Settled`).
-/

namespace WireSchema

/-- An instance stands in a value, inside the instances with these names. The outermost name is the
first, and the last one is its own. -/
inductive Instance.AlongIn (j : Instance) : List String → Value → Prop where
  | here : AlongIn j [j.name] (.struct j)
  | field {i : Instance} {entry : String × Value} {names : List String} (mem : entry ∈ i.fields)
      (inner : AlongIn j names entry.2) : AlongIn j (i.name :: names) (.struct i)
  | item {items : List Value} {item : Value} {names : List String} (mem : item ∈ items)
      (inner : AlongIn j names item) : AlongIn j names (.array items)

theorem Instance.AlongIn.inValue {j : Instance} {names : List String} {value : Value}
    (along : j.AlongIn names value) : j.InValue value := by
  induction along with
  | here => exact .here
  | field mem _ ih => exact .field mem ih
  | item mem _ ih => exact .item mem ih

namespace Materializer

variable {m : Materializer}

/-! ### Constructions with a stack -/

/-- The defaults of some fields, with the names on a stack under construction. What comes of it are
the values and the stack that is left, or a failure and the stack as it stood there. -/
inductive Fills (m : Materializer) : (stack : List String) → List FieldSpec →
    Except Unfinished (List (String × Value) × List String) → Prop
  | nil {stack : List String} : Fills m stack [] (.ok ([], stack))
  /-- A field that has no default ends the construction. -/
  | fault {stack : List String} {field : FieldSpec} {rest : List FieldSpec} {e : FixtureError}
      (step : m.defaultStep stack field = .error e) :
      Fills m stack (field :: rest) (.error ⟨e, stack⟩)
  | value {stack : List String} {field : FieldSpec} {rest : List FieldSpec} {value : Value}
      {out : Except Unfinished (List (String × Value) × List String)}
      (step : m.defaultStep stack field = .ok (.value value)) (others : Fills m stack rest out) :
      Fills m stack (field :: rest) (out.map (.map ((field.name, value) :: ·) id))
  /-- The name of a struct is pushed before its fields are built, and popped after that. -/
  | struct {stack inside : List String} {field : FieldSpec} {rest : List FieldSpec}
      {spec : StructSpec} {values : List (String × Value)}
      {out : Except Unfinished (List (String × Value) × List String)}
      (step : m.defaultStep stack field = .ok (.inside spec))
      (inner : Fills m (stack ++ [spec.name]) (spec.fieldsAt m.version) (.ok (values, inside)))
      (others : Fills m inside.dropLast rest out) :
      Fills m stack (field :: rest)
        (out.map (.map ((field.name, .struct ⟨spec.name, values, []⟩) :: ·) id))
  /-- A failure inside a struct pops nothing. -/
  | interrupted {stack : List String} {field : FieldSpec} {rest : List FieldSpec}
      {spec : StructSpec} {u : Unfinished} (step : m.defaultStep stack field = .ok (.inside spec))
      (inner : Fills m (stack ++ [spec.name]) (spec.fieldsAt m.version) (.error u)) :
      Fills m stack (field :: rest) (.error u)

/-- The default instance of a struct, with the names on a stack under construction. -/
inductive Builds (m : Materializer) (stack : List String) (spec : StructSpec) :
    Except Unfinished (Instance × List String) → Prop
  | done {inside : List String} {values : List (String × Value)}
      (fields : m.Fills (stack ++ [spec.name]) (spec.fieldsAt m.version) (.ok (values, inside))) :
      Builds m stack spec (.ok (⟨spec.name, values, []⟩, inside.dropLast))
  | failed {u : Unfinished}
      (fields : m.Fills (stack ++ [spec.name]) (spec.fieldsAt m.version) (.error u)) :
      Builds m stack spec (.error u)

/-- Every construction comes to an end, and if it succeeds the stack is as before. -/
theorem fills_defaultFields (stack : List String) (fields : List FieldSpec) :
    m.Fills stack fields ((m.defaultFields stack fields).map (·, stack)) := by
  fun_induction Materializer.defaultFields m stack fields with
  | case1 => exact .nil
  | case2 stack field rest e step => exact .fault step
  | case3 stack field rest value step ih =>
      have filled := Fills.value step ih
      cases run : m.defaultFields stack rest <;> rw [run] at filled <;> exact filled
  | case4 stack field rest spec step _ _ ihInner ihRest =>
      cases inner : m.defaultFields (stack ++ [spec.name]) (spec.fieldsAt m.version) with
      | error u =>
          rw [inner] at ihInner
          exact .interrupted step ihInner
      | ok values =>
          rw [inner] at ihInner
          -- The fields after the struct find the stack as it was before it.
          have popped : (stack ++ [spec.name]).dropLast = stack := List.dropLast_concat
          rw [← popped] at ihRest
          have filled := Fills.struct step ihInner ihRest
          rw [popped] at filled
          cases run : m.defaultFields stack rest <;> rw [run] at filled <;> exact filled

/-- There is no other end. -/
theorem Fills.eq_defaultFields {stack : List String} {fields : List FieldSpec}
    {out : Except Unfinished (List (String × Value) × List String)}
    (h : m.Fills stack fields out) : out = (m.defaultFields stack fields).map (·, stack) := by
  induction h with
  | nil =>
      rw [defaultFields]
      rfl
  | fault step =>
      rw [defaultFields_of_error step]
      rfl
  | @value stack _ rest _ _ step _ ih =>
      rw [ih, defaultFields_of_value step]
      cases m.defaultFields stack rest <;> rfl
  | @struct stack inside _ rest spec values _ step _ _ ihInner ihRest =>
      obtain ⟨_, inner, same⟩ := Outcome.map_eq_ok.1 ihInner.symm
      obtain ⟨rfl, rfl⟩ := Prod.mk.inj same
      rw [ihRest, List.dropLast_concat, defaultFields_of_inside step, inner]
      cases m.defaultFields stack rest <;> rfl
  | interrupted step _ ihInner =>
      have inner := Outcome.map_eq_error.1 ihInner.symm
      rw [defaultFields_of_inside step, inner]
      rfl

theorem fills_iff {stack : List String} {fields : List FieldSpec}
    {out : Except Unfinished (List (String × Value) × List String)} :
    m.Fills stack fields out ↔ out = (m.defaultFields stack fields).map (·, stack) := by
  constructor
  · exact Fills.eq_defaultFields
  · intro same
    rw [same]
    exact m.fills_defaultFields stack fields

/-- From every stack, the construction of a struct has exactly one end. -/
theorem builds_iff {stack : List String} {spec : StructSpec}
    {out : Except Unfinished (Instance × List String)} :
    m.Builds stack spec out ↔ out = (m.defaultInstanceIn stack spec).map (·, stack) := by
  rw [defaultInstanceIn]
  constructor
  · intro built
    cases built with
    | done fields =>
        obtain ⟨_, run, same⟩ := Outcome.map_eq_ok.1 (fills_iff.1 fields).symm
        obtain ⟨rfl, rfl⟩ := Prod.mk.inj same
        rw [run, List.dropLast_concat]
        rfl
    | failed fields =>
        rw [Outcome.map_eq_error.1 (fills_iff.1 fields).symm]
        rfl
  · intro same
    have filled := m.fills_defaultFields (stack ++ [spec.name]) (spec.fieldsAt m.version)
    cases run : m.defaultFields (stack ++ [spec.name]) (spec.fieldsAt m.version) with
    | error u =>
        rw [run] at filled same
        rw [same]
        exact .failed filled
    | ok values =>
        rw [run] at filled same
        have built := Builds.done filled
        rw [List.dropLast_concat] at built
        rw [same]
        exact built

/-! ### What a default holds -/

/-- A struct field is settled as to the structs on a path around it: it is null if its struct is
one of them, and otherwise holds the default instance of its struct, built inside the same path.
A field with the default `null` that may be null is exempt. -/
def Settled (m : Materializer) (path : List String) (field : FieldSpec) (value : Value) : Prop :=
  ∀ target, field.type = .struct target →
    ¬ (field.defaultText = some "null" ∧ field.isNullableAt m.version = true) →
    (value = .null ↔ target ∈ path) ∧
      (target ∉ path → ∃ spec i, m.registry.find? target = some spec ∧
        m.defaultInstanceIn path spec = .ok i ∧ value = .struct i)

/-- No text is a default for a struct but `null`. -/
theorem declaredDefault_struct {field : FieldSpec} {target : String} {value : Value}
    (type : field.type = .struct target) (given : m.declaredDefault field = .ok (some value)) :
    field.defaultText = some "null" ∧ field.isNullableAt m.version = true := by
  unfold declaredDefault at given
  split at given
  · cases given
  · rename_i text declared
    split at given
    · rename_i isNull
      exact ⟨isNull.1 ▸ declared, isNull.2⟩
    · simp [type, Default.ofText] at given

theorem HoldsDefault.settled {path : List String} {field : FieldSpec} {value : Value}
    (holds : m.HoldsDefault path field value) : m.Settled path field value := by
  intro target type notNull
  cases holds with
  | value step =>
      cases obtained_of_defaultStep step with
      | declared given => exact absurd (declaredDefault_struct type given) notNull
      | zero _ zero =>
          rw [type] at zero
          cases zero
      | cut _ type' around =>
          cases type.symm.trans type'
          exact ⟨iff_of_true rfl around, fun fresh => absurd around fresh⟩
  | struct step built =>
      cases obtained_of_defaultStep step with
      | inside _ type' fresh found =>
          cases type.symm.trans type'
          exact ⟨iff_of_false (by simp) fresh, fun _ => ⟨_, _, found, built, rfl⟩⟩

/-! ### Nesting paths -/

theorem settled_of_defaultInstanceIn {path : List String} {spec : StructSpec} {i : Instance}
    (built : m.defaultInstanceIn path spec = .ok i) :
    List.Forall₂ (fun field entry => entry.1 = field.name ∧
        m.Settled (path ++ [spec.name]) field entry.2) (spec.fieldsAt m.version) i.fields := by
  obtain ⟨fields, run, rfl⟩ := defaultInstanceIn_eq_ok.1 built
  exact (holdsDefault_of_defaultFields run).imp fun _ _ holds => ⟨holds.1, holds.2.settled⟩

/-- An instance in a field of a default is in the default instance of a definition whose name is
not on the path. -/
theorem entered_of_inValue {path : List String} {spec : StructSpec} {i j : Instance}
    {entry : String × Value} (built : m.defaultInstanceIn path spec = .ok i)
    (mem : entry ∈ i.fields) (inside : j.InValue entry.2) :
    ∃ d k, m.registry.find? d.name = some d ∧ d.name ∉ path ++ [spec.name] ∧
      m.defaultInstanceIn (path ++ [spec.name]) d = .ok k ∧ entry.2 = .struct k := by
  obtain ⟨fields, run, rfl⟩ := defaultInstanceIn_eq_ok.1 built
  obtain ⟨name, value⟩ := entry
  obtain ⟨field, -, -, holds⟩ := Outcome.exists_of_mem_right (holdsDefault_of_defaultFields run) mem
  cases holds with
  | value step => exact absurd inside ((obtained_of_defaultStep step).not_inValue j)
  | struct step built =>
      cases obtained_of_defaultStep step with
      | inside _ _ fresh found =>
          cases Registry.name_of_find? found
          exact ⟨_, _, found, fresh, built, rfl⟩

theorem name_of_defaultInstanceIn {path : List String} {spec : StructSpec} {i : Instance}
    (built : m.defaultInstanceIn path spec = .ok i) : i.name = spec.name := by
  obtain ⟨fields, -, rfl⟩ := defaultInstanceIn_eq_ok.1 built
  rfl

/-- How an instance `j` stands in the default `i` of a struct that is built inside a path. -/
structure Placed (m : Materializer) (path : List String) (spec : StructSpec) (i : Instance)
    (names : List String) (j : Instance) : Prop where
  /-- The names around it and its own are different. -/
  nodup : (path ++ names).Nodup
  /-- Apart from the struct itself they are names of definitions. -/
  defined : names ⊆ spec.name :: m.registry.definitions.map (·.name)
  /-- It is the default instance of a struct inside the names around it. -/
  built : ∃ around s, names = around ++ [s.name] ∧
    m.defaultInstanceIn (path ++ around) s = .ok j ∧
      (s = spec ∧ j = i ∨ m.registry.find? j.name = some s)

theorem placed_of_alongIn {names : List String} {j : Instance} {value : Value}
    (along : j.AlongIn names value) :
    ∀ {path : List String} {spec : StructSpec} {i : Instance}, value = .struct i →
      m.defaultInstanceIn path spec = .ok i → (path ++ [spec.name]).Nodup →
      m.Placed path spec i names j := by
  induction along with
  | here =>
      intro path spec i same built distinct
      cases same
      rw [name_of_defaultInstanceIn built]
      refine ⟨distinct, ?_, [], spec, rfl, ?_, .inl ⟨rfl, rfl⟩⟩
      · exact List.cons_subset_cons _ (List.nil_subset _)
      · rwa [List.append_nil]
  | @field i _ names mem inner ih =>
      intro path spec i same built distinct
      cases same
      obtain ⟨d, k, found, fresh, entered, shown⟩ := entered_of_inValue built mem inner.inValue
      -- One step inward, the struct itself is on the path, and the one entered is not.
      have distinct' : (path ++ [spec.name] ++ [d.name]).Nodup := by
        rw [← List.concat_eq_append]
        exact List.Nodup.concat fresh distinct
      obtain ⟨nodup, defined, around, s, split, within, origin⟩ := ih shown entered distinct'
      have registered : d.name ∈ m.registry.definitions.map (·.name) :=
        List.mem_map_of_mem (Registry.mem_of_find? found)
      rw [name_of_defaultInstanceIn built]
      refine ⟨?_, ?_, spec.name :: around, s, ?_, ?_, .inr ?_⟩
      · simpa using nodup
      · refine List.cons_subset_cons _ fun name listed => ?_
        rcases List.mem_cons.1 (defined listed) with rfl | other
        · exact registered
        · exact other
      · rw [split]
        rfl
      · simpa using within
      · rcases origin with ⟨rfl, rfl⟩ | found'
        · rwa [name_of_defaultInstanceIn entered]
        · exact found'
  | item =>
      intro path spec i same
      cases same

end Materializer

/-- **Defaults end, and cut cycles exactly.** Take any registry, any version and any struct.
Building the default instance of the struct with an empty stack comes to an end, in one way only; if
that is a success, it gives the instance that `defaultInstance` does, and the stack is empty again.

In such an instance the names along every nesting path are different, so that a path has at most one
name more than there are definitions. At the end of the path stands an instance of the struct itself
or of the definition under its name, and its struct fields are settled as to the names on the path:
null exactly if the struct is one of those around the field, and otherwise the default instance of
the definition, built there. -/
theorem default_construction_ends_and_cuts_cycles (m : Materializer) (spec : StructSpec) :
    (∃! out, m.Builds [] spec out) ∧
    (∀ i stack, m.Builds [] spec (.ok (i, stack)) ↔ m.defaultInstance spec = .ok i ∧ stack = []) ∧
    ∀ i, m.defaultInstance spec = .ok i → ∀ path j, j.AlongIn path (.struct i) →
      path.Nodup ∧ path.length ≤ m.registry.definitions.length + 1 ∧
      ∃ s, (s = spec ∧ j = i ∨ m.registry.find? j.name = some s) ∧
        List.Forall₂ (fun field entry => entry.1 = field.name ∧ m.Settled path field entry.2)
          (s.fieldsAt m.version) j.fields := by
  refine ⟨⟨_, Materializer.builds_iff.2 rfl, fun _ => Materializer.builds_iff.1⟩, ?_, ?_⟩
  · intro i stack
    rw [Materializer.builds_iff, Materializer.defaultInstance_eq_ok_iff, eq_comm,
      Outcome.map_eq_ok]
    constructor
    · rintro ⟨_, run, same⟩
      obtain ⟨rfl, rfl⟩ := Prod.mk.inj same
      exact ⟨run, rfl⟩
    · rintro ⟨run, empty⟩
      exact ⟨i, run, by rw [empty]⟩
  · intro i run path j along
    have built := Materializer.defaultInstance_eq_ok_iff.1 run
    obtain ⟨nodup, defined, around, s, split, within, origin⟩ :=
      Materializer.placed_of_alongIn along rfl built (List.nodup_singleton _)
    refine ⟨nodup, ?_, s, origin, ?_⟩
    · have bound := (List.subperm_of_subset nodup defined).length_le
      simpa using bound
    · rw [split]
      exact Materializer.settled_of_defaultInstanceIn within

namespace Sample

/-- The default of the journal, in which the recursion of its entries is cut at once. -/
def journalDefault : Instance :=
  ⟨"Journal", [("Head", .struct (entryInstance .null [])), ("Note", .string "")], []⟩

/-- The path to the entry has one name more than there are definitions. -/
theorem journal_default_cut :
    journalMaterializer.defaultInstance journal.struct = .ok journalDefault ∧
      (entryInstance .null []).AlongIn ["Journal", "Entry"] (.struct journalDefault) ∧
      ["Journal", "Entry"].length ≤ journalRegistry.definitions.length + 1 ∧
      List.Forall₂ (fun field entry => entry.1 = field.name ∧
          journalMaterializer.Settled ["Journal", "Entry"] field entry.2)
        (entry.fieldsAt 1) (entryInstance .null []).fields := by
  have head : ("Head", .struct (entryInstance .null [])) ∈ journalDefault.fields :=
    List.mem_cons_self ..
  have along : (entryInstance .null []).AlongIn ["Journal", "Entry"] (.struct journalDefault) :=
    Instance.AlongIn.field (i := journalDefault) head .here
  obtain ⟨-, -, nested⟩ :=
    default_construction_ends_and_cuts_cycles journalMaterializer journal.struct
  obtain ⟨-, bounded, s, origin, settled⟩ := nested _ defaultInstance_journal _ _ along
  refine ⟨defaultInstance_journal, along, bounded, ?_⟩
  rcases origin with ⟨-, same⟩ | found
  · have names : "Entry" = "Journal" := congrArg Instance.name same
    exact absurd names (by decide)
  · have found : some entry = some s := found
    cases found
    exact settled

end Sample

end WireSchema
