import WireSchema.Schema.Basic
import WireSchema.Schema.Error

/-!
# The registry of structs

A registry knows the struct definitions of the messages registered in it and decides which structs
are **common**. A struct that a message declares as shared is common from the start; any other is
promoted when a second **call site** (a field of a struct of a message) refers to it. Common structs
are declared once in a unit and referred to by name.

Registration can fail only because two definitions of one name differ in shape. What was recorded
before the conflict stays recorded, so a `Conflict` carries the registry reached.
-/

namespace WireSchema

/-- A place from which a struct is referred to. -/
structure CallSite where
  /-- The message. -/
  message : String
  /-- The struct around the field. -/
  parent : String
  /-- The field. -/
  field : String
deriving DecidableEq, Repr

/-- The structs of the messages registered so far. -/
structure Registry where
  /-- The definitions, in the order in which they were first seen. -/
  definitions : List StructSpec
  /-- The first call site of each struct that was not common when it was reached. -/
  firstSites : List (String × CallSite)
  /-- The call sites visited, the latest first. -/
  visited : List CallSite
  /-- The names of the common structs, in the order in which they became common. -/
  common : List String
  /-- A name is defined once. -/
  distinct : (definitions.map (·.name)).Nodup

/-- Two definitions of one name differ in shape. -/
structure Conflict where
  /-- The name. -/
  name : String
  /-- What had been recorded before the second definition. -/
  reached : Registry

namespace Registry

/-- The registry of no message. -/
def empty : Registry := ⟨[], [], [], [], List.nodup_nil⟩

/-! ### Questions -/

/-- The definition of a name. -/
def find? (r : Registry) (name : String) : Option StructSpec :=
  r.definitions.find? (·.name == name)

/-- Whether a name is common. -/
def isCommon (r : Registry) (name : String) : Bool :=
  r.common.contains name

/-- The definitions of the common structs, in the order in which they became common. A promoted
struct need not be defined. -/
def commonStructs (r : Registry) : List StructSpec :=
  r.common.filterMap r.find?

/-- The struct that a field refers to, directly or as element of an array. -/
def findStruct (r : Registry) (field : FieldSpec) : Except SchemaError StructSpec :=
  match field.type.structName? with
  | none => .error (.notStruct field.name field.type)
  | some typeName =>
    match r.find? typeName with
    | none => .error (.unresolvedType field.name typeName)
    | some spec => .ok spec

/-- A definition found under a name bears that name. -/
theorem name_of_find? {r : Registry} {name : String} {spec : StructSpec}
    (h : r.find? name = some spec) : spec.name = name := by
  have := List.find?_some h
  simpa using this

/-- A definition found under a name is one of the definitions. -/
theorem mem_of_find? {r : Registry} {name : String} {spec : StructSpec}
    (h : r.find? name = some spec) : spec ∈ r.definitions :=
  List.mem_of_find?_eq_some h

/-- A definition is found under its name, which no other one bears. -/
theorem find?_of_mem {r : Registry} {spec : StructSpec} (mem : spec ∈ r.definitions) :
    r.find? spec.name = some spec := by
  obtain ⟨before, after, split⟩ := List.append_of_mem mem
  have distinct := r.distinct
  rw [split, List.map_append, List.nodup_append] at distinct
  refine List.find?_eq_some_iff_append.2 ⟨beq_self_eq_true _, before, after, split, ?_⟩
  intro other earlier
  have differ : other.name ≠ spec.name :=
    distinct.2.2 _ (List.mem_map_of_mem earlier) _ (List.mem_cons_self ..)
  simpa using differ

/-- A struct found for a field is the definition of the name that the field refers to. -/
theorem find?_of_findStruct {r : Registry} {field : FieldSpec} {spec : StructSpec}
    (h : r.findStruct field = .ok spec) : r.find? spec.name = some spec := by
  unfold findStruct at h
  split at h
  · cases h
  · split at h
    · cases h
    · rename_i hf
      cases h
      rw [name_of_find? hf]
      exact hf

/-- A struct found for a field is what the registry defines under the name that the field refers
to. -/
theorem findStruct_eq_ok {r : Registry} {field : FieldSpec} {spec : StructSpec} :
    r.findStruct field = .ok spec ↔
      field.type.structName? = some spec.name ∧ r.find? spec.name = some spec := by
  cases target : field.type.structName? with
  | none => simp [findStruct, target]
  | some name =>
      cases found : r.find? name with
      | none =>
          simp only [findStruct, target, found, reduceCtorEq, Option.some.injEq, false_iff, not_and]
          rintro rfl
          simp [found]
      | some other =>
          have named : other.name = name := name_of_find? found
          simp only [findStruct, target, found, Except.ok.injEq, Option.some.injEq]
          constructor
          · rintro rfl
            exact ⟨named.symm, by rw [named]; exact found⟩
          · rintro ⟨rfl, found'⟩
            rw [found] at found'
            exact Option.some.inj found'

/-! ### Registration -/

/-- A name that is not found is defined by no definition, so it can be added. -/
theorem distinct_append {r : Registry} {spec : StructSpec} (fresh : r.find? spec.name = none) :
    ((r.definitions ++ [spec]).map (·.name)).Nodup := by
  rw [List.map_append, List.nodup_append]
  refine ⟨r.distinct, by simp, ?_⟩
  rintro _ listed name here rfl
  obtain ⟨other, mem, named⟩ := List.mem_map.1 listed
  have differ := List.find?_eq_none.1 fresh other mem
  rw [named, List.mem_singleton.1 here] at differ
  exact differ (beq_self_eq_true _)

/-- Record the definition of a name that has none. -/
def add (r : Registry) (spec : StructSpec) (fresh : r.find? spec.name = none) : Registry :=
  { r with definitions := r.definitions ++ [spec], distinct := distinct_append fresh }

/-- Record a definition, unless its name is already defined with the same shape. -/
def define (r : Registry) (spec : StructSpec) : Except Conflict Registry :=
  match found : r.find? spec.name with
  | none => .ok (r.add spec found)
  | some existing => if existing.sameShape spec then .ok r else .error ⟨spec.name, r⟩

theorem define_of_none {r : Registry} {spec : StructSpec} (fresh : r.find? spec.name = none) :
    r.define spec = .ok (r.add spec fresh) := by
  unfold define
  split
  · rfl
  · next found => cases fresh.symm.trans found

theorem define_of_some {r : Registry} {spec existing : StructSpec}
    (known : r.find? spec.name = some existing) :
    r.define spec = if existing.sameShape spec then .ok r else .error ⟨spec.name, r⟩ := by
  unfold define
  split
  · next fresh => cases known.symm.trans fresh
  · next found =>
    cases known.symm.trans found
    rfl

/-- Make a name common. -/
def promote (r : Registry) (name : String) : Registry :=
  if r.isCommon name then r else { r with common := r.common ++ [name] }

/-- Record that a call site has been visited. -/
def visit (r : Registry) (site : CallSite) : Registry :=
  { r with visited := site :: r.visited }

/-- Record a reference to a struct: the first site of a struct is kept, and a second one makes the
struct common. -/
def refer (r : Registry) (typeName : String) (site : CallSite) : Registry :=
  if r.isCommon typeName then r
  else
    match r.firstSites.lookup typeName with
    | none => { r with firstSites := r.firstSites ++ [(typeName, site)] }
    | some first => if first = site then r else r.promote typeName

/-- Record the definition that a field may carry. -/
def defineInline (r : Registry) : Option StructSpec → Except Conflict Registry
  | none => .ok r
  | some spec => r.define spec

mutual

/-- Visit the call sites of a struct and of the structs defined inside it, depth first. -/
def walkStruct (message : String) (r : Registry) : StructSpec → Except Conflict Registry
  | ⟨name, _, fields⟩ => walkFields message name r fields

/-- Visit the call sites among the fields of a struct. -/
def walkFields (message parent : String) (r : Registry) :
    List FieldSpec → Except Conflict Registry
  | [] => .ok r
  | field :: fields => do
    let r ← walkField message parent r field
    walkFields message parent r fields

/-- Visit a field. It is a call site if its type refers to a struct; a site visited before is
passed over with everything inside it. -/
def walkField (message parent : String) (r : Registry) : FieldSpec → Except Conflict Registry
  | ⟨name, type, _, _, _, _, _, _, inlineStruct⟩ =>
    match type.structName? with
    | none => .ok r
    | some typeName =>
      let site : CallSite := ⟨message, parent, name⟩
      if r.visited.contains site then .ok r
      else do
        let r ← (r.visit site).defineInline inlineStruct
        let r := r.refer typeName site
        match inlineStruct with
        | none => .ok r
        | some spec => walkStruct message r spec

end

/-- Record a struct that a message declares as shared. -/
def declareCommon (r : Registry) (spec : StructSpec) : Except Conflict Registry := do
  let r ← r.define spec
  .ok (r.promote spec.name)

/-- Register a message: its shared structs first, then the call sites inside them, then those of
the top-level struct. -/
def register (r : Registry) (m : MessageSpec) : Except Conflict Registry := do
  let r ← m.commonStructs.foldlM declareCommon r
  let r ← m.commonStructs.foldlM (walkStruct m.name) r
  walkStruct m.name r m.struct

/-- The registry of a single message. -/
def ofMessage (m : MessageSpec) : Except SchemaError Registry :=
  match empty.register m with
  | .ok r => .ok r
  | .error conflict => .error (.conflictingStruct conflict.name)

/-! ### What is left to visit

Walks that follow references through the registry keep a list of the names they have been at. The
**weight** of the definitions not yet on the list bounds how far they can still go. -/

/-- The number of the structs not named in `names`, and of their fields. -/
def weightOf (names : List String) : List StructSpec → Nat
  | [] => 0
  | spec :: specs =>
    (if spec.name ∈ names then 0 else spec.fields.length + 1) + weightOf names specs

/-- The weight of the definitions not named in `names`. -/
def weightBeyond (r : Registry) (names : List String) : Nat :=
  weightOf names r.definitions

/-- Naming one more struct never adds weight. -/
theorem weightOf_append_le (names : List String) (name : String) (specs : List StructSpec) :
    weightOf (names ++ [name]) specs ≤ weightOf names specs := by
  induction specs with
  | nil => exact Nat.le_refl 0
  | cons spec specs ih =>
    simp only [weightOf, List.mem_append]
    by_cases seen : spec.name ∈ names
    · simpa [seen] using ih
    · simp only [seen, false_or, if_false]
      split <;> omega

/-- Naming a struct of the list that was not named takes its weight away. -/
theorem weightOf_append_of_mem {names : List String} {spec : StructSpec} {specs : List StructSpec}
    (mem : spec ∈ specs) (fresh : spec.name ∉ names) :
    weightOf (names ++ [spec.name]) specs + spec.fields.length + 1 ≤ weightOf names specs := by
  induction specs with
  | nil => cases mem
  | cons first specs ih =>
    simp only [weightOf]
    rcases List.mem_cons.1 mem with rfl | mem
    · have := weightOf_append_le names spec.name specs
      simp only [List.mem_append, List.mem_singleton, or_true, if_true, fresh, if_false]
      omega
    · have := ih mem
      by_cases seen : first.name ∈ names
      · simp only [List.mem_append, seen, true_or, if_true]
        omega
      · simp only [seen, if_false]
        split <;> omega

/-- Visiting a defined struct takes its weight away. -/
theorem weightBeyond_append {r : Registry} {names : List String} {spec : StructSpec}
    (found : r.find? spec.name = some spec) (fresh : spec.name ∉ names) :
    r.weightBeyond (names ++ [spec.name]) + spec.fields.length + 1 ≤ r.weightBeyond names :=
  weightOf_append_of_mem (mem_of_find? found) fresh

end Registry

end WireSchema
