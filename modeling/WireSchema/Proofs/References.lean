import WireSchema.Proofs.Outcome
import WireSchema.Registry

/-!
# The references that a registration visits

Registering a message walks its struct tree and changes the registry on the way. This module takes
the two apart. A `Reference` is what the walk finds at a call site. Which references are visited,
and in which order, is a function of the tree and of the sites seen before (`freshReferences`), and
the registry is changed by one step for each of them (`Registry.record`). The main statement is
`register_eq`: a registration is the loop of that step over the fresh references, failures included.
Facts about registration are then inductions on a list.

A call site that was seen before is passed over **with everything inside it**. `references` lists
what a walk without that rule would find; the two agree if no call site occurs twice.
-/

namespace WireSchema

/-- What a walk finds at a call site: the struct referred to, and the definition that the field may
carry. -/
structure Reference where
  /-- The call site. -/
  site : CallSite
  /-- The name of the struct. -/
  typeName : String
  /-- The definition at the site. -/
  inline : Option StructSpec

/-- The sites seen after visiting some references, the latest first. -/
def Reference.seenAfter (seen : List CallSite) (refs : List Reference) : List CallSite :=
  (refs.map (·.site)).reverse ++ seen

/-! ### All references of a tree -/

mutual

/-- The references of a struct and of the structs defined inside it, depth first. -/
def StructSpec.references (message : String) : StructSpec → List Reference
  | ⟨name, _, fields⟩ => FieldSpec.referencesAmong message name fields

def FieldSpec.referencesAmong (message parent : String) : List FieldSpec → List Reference
  | [] => []
  | field :: fields =>
    field.references message parent ++ FieldSpec.referencesAmong message parent fields

def FieldSpec.references (message parent : String) : FieldSpec → List Reference
  | ⟨name, type, _, _, _, _, _, _, inlineStruct⟩ =>
    match type.structName? with
    | none => []
    | some typeName =>
      ⟨⟨message, parent, name⟩, typeName, inlineStruct⟩ ::
        FieldSpec.referencesInside message inlineStruct

def FieldSpec.referencesInside (message : String) : Option StructSpec → List Reference
  | none => []
  | some spec => spec.references message

end

/-- The references of a message: those of its shared structs, then those of the top-level struct. -/
def MessageSpec.references (m : MessageSpec) : List Reference :=
  (m.commonStructs ++ [m.struct]).flatMap (·.references m.name)

theorem FieldSpec.mem_referencesAmong {message parent : String} {fields : List FieldSpec}
    {ref : Reference} : ref ∈ FieldSpec.referencesAmong message parent fields ↔
      ∃ field ∈ fields, ref ∈ field.references message parent := by
  induction fields with
  | nil => simp [FieldSpec.referencesAmong]
  | cons field fields ih => simp [FieldSpec.referencesAmong, ih]

theorem StructSpec.mem_references {message : String} {spec : StructSpec} {ref : Reference} :
    ref ∈ spec.references message ↔
      ∃ field ∈ spec.fields, ref ∈ field.references message spec.name := by
  cases spec
  rw [StructSpec.references, FieldSpec.mem_referencesAmong]

theorem FieldSpec.mem_references {message parent : String} {field : FieldSpec} {ref : Reference} :
    ref ∈ field.references message parent ↔
      ∃ typeName, field.type.structName? = some typeName ∧
        (ref = ⟨⟨message, parent, field.name⟩, typeName, field.inlineStruct⟩ ∨
          ∃ spec, field.inlineStruct = some spec ∧ ref ∈ spec.references message) := by
  obtain ⟨name, type, _, _, _, _, _, _, inlineStruct⟩ := field
  rw [FieldSpec.references]
  cases type.structName? with
  | none => simp
  | some typeName => cases inlineStruct <;> simp [FieldSpec.referencesInside]

/-! ### The references that are visited -/

mutual

/-- The references of a struct that a walk visits if it has seen the sites `seen` before. -/
def StructSpec.freshReferences (message : String) (seen : List CallSite) :
    StructSpec → List Reference
  | ⟨name, _, fields⟩ => FieldSpec.freshAmong message name seen fields

def FieldSpec.freshAmong (message parent : String) (seen : List CallSite) :
    List FieldSpec → List Reference
  | [] => []
  | field :: fields =>
    field.freshReferences message parent seen ++
      FieldSpec.freshAmong message parent
        (Reference.seenAfter seen (field.freshReferences message parent seen)) fields

def FieldSpec.freshReferences (message parent : String) (seen : List CallSite) :
    FieldSpec → List Reference
  | ⟨name, type, _, _, _, _, _, _, inlineStruct⟩ =>
    match type.structName? with
    | none => []
    | some typeName =>
      if seen.contains ⟨message, parent, name⟩ then []
      else
        ⟨⟨message, parent, name⟩, typeName, inlineStruct⟩ ::
          FieldSpec.freshInside message (⟨message, parent, name⟩ :: seen) inlineStruct

def FieldSpec.freshInside (message : String) (seen : List CallSite) :
    Option StructSpec → List Reference
  | none => []
  | some spec => spec.freshReferences message seen

end

/-- The references that a walk over several structs visits. -/
def StructSpec.freshAcross (message : String) (seen : List CallSite) :
    List StructSpec → List Reference
  | [] => []
  | spec :: specs =>
    spec.freshReferences message seen ++
      freshAcross message (Reference.seenAfter seen (spec.freshReferences message seen)) specs

/-- The references that registering a message visits. -/
def MessageSpec.freshReferences (m : MessageSpec) (seen : List CallSite) : List Reference :=
  StructSpec.freshAcross m.name seen (m.commonStructs ++ [m.struct])

mutual

/-- A walk visits some of the references, in their order. -/
theorem StructSpec.freshReferences_sublist (message : String) :
    ∀ (spec : StructSpec) (seen : List CallSite),
      (spec.freshReferences message seen).Sublist (spec.references message)
  | ⟨name, _, fields⟩, seen => by
      rw [StructSpec.freshReferences, StructSpec.references]
      exact FieldSpec.freshAmong_sublist message name fields seen

theorem FieldSpec.freshAmong_sublist (message parent : String) :
    ∀ (fields : List FieldSpec) (seen : List CallSite),
      (FieldSpec.freshAmong message parent seen fields).Sublist
        (FieldSpec.referencesAmong message parent fields)
  | [], _ => by
      rw [FieldSpec.freshAmong]
      exact List.nil_sublist _
  | field :: fields, seen => by
      rw [FieldSpec.freshAmong, FieldSpec.referencesAmong]
      exact (FieldSpec.freshReferences_sublist message parent field seen).append
        (FieldSpec.freshAmong_sublist message parent fields _)

theorem FieldSpec.freshReferences_sublist (message parent : String) :
    ∀ (field : FieldSpec) (seen : List CallSite),
      (field.freshReferences message parent seen).Sublist (field.references message parent)
  | ⟨name, type, _, _, _, _, _, _, inlineStruct⟩, seen => by
      rw [FieldSpec.freshReferences, FieldSpec.references]
      cases type.structName? with
      | none => exact List.Sublist.refl _
      | some typeName =>
          dsimp only
          split
          · exact List.nil_sublist _
          · exact (FieldSpec.freshInside_sublist message inlineStruct _).cons_cons _

theorem FieldSpec.freshInside_sublist (message : String) :
    ∀ (inlineStruct : Option StructSpec) (seen : List CallSite),
      (FieldSpec.freshInside message seen inlineStruct).Sublist
        (FieldSpec.referencesInside message inlineStruct)
  | none, _ => by
      rw [FieldSpec.freshInside]
      exact List.nil_sublist _
  | some spec, seen => by
      rw [FieldSpec.freshInside, FieldSpec.referencesInside]
      exact StructSpec.freshReferences_sublist message spec seen

end

theorem StructSpec.freshAcross_sublist (message : String) (seen : List CallSite)
    (specs : List StructSpec) :
    (freshAcross message seen specs).Sublist (specs.flatMap (·.references message)) := by
  induction specs generalizing seen with
  | nil => exact List.Sublist.refl _
  | cons spec specs ih =>
      rw [freshAcross, List.flatMap_cons]
      exact (freshReferences_sublist message spec seen).append (ih _)

theorem MessageSpec.freshReferences_sublist (m : MessageSpec) (seen : List CallSite) :
    (m.freshReferences seen).Sublist m.references :=
  StructSpec.freshAcross_sublist m.name seen _

/-! ### A registration is a loop over references -/

namespace Registry

/-- Visit a reference: mark its site, record the definition there, and note who refers to what. -/
def record (r : Registry) (ref : Reference) : Except Conflict Registry := do
  let r ← (r.visit ref.site).defineInline ref.inline
  .ok (r.refer ref.typeName ref.site)

theorem define_visited {r r' : Registry} {spec : StructSpec} (run : r.define spec = .ok r') :
    r'.visited = r.visited := by
  unfold define at run
  split at run
  · cases run
    rfl
  · split at run
    · cases run
      rfl
    · cases run

theorem promote_frame (r : Registry) (name : String) :
    (r.promote name).definitions = r.definitions ∧ (r.promote name).visited = r.visited := by
  unfold promote
  split <;> exact ⟨rfl, rfl⟩

theorem refer_frame (r : Registry) (typeName : String) (site : CallSite) :
    (r.refer typeName site).definitions = r.definitions ∧
      (r.refer typeName site).visited = r.visited := by
  unfold refer
  split
  · exact ⟨rfl, rfl⟩
  · split
    · exact ⟨rfl, rfl⟩
    · split
      · exact ⟨rfl, rfl⟩
      · exact promote_frame r typeName

theorem record_visited {r r' : Registry} {ref : Reference} (run : r.record ref = .ok r') :
    r'.visited = ref.site :: r.visited := by
  obtain ⟨defined, hdefined, same⟩ := Outcome.bind_eq_ok.1 run
  cases same
  rw [(refer_frame ..).2]
  cases h : ref.inline with
  | none =>
      rw [h] at hdefined
      cases hdefined
      rfl
  | some spec =>
      rw [h] at hdefined
      exact define_visited hdefined

/-- A loop over references has seen their sites, whatever else it did. -/
theorem foldlM_record_visited {r r' : Registry} {refs : List Reference}
    (run : refs.foldlM record r = .ok r') : r'.visited = Reference.seenAfter r.visited refs := by
  induction refs generalizing r with
  | nil =>
      cases run
      rfl
  | cons ref refs ih =>
      rw [List.foldlM_cons] at run
      obtain ⟨next, first, others⟩ := Outcome.bind_eq_ok.1 run
      rw [ih others, record_visited first]
      simp [Reference.seenAfter]

mutual

theorem walkStruct_eq (message : String) : ∀ (spec : StructSpec) (r : Registry),
    walkStruct message r spec = (spec.freshReferences message r.visited).foldlM record r
  | ⟨name, _, fields⟩, r => by
      rw [walkStruct, StructSpec.freshReferences]
      exact walkFields_eq message name fields r

theorem walkFields_eq (message parent : String) : ∀ (fields : List FieldSpec) (r : Registry),
    walkFields message parent r fields =
      (FieldSpec.freshAmong message parent r.visited fields).foldlM record r
  | [], r => by
      rw [walkFields, FieldSpec.freshAmong]
      rfl
  | field :: fields, r => by
      rw [walkFields, FieldSpec.freshAmong, List.foldlM_append, walkField_eq message parent field]
      -- The other fields are walked with the sites seen that the first one leaves behind.
      refine Outcome.bind_congr fun next run => ?_
      rw [walkFields_eq message parent fields next, foldlM_record_visited run]

theorem walkField_eq (message parent : String) : ∀ (field : FieldSpec) (r : Registry),
    walkField message parent r field =
      (field.freshReferences message parent r.visited).foldlM record r
  | ⟨name, type, _, _, _, _, _, _, inlineStruct⟩, r => by
      rw [walkField, FieldSpec.freshReferences]
      cases type.structName? with
      | none => rfl
      | some typeName =>
          dsimp only
          split
          · rfl
          · rw [List.foldlM_cons, record, bind_assoc]
            refine Outcome.bind_congr fun defined hdefined => ?_
            -- What is inside the field is walked after its own site has been recorded.
            have recorded : r.record ⟨⟨message, parent, name⟩, typeName, inlineStruct⟩ =
                .ok (defined.refer typeName ⟨message, parent, name⟩) :=
              Outcome.bind_eq_ok.2 ⟨defined, hdefined, rfl⟩
            rw [← record_visited recorded]
            exact walkInside_eq message inlineStruct _

theorem walkInside_eq (message : String) : ∀ (inlineStruct : Option StructSpec) (r : Registry),
    (match inlineStruct with
      | none => .ok r
      | some spec => walkStruct message r spec) =
      (FieldSpec.freshInside message r.visited inlineStruct).foldlM record r
  | none, r => by
      rw [FieldSpec.freshInside]
      rfl
  | some spec, r => by
      rw [FieldSpec.freshInside]
      exact walkStruct_eq message spec r

end

theorem walkAcross_eq (message : String) (specs : List StructSpec) (r : Registry) :
    specs.foldlM (walkStruct message) r =
      (StructSpec.freshAcross message r.visited specs).foldlM record r := by
  induction specs generalizing r with
  | nil => rfl
  | cons spec specs ih =>
      rw [List.foldlM_cons, StructSpec.freshAcross, List.foldlM_append, walkStruct_eq]
      refine Outcome.bind_congr fun next run => ?_
      rw [ih, foldlM_record_visited run]

theorem declareCommon_visited {r r' : Registry} {spec : StructSpec}
    (run : r.declareCommon spec = .ok r') : r'.visited = r.visited := by
  obtain ⟨defined, hdefined, same⟩ := Outcome.bind_eq_ok.1 run
  cases same
  rw [(promote_frame ..).2, define_visited hdefined]

/-- Declaring shared structs visits no call site. -/
theorem foldlM_declareCommon_visited {r r' : Registry} {specs : List StructSpec}
    (run : specs.foldlM declareCommon r = .ok r') : r'.visited = r.visited :=
  Outcome.foldlM_induction (motive := fun r' => r'.visited = r.visited) run rfl
    fun _ _ _ _ before step => (declareCommon_visited step).trans before

/-- **A registration**: the shared structs are declared, and then every fresh reference is recorded
in turn. -/
theorem register_eq (r : Registry) (m : MessageSpec) :
    r.register m =
      (m.commonStructs.foldlM declareCommon r >>= fun declared =>
        (m.freshReferences r.visited).foldlM record declared) := by
  unfold register
  refine Outcome.bind_congr fun declared run => ?_
  rw [MessageSpec.freshReferences, ← foldlM_declareCommon_visited run, ← walkAcross_eq,
    List.foldlM_append]
  refine Outcome.bind_congr fun walked _ => ?_
  rw [List.foldlM_cons]
  cases walkStruct m.name walked m.struct <;> rfl

/-- A successful registration has declared the shared structs, and visited the fresh references. -/
theorem register_eq_ok {r r' : Registry} {m : MessageSpec} (run : r.register m = .ok r') :
    ∃ declared, m.commonStructs.foldlM declareCommon r = .ok declared ∧
      (m.freshReferences r.visited).foldlM record declared = .ok r' ∧
      r'.visited = Reference.seenAfter r.visited (m.freshReferences r.visited) := by
  rw [register_eq] at run
  obtain ⟨declared, declares, walk⟩ := Outcome.bind_eq_ok.1 run
  refine ⟨declared, declares, walk, ?_⟩
  rw [foldlM_record_visited walk, foldlM_declareCommon_visited declares]

end Registry

/-! ### Without repeated call sites -/

/-- The sites of references are fresh if they are pairwise distinct and none has been seen. -/
def Reference.Fresh (seen : List CallSite) (refs : List Reference) : Prop :=
  (refs.map (·.site)).Nodup ∧ ∀ ref ∈ refs, ref.site ∉ seen

namespace Reference

variable {seen : List CallSite} {refs more : List Reference}

theorem Fresh.of_cons {ref : Reference} (h : Fresh seen (ref :: refs)) :
    ref.site ∉ seen ∧ Fresh (ref.site :: seen) refs := by
  obtain ⟨nodup, unseen⟩ := h
  obtain ⟨distinct, nodup⟩ := List.nodup_cons.1 nodup
  refine ⟨unseen ref (List.mem_cons_self ..), nodup, ?_⟩
  intro other mem again
  rcases List.mem_cons.1 again with same | again
  · exact distinct (List.mem_map.2 ⟨other, mem, same⟩)
  · exact unseen other (List.mem_cons_of_mem _ mem) again

theorem Fresh.of_append (h : Fresh seen (refs ++ more)) :
    Fresh seen refs ∧ Fresh (seenAfter seen refs) more := by
  obtain ⟨nodup, unseen⟩ := h
  rw [List.map_append] at nodup
  obtain ⟨first, second, disjoint⟩ := List.nodup_append.1 nodup
  refine ⟨⟨first, fun ref mem => unseen ref (List.mem_append_left _ mem)⟩, second, ?_⟩
  intro ref mem again
  rcases List.mem_append.1 again with again | again
  · exact disjoint _ (List.mem_reverse.1 again) _ (List.mem_map_of_mem mem) rfl
  · exact unseen ref (List.mem_append_right _ mem) again

end Reference

open Reference (Fresh)

mutual

theorem StructSpec.freshReferences_eq (message : String) :
    ∀ (spec : StructSpec) (seen : List CallSite), Fresh seen (spec.references message) →
      spec.freshReferences message seen = spec.references message
  | ⟨name, _, fields⟩, seen, fresh => by
      rw [StructSpec.references] at fresh ⊢
      rw [StructSpec.freshReferences]
      exact FieldSpec.freshAmong_eq message name fields seen fresh

theorem FieldSpec.freshAmong_eq (message parent : String) :
    ∀ (fields : List FieldSpec) (seen : List CallSite),
      Fresh seen (FieldSpec.referencesAmong message parent fields) →
      FieldSpec.freshAmong message parent seen fields =
        FieldSpec.referencesAmong message parent fields
  | [], _, _ => by rw [FieldSpec.freshAmong, FieldSpec.referencesAmong]
  | field :: fields, seen, fresh => by
      rw [FieldSpec.referencesAmong] at fresh ⊢
      obtain ⟨here, rest⟩ := fresh.of_append
      rw [FieldSpec.freshAmong, FieldSpec.freshReferences_eq message parent field seen here,
        FieldSpec.freshAmong_eq message parent fields _ rest]

theorem FieldSpec.freshReferences_eq (message parent : String) :
    ∀ (field : FieldSpec) (seen : List CallSite), Fresh seen (field.references message parent) →
      field.freshReferences message parent seen = field.references message parent
  | ⟨name, type, _, _, _, _, _, _, inlineStruct⟩, seen, fresh => by
      rw [FieldSpec.references] at fresh ⊢
      rw [FieldSpec.freshReferences]
      cases h : type.structName? with
      | none => rfl
      | some typeName =>
          simp only [h] at fresh ⊢
          obtain ⟨unseen, inside⟩ := fresh.of_cons
          have new : ¬ seen.contains ⟨message, parent, name⟩ = true := by simpa using unseen
          rw [if_neg new, FieldSpec.freshInside_eq message inlineStruct _ inside]

theorem FieldSpec.freshInside_eq (message : String) :
    ∀ (inlineStruct : Option StructSpec) (seen : List CallSite),
      Fresh seen (FieldSpec.referencesInside message inlineStruct) →
      FieldSpec.freshInside message seen inlineStruct =
        FieldSpec.referencesInside message inlineStruct
  | none, _, _ => by rw [FieldSpec.freshInside, FieldSpec.referencesInside]
  | some spec, seen, fresh => by
      rw [FieldSpec.referencesInside] at fresh ⊢
      rw [FieldSpec.freshInside]
      exact StructSpec.freshReferences_eq message spec seen fresh

end

theorem StructSpec.freshAcross_eq (message : String) (specs : List StructSpec)
    (seen : List CallSite) (fresh : Fresh seen (specs.flatMap (·.references message))) :
    freshAcross message seen specs = specs.flatMap (·.references message) := by
  induction specs generalizing seen with
  | nil => rfl
  | cons spec specs ih =>
      rw [List.flatMap_cons] at fresh ⊢
      obtain ⟨here, rest⟩ := fresh.of_append
      rw [freshAcross, freshReferences_eq message spec seen here, ih _ rest]

/-- If no call site occurs twice in a message, registering it first visits all its references. -/
theorem MessageSpec.freshReferences_eq (m : MessageSpec)
    (distinct : (m.references.map (·.site)).Nodup) : m.freshReferences [] = m.references :=
  StructSpec.freshAcross_eq m.name _ [] ⟨distinct, fun _ _ seen => nomatch seen⟩

/-! ### What a walk leaves behind

The sites that a walk visits are new and pairwise distinct, so every site counts once. A later walk
over the same structs finds nothing: the sites of their own fields have been seen, and what is
inside those fields is passed over with them. -/

namespace Reference

variable {seen : List CallSite} {refs more : List Reference}

theorem seenAfter_cons (seen : List CallSite) (ref : Reference) (refs : List Reference) :
    seenAfter seen (ref :: refs) = seenAfter (ref.site :: seen) refs := by
  simp [seenAfter]

theorem seenAfter_append (seen : List CallSite) (refs more : List Reference) :
    seenAfter seen (refs ++ more) = seenAfter (seenAfter seen refs) more := by
  simp [seenAfter]

theorem subset_seenAfter (seen : List CallSite) (refs : List Reference) :
    seen ⊆ seenAfter seen refs :=
  List.subset_append_right _ _

theorem Fresh.nil (seen : List CallSite) : Fresh seen [] :=
  ⟨List.nodup_nil, fun _ mem => nomatch mem⟩

theorem Fresh.cons {ref : Reference} (new : ref.site ∉ seen)
    (others : Fresh (ref.site :: seen) refs) : Fresh seen (ref :: refs) := by
  obtain ⟨nodup, unseen⟩ := others
  refine ⟨List.nodup_cons.2 ⟨?_, nodup⟩, ?_⟩
  · intro again
    obtain ⟨other, mem, same⟩ := List.mem_map.1 again
    exact unseen other mem (same ▸ List.mem_cons_self ..)
  · intro other mem old
    rcases List.mem_cons.1 mem with rfl | mem
    · exact new old
    · exact unseen other mem (List.mem_cons_of_mem _ old)

theorem Fresh.append (first : Fresh seen refs) (second : Fresh (seenAfter seen refs) more) :
    Fresh seen (refs ++ more) := by
  induction refs generalizing seen with
  | nil => exact second
  | cons ref refs ih =>
      obtain ⟨new, others⟩ := first.of_cons
      rw [seenAfter_cons] at second
      exact .cons new (ih others second)

end Reference

mutual

theorem StructSpec.fresh_freshReferences (message : String) :
    ∀ (spec : StructSpec) (seen : List CallSite), Fresh seen (spec.freshReferences message seen)
  | ⟨name, _, fields⟩, seen => by
      rw [StructSpec.freshReferences]
      exact FieldSpec.fresh_freshAmong message name fields seen

theorem FieldSpec.fresh_freshAmong (message parent : String) :
    ∀ (fields : List FieldSpec) (seen : List CallSite),
      Fresh seen (FieldSpec.freshAmong message parent seen fields)
  | [], seen => by
      rw [FieldSpec.freshAmong]
      exact .nil seen
  | field :: fields, seen => by
      rw [FieldSpec.freshAmong]
      exact (FieldSpec.fresh_freshReferences message parent field seen).append
        (FieldSpec.fresh_freshAmong message parent fields _)

theorem FieldSpec.fresh_freshReferences (message parent : String) :
    ∀ (field : FieldSpec) (seen : List CallSite),
      Fresh seen (field.freshReferences message parent seen)
  | ⟨name, type, _, _, _, _, _, _, inlineStruct⟩, seen => by
      rw [FieldSpec.freshReferences]
      cases type.structName? with
      | none => exact .nil seen
      | some typeName =>
          dsimp only
          split
          · exact .nil seen
          · rename_i new
            refine .cons (by simpa using new) ?_
            exact FieldSpec.fresh_freshInside message inlineStruct _

theorem FieldSpec.fresh_freshInside (message : String) :
    ∀ (inlineStruct : Option StructSpec) (seen : List CallSite),
      Fresh seen (FieldSpec.freshInside message seen inlineStruct)
  | none, seen => by
      rw [FieldSpec.freshInside]
      exact .nil seen
  | some spec, seen => by
      rw [FieldSpec.freshInside]
      exact StructSpec.fresh_freshReferences message spec seen

end

theorem StructSpec.fresh_freshAcross (message : String) (specs : List StructSpec)
    (seen : List CallSite) : Fresh seen (freshAcross message seen specs) := by
  induction specs generalizing seen with
  | nil => exact .nil seen
  | cons spec specs ih =>
      rw [freshAcross]
      exact (fresh_freshReferences message spec seen).append (ih _)

/-- A registration visits only sites that were not seen before, and none of them twice. -/
theorem MessageSpec.fresh_freshReferences (m : MessageSpec) (seen : List CallSite) :
    Fresh seen (m.freshReferences seen) :=
  StructSpec.fresh_freshAcross m.name _ seen

section

open Reference (seenAfter seenAfter_cons seenAfter_append subset_seenAfter)

variable {message parent : String} {seen later : List CallSite}

theorem FieldSpec.freshReferences_of_walked {field : FieldSpec}
    (walked : seenAfter seen (field.freshReferences message parent seen) ⊆ later) :
    field.freshReferences message parent later = [] := by
  obtain ⟨name, type, _, _, _, _, _, _, inlineStruct⟩ := field
  rw [FieldSpec.freshReferences] at walked ⊢
  cases h : type.structName? with
  | none => rfl
  | some typeName =>
      simp only [h] at walked ⊢
      -- Either the first walk marks the site, or it was marked already.
      have marked : (⟨message, parent, name⟩ : CallSite) ∈ later := by
        split at walked
        · rename_i old
          exact walked (by simpa [seenAfter] using old)
        · rw [seenAfter_cons] at walked
          exact walked (subset_seenAfter _ _ (List.mem_cons_self ..))
      rw [if_pos (by simpa using marked)]

theorem FieldSpec.freshAmong_of_walked {fields : List FieldSpec}
    (walked : seenAfter seen (FieldSpec.freshAmong message parent seen fields) ⊆ later) :
    FieldSpec.freshAmong message parent later fields = [] := by
  induction fields generalizing seen with
  | nil => rw [FieldSpec.freshAmong]
  | cons field fields ih =>
      rw [FieldSpec.freshAmong, seenAfter_append] at walked
      have first : field.freshReferences message parent later = [] :=
        freshReferences_of_walked (List.Subset.trans (subset_seenAfter _ _) walked)
      rw [FieldSpec.freshAmong, first]
      exact ih walked

theorem StructSpec.freshReferences_of_walked {spec : StructSpec}
    (walked : seenAfter seen (spec.freshReferences message seen) ⊆ later) :
    spec.freshReferences message later = [] := by
  cases spec
  rw [StructSpec.freshReferences] at walked ⊢
  exact FieldSpec.freshAmong_of_walked walked

theorem StructSpec.freshAcross_of_walked {specs : List StructSpec}
    (walked : seenAfter seen (freshAcross message seen specs) ⊆ later) :
    freshAcross message later specs = [] := by
  induction specs generalizing seen with
  | nil => rfl
  | cons spec specs ih =>
      rw [freshAcross, seenAfter_append] at walked
      have first : spec.freshReferences message later = [] :=
        freshReferences_of_walked (List.Subset.trans (subset_seenAfter _ _) walked)
      rw [freshAcross, first]
      exact ih walked

/-- Once a message has been walked, walking it again visits nothing. -/
theorem MessageSpec.freshReferences_of_walked {m : MessageSpec}
    (walked : seenAfter seen (m.freshReferences seen) ⊆ later) : m.freshReferences later = [] :=
  StructSpec.freshAcross_of_walked walked

end

end WireSchema
