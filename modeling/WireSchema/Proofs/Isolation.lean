import WireSchema.Backend.Rust
import WireSchema.Proofs.Declarations

/-!
# Versions do not interfere

A schema is edited when a version is added: fields get an upper bound, others appear. The units of
the versions that were there before must not change. They do not, because a unit depends on nothing
but the **projection** at its version: the fields that exist there, as that version sees them.
Neither the fields of other versions, nor the ranges that fields and structs are declared with, nor
the definitions that fields carry are looked at.

`SameAt` says that two messages, each with its registry, look alike at a version. Following the
references of the one then takes the same steps as following those of the other, and so the two give
the same unit, or fail in the same way.
-/

namespace WireSchema

/-! ### Looking alike -/

/-- What a version sees of a struct: the fields that exist there, each as it is there, in order. -/
def StructSpec.projection (s : StructSpec) (v : Version) : List FieldAt :=
  (s.fieldsAt v).map (·.atVersion v)

/-- Two registries have the same common names and, under the same names, structs with the same
projections at a version. -/
structure Registry.SameAt (v : Version) (r r' : Registry) : Prop where
  common : r.common = r'.common
  defined : ∀ name, (∃ s, r.find? name = some s) ↔ ∃ s, r'.find? name = some s
  projection : ∀ name s s', r.find? name = some s → r'.find? name = some s' →
    s.projection v = s'.projection v

/-- Two messages, each with its registry, look alike at a version. -/
structure MessageSpec.SameAt (v : Version) (m : MessageSpec) (r : Registry) (m' : MessageSpec)
    (r' : Registry) : Prop where
  /-- The version is one of both messages. -/
  valid : m.checkVersion v = .ok () ∧ m'.checkVersion v = .ok ()
  name : m.name = m'.name
  role : m.role = m'.role
  flexible : m.isFlexibleAt v = m'.isFlexibleAt v
  /-- The top-level structs have the same name and the same projection. -/
  struct : m.struct.name = m'.struct.name ∧ m.struct.projection v = m'.struct.projection v
  registry : r.SameAt v r'

theorem StructSpec.atVersion_congr {s s' : StructSpec} {v : Version} (name : s.name = s'.name)
    (same : s.projection v = s'.projection v) (flexible isTopLevel isCommon : Bool) :
    s.atVersion v flexible isTopLevel isCommon = s'.atVersion v flexible isTopLevel isCommon := by
  unfold projection at same
  rw [StructSpec.atVersion, StructSpec.atVersion, name, same]

/-! ### One step of following references -/

namespace Registry

section

variable {r : Registry} {v : Version} {flexible : Bool} {field : FieldSpec}
  {rest : List FieldSpec} {done : List StructAt} {spec : StructSpec}

theorem follow_of_none (noTarget : field.type.structName? = none) :
    r.follow v flexible (field :: rest) done = r.follow v flexible rest done := by
  rw [follow, noTarget]

theorem follow_of_error {target : String} {e : SchemaError}
    (target_eq : field.type.structName? = some target) (failed : r.findStruct field = .error e) :
    r.follow v flexible (field :: rest) done = .error e := by
  rw [follow, target_eq]
  dsimp only
  split
  · rename_i e' failed'
    cases failed.symm.trans failed'
    rfl
  · rename_i spec found
    cases failed.symm.trans found

theorem follow_of_ok (found : r.findStruct field = .ok spec) :
    r.follow v flexible (field :: rest) done =
      if r.isCommon spec.name ∨ spec.name ∈ StructAt.names done then r.follow v flexible rest done
      else
        r.follow v flexible (spec.fieldsAt v ++ rest)
          (done ++ [spec.atVersion v flexible false false]) := by
  obtain ⟨target_eq, -⟩ := findStruct_eq_ok.1 found
  rw [follow, target_eq]
  dsimp only
  split
  · rename_i e failed
    cases failed.symm.trans found
  · rename_i spec' found'
    cases found.symm.trans found'
    rfl

end

/-! ### Two registries side by side -/

namespace SameAt

variable {v : Version} {r r' : Registry} (same : r.SameAt v r')

include same

theorem isCommon (name : String) : r.isCommon name = r'.isCommon name := by
  rw [Registry.isCommon, Registry.isCommon, same.common]

/-- What the one registry has under a name, the other has alike; or neither has anything. -/
theorem find? (name : String) :
    (r.find? name = none ∧ r'.find? name = none) ∨
      ∃ s s', r.find? name = some s ∧ r'.find? name = some s' ∧ s.name = s'.name ∧
        s.projection v = s'.projection v := by
  cases here : r.find? name with
  | none =>
      cases there : r'.find? name with
      | none => exact .inl ⟨rfl, rfl⟩
      | some s' =>
          obtain ⟨s, found⟩ := (same.defined name).2 ⟨s', there⟩
          cases here.symm.trans found
  | some s =>
      obtain ⟨s', there⟩ := (same.defined name).1 ⟨s, here⟩
      refine .inr ⟨s, s', rfl, there, ?_, same.projection name s s' here there⟩
      rw [name_of_find? here, name_of_find? there]

/-- Looking up the structs of two fields that look alike fails alike, or finds structs that do. -/
theorem findStruct {f f' : FieldSpec} (alike : f.atVersion v = f'.atVersion v) :
    (∃ e, r.findStruct f = .error e ∧ r'.findStruct f' = .error e) ∨
      ∃ s s', r.findStruct f = .ok s ∧ r'.findStruct f' = .ok s' ∧ s.name = s'.name ∧
        s.projection v = s'.projection v := by
  have name : f.name = f'.name := congrArg FieldAt.name alike
  have type : f.type = f'.type := congrArg FieldAt.type alike
  unfold Registry.findStruct
  rw [name, type]
  cases f'.type.structName? with
  | none => exact .inl ⟨_, rfl, rfl⟩
  | some target =>
      dsimp only
      rcases same.find? target with ⟨absent, absent'⟩ | ⟨s, s', found, found', named, projected⟩
      · rw [absent, absent']
        exact .inl ⟨_, rfl, rfl⟩
      · rw [found, found']
        exact .inr ⟨s, s', rfl, rfl, named, projected⟩

/-- Following fields that look alike takes the same steps in both registries. -/
theorem follow (flexible : Bool) {pending pending' : List FieldSpec} {done : List StructAt}
    (alike : pending.map (·.atVersion v) = pending'.map (·.atVersion v)) :
    r.follow v flexible pending done = r'.follow v flexible pending' done := by
  -- The induction is on the run in `r`; the other one is unfolded step by step beside it.
  fun_induction Registry.follow r v flexible pending done generalizing pending' with
  | case1 done =>
      obtain rfl : pending' = [] := by simpa using alike.symm
      rw [Registry.follow]
  | case2 done field rest noTarget ih =>
      obtain ⟨field', rest', rfl, here, others⟩ := List.map_eq_cons_iff.1 alike.symm
      have type : field'.type = field.type := congrArg FieldAt.type here
      rw [follow_of_none (type ▸ noTarget)]
      exact ih others.symm
  | case3 done field rest target target_eq e failed =>
      obtain ⟨field', rest', rfl, here, others⟩ := List.map_eq_cons_iff.1 alike.symm
      have type : field'.type = field.type := congrArg FieldAt.type here
      rcases same.findStruct here.symm with ⟨e', failed', there⟩ | ⟨s, s', found, -⟩
      · cases failed.symm.trans failed'
        rw [follow_of_error (type ▸ target_eq) there]
      · cases failed.symm.trans found
  | case4 done field rest target target_eq spec found skipped ih =>
      obtain ⟨field', rest', rfl, here, others⟩ := List.map_eq_cons_iff.1 alike.symm
      rcases same.findStruct here.symm with ⟨e, failed, -⟩ | ⟨s, s', found', there, named, -⟩
      · cases found.symm.trans failed
      · cases found.symm.trans found'
        rw [named, same.isCommon] at skipped
        rw [follow_of_ok there, if_pos skipped]
        exact ih others.symm
  | case5 done field rest target target_eq spec found entered _ _ ih =>
      obtain ⟨field', rest', rfl, here, others⟩ := List.map_eq_cons_iff.1 alike.symm
      rcases same.findStruct here.symm with
        ⟨e, failed, -⟩ | ⟨s, s', found', there, named, projected⟩
      · cases found.symm.trans failed
      · cases found.symm.trans found'
        rw [named, same.isCommon] at entered
        rw [follow_of_ok there, if_neg entered, ← StructSpec.atVersion_congr named projected]
        refine ih ?_
        rw [List.map_append, List.map_append, others]
        exact congrArg (· ++ _) projected

/-- Both registries have the same common structs, as the version sees them. -/
theorem commonStructs :
    List.Forall₂ (fun s s' => s.name = s'.name ∧ s.projection v = s'.projection v)
      r.commonStructs r'.commonStructs := by
  unfold Registry.commonStructs
  rw [same.common]
  induction r'.common with
  | nil => exact .nil
  | cons name names ih =>
      rcases same.find? name with ⟨absent, absent'⟩ | ⟨s, s', found, found', alike⟩
      · rw [List.filterMap_cons_none absent, List.filterMap_cons_none absent']
        exact ih
      · rw [List.filterMap_cons_some found, List.filterMap_cons_some found']
        exact .cons alike ih

theorem addCommon (flexible : Bool) (done : List StructAt) {s s' : StructSpec}
    (named : s.name = s'.name) (projected : s.projection v = s'.projection v) :
    r.addCommon v flexible done s = r'.addCommon v flexible done s' := by
  unfold Registry.addCommon
  rw [named, StructSpec.atVersion_congr named projected, same.follow flexible projected]

/-- Adding the common structs, in the order in which they became common, gives the same. -/
theorem foldlM_addCommon (flexible : Bool) (done : List StructAt) :
    r.commonStructs.foldlM (r.addCommon v flexible) done =
      r'.commonStructs.foldlM (r'.addCommon v flexible) done := by
  have alike := same.commonStructs
  generalize r.commonStructs = specs at alike
  generalize r'.commonStructs = specs' at alike
  induction alike generalizing done with
  | nil => rfl
  | cons first _ ih =>
      rw [List.foldlM_cons, List.foldlM_cons, same.addCommon flexible done first.1 first.2]
      exact Outcome.bind_congr fun next _ => ih next

end SameAt

end Registry

/-! ### Units -/

namespace MessageSpec.SameAt

variable {v : Version} {m m' : MessageSpec} {r r' : Registry} (same : m.SameAt v r m' r')

include same

theorem structsAt : m.structsAt r v = m'.structsAt r' v := by
  have top := StructSpec.atVersion_congr same.struct.1 same.struct.2 (m'.isFlexibleAt v) true false
  unfold MessageSpec.structsAt
  dsimp only
  rw [same.flexible, top, same.registry.follow _ same.struct.2]
  exact Outcome.bind_congr fun own _ => same.registry.foldlM_addCommon _ own

theorem atVersion : m.atVersion r v = m'.atVersion r' v := by
  unfold MessageSpec.atVersion
  rw [same.valid.1, same.valid.2, same.structsAt, same.name, same.role]

end MessageSpec.SameAt

/-- **Isolation.** Two messages that look alike at a version, each in its registry, give the same
unit there, in any target language, or fail with the same error: nothing else about the two schemas
has a part in it. -/
theorem unit_determined_by_projections {v : Version} {m m' : MessageSpec} {r r' : Registry}
    (same : m.SameAt v r m' r') :
    m.atVersion r v = m'.atVersion r' v ∧
      ∀ b : Backend, b.generate m r v = b.generate m' r' v := by
  refine ⟨same.atVersion, fun b => ?_⟩
  unfold Backend.generate
  rw [same.atVersion]

namespace Sample

/-- The nested struct of the sample after an edit: a field that version 0 had is named, and the
others are open to further versions. -/
def editedEntry : StructSpec :=
  ⟨"Entry", ⟨0, 9⟩,
    [⟨"Old", .int .int32, ⟨0, 0⟩, none, none, .none, some "7", none, none⟩,
      ⟨"Next", .struct "Entry", ⟨0, 9⟩, none, none, ⟨2, 9⟩, none, none, none⟩,
      ⟨"Tags", .array .string, ⟨1, 9⟩, none, none, .none, none, none, none⟩]⟩

/-- The message after the edit, which gives it two more versions and a field in the last. -/
def editedJournal : MessageSpec where
  name := "Journal"
  apiKey := none
  role := .data
  validVersions := ⟨0, 3⟩
  flexibleVersions := ⟨2, 3⟩
  struct := ⟨"Journal", ⟨0, 3⟩,
    [⟨"Head", .struct "Entry", ⟨0, 3⟩, none, none, .none, none, none, some editedEntry⟩,
      ⟨"Draft", .unsupported "float32", ⟨3, 3⟩, none, none, .none, none, none, none⟩,
      ⟨"Note", .string, ⟨0, 3⟩, none, none, .none, none, none, none⟩]⟩
  commonStructs := []

def editedRegistry : Registry :=
  { journalRegistry with definitions := [editedEntry], distinct := by decide }

theorem journal_sameAt_edited :
    journal.SameAt 1 journalRegistry editedJournal editedRegistry where
  valid := ⟨rfl, rfl⟩
  name := rfl
  role := rfl
  flexible := rfl
  struct := ⟨rfl, rfl⟩
  registry := {
    common := rfl
    defined := fun name => by
      by_cases here : "Entry" = name <;>
        simp [Registry.find?, journalRegistry, editedRegistry, entry, editedEntry, here]
    projection := fun name s s' found found' => by
      obtain rfl := List.mem_singleton.1 (Registry.mem_of_find? found)
      obtain rfl := List.mem_singleton.1 (Registry.mem_of_find? found')
      rfl }

/-- The edit changes version 0 and adds versions, and leaves the unit of version 1 as it was. -/
theorem journal_unit_unchanged :
    journal.SameAt 1 journalRegistry editedJournal editedRegistry ∧
      entry.projection 0 ≠ editedEntry.projection 0 ∧
      (Backend.rust true).generate journal journalRegistry 1 =
        (Backend.rust true).generate editedJournal editedRegistry 1 :=
  ⟨journal_sameAt_edited, by decide,
    (unit_determined_by_projections journal_sameAt_edited).2 (Backend.rust true)⟩

end Sample

end WireSchema
