import WireSchema.AtVersion
import WireSchema.Proofs.Loaded
import WireSchema.Proofs.Outcome

/-!
# The declarations of a unit

The unit of a message at a version declares exactly the structs that it **needs**: the least set
with the top-level struct and every defined common struct that is closed under the references of the
fields existing at the version. Cycles of references, and struct names that coincide with the name
of the message, are no exception.

`Registry.follow` is a worklist, so the proof keeps an invariant (`Declaring`) that relates what is
declared so far, what is still to be followed, and the common structs, which are left for later:
every reference of a declared struct is declared, common, or pending. When nothing is pending and
the common structs have been added, the declared names are closed.
-/

namespace WireSchema

/-! ### What a unit needs -/

namespace MessageSpec

/-- The struct that a name stands for in the unit of a message: the top-level struct under its own
name, and what the registry defines under any other. -/
def definition? (m : MessageSpec) (r : Registry) (name : String) : Option StructSpec :=
  if name = m.struct.name then some m.struct else r.find? name

/-- The names of the structs that a unit needs, as the least set closed under references. -/
inductive Needs (m : MessageSpec) (r : Registry) (v : Version) : String → Prop where
  /-- The top-level struct is needed. -/
  | topLevel : Needs m r v m.struct.name
  /-- A common struct is needed if it is defined. -/
  | common {name : String} {spec : StructSpec} (shared : r.isCommon name = true)
      (defined : r.find? name = some spec) : Needs m r v name
  /-- What a field of a needed struct refers to, directly or as element of an array, is needed. -/
  | refers {name target : String} {spec : StructSpec} {field : FieldSpec}
      (source : Needs m r v name) (defined : m.definition? r name = some spec)
      (mem : field ∈ spec.fieldsAt v) (target_eq : field.type.structName? = some target) :
      Needs m r v target

end MessageSpec

/-- Every struct that the fields of a struct refer to at a version is among `names`. -/
def StructSpec.RefersWithin (spec : StructSpec) (v : Version) (names : List String) : Prop :=
  ∀ field ∈ spec.fieldsAt v, ∀ target, field.type.structName? = some target → target ∈ names

/-! ### Following references -/

namespace Registry

variable {r : Registry} {v : Version} {flexible : Bool}

/-- The successful runs of `follow`, one constructor for each kind of step: `Follows pending done
out` says that following `pending` from `done` ends in `out`. -/
inductive Follows (r : Registry) (v : Version) (flexible : Bool) :
    List FieldSpec → List StructAt → List StructAt → Prop where
  /-- Nothing is pending. -/
  | nil {done : List StructAt} : Follows r v flexible [] done done
  /-- A field that refers to no struct is passed over. -/
  | plain {field : FieldSpec} {rest : List FieldSpec} {done out : List StructAt}
      (noTarget : field.type.structName? = none) (next : Follows r v flexible rest done out) :
      Follows r v flexible (field :: rest) done out
  /-- A reference to a common struct, or to one already declared, is passed over. -/
  | skip {field : FieldSpec} {rest : List FieldSpec} {done out : List StructAt}
      {spec : StructSpec} (found : r.findStruct field = .ok spec)
      (skipped : r.isCommon spec.name = true ∨ spec.name ∈ StructAt.names done)
      (next : Follows r v flexible rest done out) :
      Follows r v flexible (field :: rest) done out
  /-- Any other struct is declared, and its own fields come next. -/
  | enter {field : FieldSpec} {rest : List FieldSpec} {done out : List StructAt}
      {spec : StructSpec} (found : r.findStruct field = .ok spec)
      (notCommon : r.isCommon spec.name = false) (fresh : spec.name ∉ StructAt.names done)
      (next : Follows r v flexible (spec.fieldsAt v ++ rest)
        (done ++ [spec.atVersion v flexible false false]) out) :
      Follows r v flexible (field :: rest) done out

theorem follows_of_follow {pending : List FieldSpec} {done out : List StructAt}
    (run : r.follow v flexible pending done = .ok out) : Follows r v flexible pending done out := by
  fun_induction Registry.follow r v flexible pending done with
  | case1 done =>
      cases run
      exact .nil
  | case2 done field rest noTarget ih => exact .plain noTarget (ih run)
  | case3 => cases run
  | case4 done field rest target htarget spec found skipped ih => exact .skip found skipped (ih run)
  | case5 done field rest target htarget spec found skipped _ _ ih =>
      rw [not_or] at skipped
      exact .enter found (Bool.eq_false_iff.2 skipped.1) skipped.2 (ih run)

theorem Follows.names_subset {pending : List FieldSpec} {done out : List StructAt}
    (run : Follows r v flexible pending done out) :
    StructAt.names done ⊆ StructAt.names out := by
  induction run with
  | nil => exact fun _ h => h
  | plain _ _ ih => exact ih
  | skip _ _ _ ih => exact ih
  | enter _ _ _ _ ih =>
      intro name mem
      refine ih ?_
      rw [StructAt.names, List.map_append]
      exact List.mem_append_left _ mem

end Registry

/-! ### The invariant -/

namespace MessageSpec

variable {m : MessageSpec} {r : Registry} {v : Version}

/-- A reference that needs no further step: its target is declared, or it is a defined common
struct, which is declared in the end. -/
def Settled (r : Registry) (done : List StructAt) (target : String) : Prop :=
  target ∈ StructAt.names done ∨ (r.isCommon target = true ∧ ∃ spec, r.find? target = some spec)

/-- The invariant of the walk that declares the structs of a unit, with the fields `pending` still
to be followed and the structs `done` declared. -/
structure Declaring (m : MessageSpec) (r : Registry) (v : Version) (pending : List FieldSpec)
    (done : List StructAt) : Prop where
  /-- No name is declared twice. -/
  nodup : (StructAt.names done).Nodup
  /-- The top-level struct comes first; the others are what the registry defines. -/
  shape : ∃ others, done = m.struct.atVersion v (m.isFlexibleAt v) true false :: others ∧
    ∀ s ∈ others, ∃ spec, r.find? spec.name = some spec ∧
      s = spec.atVersion v (m.isFlexibleAt v) false (r.isCommon spec.name)
  /-- What is declared is needed. -/
  needed : ∀ name ∈ StructAt.names done, m.Needs r v name
  /-- What is pending leads to needed structs only. -/
  pendingNeeded : ∀ field ∈ pending, ∀ target, field.type.structName? = some target →
    m.Needs r v target
  /-- Every reference of a declared struct is settled or pending. -/
  references : ∀ s ∈ done, ∀ field ∈ s.fields, ∀ target, field.type.structName? = some target →
    Settled r done target ∨ ∃ waiting ∈ pending, waiting.type.structName? = some target

theorem Settled.mono {done more : List StructAt} {target : String} (h : Settled r done target) :
    Settled r (done ++ more) target := by
  rcases h with mem | shared
  · refine Or.inl ?_
    rw [StructAt.names, List.map_append]
    exact List.mem_append_left _ mem
  · exact Or.inr shared

theorem Declaring.topLevel_mem {pending : List FieldSpec} {done : List StructAt}
    (inv : Declaring m r v pending done) : m.struct.name ∈ StructAt.names done := by
  obtain ⟨others, rfl, -⟩ := inv.shape
  exact List.mem_cons_self ..

theorem definition?_of_ne {name : String} (ne : name ≠ m.struct.name) :
    m.definition? r name = r.find? name := by
  rw [definition?, if_neg ne]

/-- Where the top-level struct is among the names, a definition under another one stands for it. -/
theorem definition?_of_fresh {names : List String} {name : String} {spec : StructSpec}
    (top : m.struct.name ∈ names) (fresh : name ∉ names) (defined : r.find? name = some spec) :
    m.definition? r name = some spec := by
  have notTop : name ≠ m.struct.name := by
    intro same
    exact fresh (same ▸ top)
  rw [definition?_of_ne notTop, defined]

/-- A declared struct is the projection of what its name stands for. -/
theorem Declaring.definition {pending : List FieldSpec} {done : List StructAt}
    (inv : Declaring m r v pending done) {s : StructAt} (mem : s ∈ done) :
    ∃ spec, m.definition? r s.name = some spec ∧
      s.fields = (spec.fieldsAt v).map (·.atVersion v) := by
  obtain ⟨others, rfl, taken⟩ := inv.shape
  rcases List.mem_cons.1 mem with rfl | mem
  · exact ⟨m.struct, if_pos rfl, rfl⟩
  · obtain ⟨spec, found, rfl⟩ := taken s mem
    refine ⟨spec, ?_, rfl⟩
    rw [definition?_of_ne]
    · exact found
    · -- A second struct of that name would be declared twice.
      intro (same : spec.name = m.struct.name)
      have again : spec.name ∈ StructAt.names others := List.mem_map_of_mem mem
      rw [same] at again
      exact (List.nodup_cons.1 inv.nodup).1 again

theorem Declaring.init :
    Declaring m r v (m.struct.fieldsAt v) [m.struct.atVersion v (m.isFlexibleAt v) true false] where
  nodup := List.pairwise_singleton _ _
  shape := ⟨[], rfl, fun _ mem => nomatch mem⟩
  needed := by
    intro name mem
    rw [List.mem_singleton.1 mem]
    exact .topLevel
  pendingNeeded := fun _ mem _ target_eq => .refers .topLevel (if_pos rfl) mem target_eq
  references := by
    intro s mem field hfield target target_eq
    rw [List.mem_singleton.1 mem] at hfield
    obtain ⟨spec, hspec, rfl⟩ := List.mem_map.1 hfield
    exact Or.inr ⟨spec, hspec, target_eq⟩

/-- Pending fields may be dropped once they are settled. -/
theorem Declaring.drop {pending rest : List FieldSpec} {done : List StructAt}
    (inv : Declaring m r v pending done) (subset : rest ⊆ pending)
    (settled : ∀ field ∈ pending, field ∈ rest ∨
      ∀ target, field.type.structName? = some target → Settled r done target) :
    Declaring m r v rest done where
  nodup := inv.nodup
  shape := inv.shape
  needed := inv.needed
  pendingNeeded := fun field mem => inv.pendingNeeded field (subset mem)
  references := by
    intro s mem field hfield target target_eq
    rcases inv.references s mem field hfield target target_eq with done | ⟨waiting, hw, hwt⟩
    · exact Or.inl done
    · rcases settled waiting hw with hrest | done
      · exact Or.inr ⟨waiting, hrest, hwt⟩
      · exact Or.inl (done target hwt)

/-- A needed struct of the registry may be declared; its fields are then pending. -/
theorem Declaring.declare {pending : List FieldSpec} {done : List StructAt} {spec : StructSpec}
    (inv : Declaring m r v pending done) (found : r.find? spec.name = some spec)
    (needed : m.Needs r v spec.name) (fresh : spec.name ∉ StructAt.names done) :
    Declaring m r v (spec.fieldsAt v ++ pending)
      (done ++ [spec.atVersion v (m.isFlexibleAt v) false (r.isCommon spec.name)]) where
  nodup := by
    rw [StructAt.names, List.map_append]
    refine List.nodup_append.2 ⟨inv.nodup, List.pairwise_singleton _ _, ?_⟩
    rintro name mem name' mem' rfl
    rw [List.mem_singleton.1 mem'] at mem
    exact fresh mem
  shape := by
    obtain ⟨others, rfl, taken⟩ := inv.shape
    refine ⟨others ++ [spec.atVersion v (m.isFlexibleAt v) false (r.isCommon spec.name)], rfl, ?_⟩
    intro s mem
    rcases List.mem_append.1 mem with mem | mem
    · exact taken s mem
    · exact ⟨spec, found, List.mem_singleton.1 mem⟩
  needed := by
    intro name mem
    rw [StructAt.names, List.map_append] at mem
    rcases List.mem_append.1 mem with mem | mem
    · exact inv.needed name mem
    · exact List.mem_singleton.1 mem ▸ needed
  pendingNeeded := by
    intro field mem target target_eq
    rcases List.mem_append.1 mem with mem | mem
    · -- The name is new, so it is not that of the top-level struct, which is always declared.
      have notTop : spec.name ≠ m.struct.name := fun same => fresh (same ▸ inv.topLevel_mem)
      exact .refers needed (by rw [definition?_of_ne notTop]; exact found) mem target_eq
    · exact inv.pendingNeeded field mem target target_eq
  references := by
    intro s mem field hfield target target_eq
    rcases List.mem_append.1 mem with mem | mem
    · rcases inv.references s mem field hfield target target_eq with done | ⟨waiting, hw, hwt⟩
      · exact Or.inl done.mono
      · exact Or.inr ⟨waiting, List.mem_append_right _ hw, hwt⟩
    · rw [List.mem_singleton.1 mem] at hfield
      obtain ⟨source, hsource, rfl⟩ := List.mem_map.1 hfield
      exact Or.inr ⟨source, List.mem_append_left _ hsource, target_eq⟩

/-- Following the pending fields settles them all. -/
theorem Declaring.follows {pending : List FieldSpec} {done out : List StructAt}
    (inv : Declaring m r v pending done)
    (run : Registry.Follows r v (m.isFlexibleAt v) pending done out) :
    Declaring m r v [] out := by
  induction run with
  | nil => exact inv
  | @plain field rest done out noTarget _ ih =>
      refine ih (inv.drop (List.subset_cons_self ..) ?_)
      intro field' mem
      rcases List.mem_cons.1 mem with rfl | mem
      · exact Or.inr fun target target_eq => nomatch noTarget.symm.trans target_eq
      · exact Or.inl mem
  | @skip field rest done out spec found skipped _ ih =>
      obtain ⟨target_eq, defined⟩ := Registry.findStruct_eq_ok.1 found
      refine ih (inv.drop (List.subset_cons_self ..) ?_)
      intro field' mem
      rcases List.mem_cons.1 mem with rfl | mem
      · refine Or.inr fun target target_eq' => ?_
        rw [target_eq] at target_eq'
        obtain rfl := Option.some.inj target_eq'
        rcases skipped with shared | mem
        · exact Or.inr ⟨shared, spec, defined⟩
        · exact Or.inl mem
      · exact Or.inl mem
  | @enter field rest done out spec found notCommon fresh _ ih =>
      obtain ⟨target_eq, defined⟩ := Registry.findStruct_eq_ok.1 found
      have needed := inv.pendingNeeded field (List.mem_cons_self ..) _ target_eq
      have declared := inv.declare defined needed fresh
      rw [notCommon] at declared
      -- The field that led to the struct is settled by declaring it.
      refine ih (declared.drop ?_ ?_)
      · exact List.append_subset.2 ⟨List.subset_append_left .., fun _ mem =>
          List.mem_append_right _ (List.mem_cons_of_mem _ mem)⟩
      · intro field' mem
        rcases List.mem_append.1 mem with mem | mem
        · exact Or.inl (List.mem_append_left _ mem)
        · rcases List.mem_cons.1 mem with rfl | mem
          · refine Or.inr fun target target_eq' => Or.inl ?_
            rw [target_eq] at target_eq'
            obtain rfl := Option.some.inj target_eq'
            exact List.mem_map_of_mem (List.mem_append_right _ (List.mem_singleton.2 rfl))
          · exact Or.inl (List.mem_append_right _ mem)

/-! ### Common structs -/

theorem mem_commonStructs {spec : StructSpec} :
    spec ∈ r.commonStructs ↔ r.isCommon spec.name = true ∧ r.find? spec.name = some spec := by
  rw [Registry.commonStructs, List.mem_filterMap]
  constructor
  · rintro ⟨name, mem, found⟩
    obtain rfl := Registry.name_of_find? found
    exact ⟨by simpa [Registry.isCommon] using mem, found⟩
  · rintro ⟨shared, found⟩
    exact ⟨spec.name, by simpa [Registry.isCommon] using shared, found⟩

/-- Adding a common struct keeps the invariant, and what is declared stays declared. -/
theorem Declaring.addCommon {done out : List StructAt} {spec : StructSpec}
    (inv : Declaring m r v [] done) (mem : spec ∈ r.commonStructs)
    (run : r.addCommon v (m.isFlexibleAt v) done spec = .ok out) :
    Declaring m r v [] out ∧ StructAt.names done ⊆ StructAt.names out ∧
      spec.name ∈ StructAt.names out := by
  obtain ⟨shared, found⟩ := mem_commonStructs.1 mem
  unfold Registry.addCommon at run
  split at run
  · rename_i there
    cases run
    exact ⟨inv, fun _ h => h, there⟩
  · rename_i fresh
    have declared := inv.declare found (.common shared found) fresh
    rw [shared, List.append_nil] at declared
    have followed := Registry.follows_of_follow run
    have kept := followed.names_subset
    rw [StructAt.names, List.map_append] at kept
    refine ⟨declared.follows followed, fun _ h => kept (List.mem_append_left _ h), ?_⟩
    exact kept (List.mem_append_right _ (List.mem_singleton.2 rfl))

/-- When the walk has ended the invariant holds with nothing pending, and every common struct that
is defined has been declared. -/
theorem declaring_of_structsAt {out : List StructAt} (run : m.structsAt r v = .ok out) :
    Declaring m r v [] out ∧ ∀ spec ∈ r.commonStructs, spec.name ∈ StructAt.names out := by
  obtain ⟨own, first, others⟩ := Outcome.bind_eq_ok.1 run
  have start : Declaring m r v [] own := Declaring.init.follows (Registry.follows_of_follow first)
  -- The loop runs over the common structs that are left; those before them are declared.
  suffices ∀ specs ⊆ r.commonStructs, ∀ done, Declaring m r v [] done →
      specs.foldlM (r.addCommon v (m.isFlexibleAt v)) done = .ok out →
      Declaring m r v [] out ∧ StructAt.names done ⊆ StructAt.names out ∧
        ∀ spec ∈ specs, spec.name ∈ StructAt.names out by
    obtain ⟨inv, -, declared⟩ := this _ (List.Subset.refl _) own start others
    exact ⟨inv, declared⟩
  intro specs
  induction specs with
  | nil =>
      intro _ done inv loop
      cases loop
      exact ⟨inv, fun _ h => h, fun _ mem => nomatch mem⟩
  | cons spec specs ih =>
      intro subset done inv loop
      rw [List.foldlM_cons] at loop
      obtain ⟨next, step, rest⟩ := Outcome.bind_eq_ok.1 loop
      obtain ⟨mem, tail⟩ := List.cons_subset.1 subset
      obtain ⟨inv', kept, added⟩ := inv.addCommon mem step
      obtain ⟨inv'', kept', declared⟩ := ih tail next inv' rest
      refine ⟨inv'', fun _ h => kept' (kept h), ?_⟩
      intro other hother
      rcases List.mem_cons.1 hother with rfl | hother
      · exact kept' added
      · exact declared other hother

theorem atVersion_eq_ok {u : MessageAt} :
    m.atVersion r v = .ok u ↔
      m.checkVersion v = .ok () ∧ m.structsAt r v = .ok u.structs ∧
        u = ⟨m.name, m.role, v, u.structs⟩ := by
  unfold atVersion
  rw [Outcome.bind_eq_ok]
  constructor
  · rintro ⟨⟨⟩, checked, rest⟩
    obtain ⟨structs, walked, same⟩ := Outcome.bind_eq_ok.1 rest
    cases same
    exact ⟨checked, walked, rfl⟩
  · rintro ⟨checked, walked, same⟩
    exact ⟨(), checked, Outcome.bind_eq_ok.2 ⟨u.structs, walked, by rw [← same]⟩⟩

/-- Every struct of a unit is the projection of the top-level struct or of what the registry
defines, with the flexibility of the message. -/
theorem exists_spec_of_declared {u : MessageAt} (resolved : m.atVersion r v = .ok u) {s : StructAt}
    (mem : s ∈ u.structs) :
    ∃ spec, (spec = m.struct ∨ spec ∈ r.definitions) ∧
      s.fields = (spec.fieldsAt v).map (·.atVersion v) ∧
      s.hasUnknownTagged = m.isFlexibleAt v := by
  obtain ⟨-, walked, -⟩ := atVersion_eq_ok.1 resolved
  obtain ⟨others, shape, taken⟩ := (declaring_of_structsAt walked).1.shape
  rw [shape] at mem
  rcases List.mem_cons.1 mem with rfl | mem
  · exact ⟨m.struct, .inl rfl, rfl, rfl⟩
  · obtain ⟨spec, found, rfl⟩ := taken s mem
    exact ⟨spec, .inr (Registry.mem_of_find? found), rfl, rfl⟩

/-- Once every common struct is declared and nothing is pending, every reference is declared. -/
theorem Declaring.target_mem {done : List StructAt} (inv : Declaring m r v [] done)
    (shared : ∀ spec ∈ r.commonStructs, spec.name ∈ StructAt.names done) {s : StructAt}
    (mem : s ∈ done) {field : FieldAt} (hfield : field ∈ s.fields) {target : String}
    (target_eq : field.type.structName? = some target) : target ∈ StructAt.names done := by
  rcases inv.references s mem field hfield target target_eq with settled | ⟨_, pending, _⟩
  · rcases settled with there | ⟨isCommon, spec, found⟩
    · exact there
    · obtain rfl := Registry.name_of_find? found
      exact shared spec (mem_commonStructs.2 ⟨isCommon, found⟩)
  · cases pending

/-- What a declared name stands for refers to declared structs only. -/
theorem Declaring.refersWithin {done : List StructAt} (inv : Declaring m r v [] done)
    (shared : ∀ spec ∈ r.commonStructs, spec.name ∈ StructAt.names done) {name : String}
    {spec : StructSpec} (mem : name ∈ StructAt.names done)
    (defined : m.definition? r name = some spec) : spec.RefersWithin v (StructAt.names done) := by
  obtain ⟨s, hs, rfl⟩ := List.mem_map.1 mem
  obtain ⟨spec', defined', fields⟩ := inv.definition hs
  rw [defined] at defined'
  obtain rfl := Option.some.inj defined'
  intro field hfield target target_eq
  have there : field.atVersion v ∈ s.fields := by
    rw [fields]
    exact List.mem_map_of_mem hfield
  exact inv.target_mem shared hs there target_eq

theorem Declaring.mem_of_needs {done : List StructAt} (inv : Declaring m r v [] done)
    (shared : ∀ spec ∈ r.commonStructs, spec.name ∈ StructAt.names done) {name : String}
    (needs : m.Needs r v name) : name ∈ StructAt.names done := by
  induction needs with
  | topLevel => exact inv.topLevel_mem
  | common isCommon found =>
      obtain rfl := Registry.name_of_find? found
      exact shared _ (mem_commonStructs.2 ⟨isCommon, found⟩)
  | refers _ defined mem target_eq ih =>
      exact inv.refersWithin shared ih defined _ mem _ target_eq

/-- **Declarations.** A unit declares each struct that it needs once, and nothing else: so every
struct that a declared field mentions is declared. Each declaration is the projection of what its
name stands for. The top-level struct comes first and is the only one marked so; any other is marked
as common exactly if the registry has it as common. -/
theorem atVersion_declares_exactly_needed {u : MessageAt} (run : m.atVersion r v = .ok u) :
    (StructAt.names u.structs).Nodup ∧
    (∀ name, name ∈ StructAt.names u.structs ↔ m.Needs r v name) ∧
    (∀ s ∈ u.structs, ∀ field ∈ s.fields, ∀ target, field.type.structName? = some target →
      target ∈ StructAt.names u.structs) ∧
    (∀ s ∈ u.structs, ∃ spec, m.definition? r s.name = some spec ∧
      s.fields = (spec.fieldsAt v).map (·.atVersion v)) ∧
    ∃ first others, u.structs = first :: others ∧
      first.name = m.struct.name ∧ first.isTopLevel = true ∧
      ∀ s ∈ others, s.isTopLevel = false ∧ s.isCommon = r.isCommon s.name := by
  obtain ⟨-, walked, -⟩ := atVersion_eq_ok.1 run
  obtain ⟨inv, shared⟩ := declaring_of_structsAt walked
  refine ⟨inv.nodup, ?_, ?_, fun s mem => inv.definition mem, ?_⟩
  · intro name
    exact ⟨inv.needed name, inv.mem_of_needs shared⟩
  · intro s mem field hfield target target_eq
    exact inv.target_mem shared mem hfield target_eq
  · obtain ⟨others, structs_eq, taken⟩ := inv.shape
    refine ⟨_, others, structs_eq, rfl, rfl, ?_⟩
    intro s mem
    obtain ⟨spec, -, rfl⟩ := taken s mem
    exact ⟨rfl, rfl⟩

end MessageSpec

namespace Sample

def journalAtOne : MessageAt where
  name := "Journal"
  role := .data
  version := 1
  structs := [journal.struct.atVersion 1 false true false, entry.atVersion 1 false false true]

theorem atVersion_journal : journal.atVersion journalRegistry 1 = .ok journalAtOne := by
  cbv

/-- The struct that refers to itself is declared once, as a common struct. -/
theorem journal_declares_exactly_needed :
    journal.atVersion journalRegistry 1 = .ok journalAtOne ∧
      ∀ name, name ∈ ["Journal", "Entry"] ↔ journal.Needs journalRegistry 1 name :=
  ⟨atVersion_journal, (MessageSpec.atVersion_declares_exactly_needed atVersion_journal).2.1⟩

end Sample

end WireSchema
