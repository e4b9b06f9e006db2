import WireSchema.Proofs.Promotion

/-!
# The order of registrations

A registry keeps the first definition of a name and the first site of a struct, so the registries
that two orders of registration pass through differ. What they end with does not, as far as names
and shapes go, if the messages have different names:

* a call site bears the name of its message, so what a registration visits, and hence which
  definitions it meets, is the same whatever other messages are there (`visitedAcross_eq`);
* a sequence of registrations fails exactly if two of all the definitions met clash, which is no
  question of order (`recording_registrations`);
* a name is common if it is declared or referred to twice, which is a count.

The definitions kept for one name may still differ in their versions.
-/

namespace WireSchema

open Reference (seenAfter)

/-! ### Sites of other messages do not matter -/

/-- Two lists have the same call sites of a message. -/
def CallSite.SameFor (message : String) (seen seen' : List CallSite) : Prop :=
  ∀ site : CallSite, site.message = message → (site ∈ seen ↔ site ∈ seen')

namespace CallSite.SameFor

variable {message : String} {seen seen' : List CallSite}

theorem seenAfter (same : SameFor message seen seen') (refs : List Reference) :
    SameFor message (Reference.seenAfter seen refs) (Reference.seenAfter seen' refs) := by
  intro site here
  simp only [Reference.seenAfter, List.mem_append, same site here]

theorem cons (same : SameFor message seen seen') (site : CallSite) :
    SameFor message (site :: seen) (site :: seen') := by
  intro other here
  simp only [List.mem_cons, same other here]

theorem contains_eq (same : SameFor message seen seen') (parent field : String) :
    seen.contains ⟨message, parent, field⟩ = seen'.contains ⟨message, parent, field⟩ := by
  rw [Bool.eq_iff_iff, List.contains_iff_mem, List.contains_iff_mem]
  exact same _ rfl

end CallSite.SameFor

open CallSite (SameFor)

mutual

theorem StructSpec.freshReferences_congr (message : String) :
    ∀ (spec : StructSpec) {seen seen' : List CallSite}, SameFor message seen seen' →
      spec.freshReferences message seen = spec.freshReferences message seen'
  | ⟨name, _, fields⟩, _, _, same => by
      rw [StructSpec.freshReferences, StructSpec.freshReferences]
      exact FieldSpec.freshAmong_congr message name fields same

theorem FieldSpec.freshAmong_congr (message parent : String) :
    ∀ (fields : List FieldSpec) {seen seen' : List CallSite}, SameFor message seen seen' →
      FieldSpec.freshAmong message parent seen fields =
        FieldSpec.freshAmong message parent seen' fields
  | [], _, _, _ => by rw [FieldSpec.freshAmong, FieldSpec.freshAmong]
  | field :: fields, _, _, same => by
      rw [FieldSpec.freshAmong, FieldSpec.freshAmong,
        FieldSpec.freshReferences_congr message parent field same]
      -- Both walks go on with the same sites added.
      rw [FieldSpec.freshAmong_congr message parent fields (same.seenAfter _)]

theorem FieldSpec.freshReferences_congr (message parent : String) :
    ∀ (field : FieldSpec) {seen seen' : List CallSite}, SameFor message seen seen' →
      field.freshReferences message parent seen = field.freshReferences message parent seen'
  | ⟨name, type, _, _, _, _, _, _, inlineStruct⟩, _, _, same => by
      rw [FieldSpec.freshReferences, FieldSpec.freshReferences]
      cases type.structName? with
      | none => rfl
      | some typeName =>
          dsimp only
          rw [same.contains_eq,
            FieldSpec.freshInside_congr message inlineStruct (same.cons ⟨message, parent, name⟩)]

theorem FieldSpec.freshInside_congr (message : String) :
    ∀ (inlineStruct : Option StructSpec) {seen seen' : List CallSite},
      SameFor message seen seen' →
      FieldSpec.freshInside message seen inlineStruct =
        FieldSpec.freshInside message seen' inlineStruct
  | none, _, _, _ => by rw [FieldSpec.freshInside, FieldSpec.freshInside]
  | some spec, _, _, same => by
      rw [FieldSpec.freshInside, FieldSpec.freshInside]
      exact StructSpec.freshReferences_congr message spec same

end

theorem StructSpec.freshAcross_congr (message : String) (specs : List StructSpec)
    {seen seen' : List CallSite} (same : SameFor message seen seen') :
    freshAcross message seen specs = freshAcross message seen' specs := by
  induction specs generalizing seen seen' with
  | nil => rfl
  | cons spec specs ih =>
      rw [freshAcross, freshAcross, freshReferences_congr message spec same, ih (same.seenAfter _)]

/-- What registering a message visits depends only on its own sites. -/
theorem MessageSpec.freshReferences_congr (m : MessageSpec) {seen seen' : List CallSite}
    (same : SameFor m.name seen seen') : m.freshReferences seen = m.freshReferences seen' :=
  StructSpec.freshAcross_congr m.name _ same

/-! ### Sites bear the name of their message -/

theorem StructSpec.message_of_mem_references {message : String} {t : StructSpec} {ref : Reference}
    (mem : ref ∈ t.references message) : ref.site.message = message := by
  obtain ⟨field, hfield, mem⟩ := mem_references.1 mem
  obtain ⟨typeName, -, rfl | ⟨u, hu, inside⟩⟩ := FieldSpec.mem_references.1 mem
  · rfl
  · exact message_of_mem_references inside
termination_by sizeOf t
decreasing_by exact sizeOf_lt_of_inline hfield hu

theorem MessageSpec.message_of_mem_freshReferences {m : MessageSpec} {seen : List CallSite}
    {ref : Reference} (mem : ref ∈ m.freshReferences seen) : ref.site.message = m.name := by
  have listed := (m.freshReferences_sublist seen).subset mem
  obtain ⟨t, -, mem⟩ := List.mem_flatMap.1 listed
  exact StructSpec.message_of_mem_references mem

namespace MessageSpec

/-- Messages with names of their own, none of which a seen call site bears. -/
structure Separate (seen : List CallSite) (ms : List MessageSpec) : Prop where
  distinct : (ms.map (·.name)).Nodup
  unseen : ∀ m ∈ ms, ∀ site ∈ seen, site.message ≠ m.name

variable {seen : List CallSite} {m : MessageSpec} {ms : List MessageSpec}

theorem Separate.freshReferences_eq (apart : Separate seen (m :: ms)) :
    m.freshReferences seen = m.freshReferences [] := by
  refine m.freshReferences_congr fun site here => ?_
  constructor
  · intro mem
    exact absurd here (apart.unseen m (List.mem_cons_self ..) site mem)
  · intro none
    cases none

/-- The other messages are still separate after one has been walked. -/
theorem Separate.tail (apart : Separate seen (m :: ms)) :
    Separate (seenAfter seen (m.freshReferences seen)) ms := by
  obtain ⟨new, distinct⟩ := List.nodup_cons.1 apart.distinct
  refine ⟨distinct, fun other mem site visited => ?_⟩
  rcases List.mem_append.1 visited with visited | visited
  · obtain ⟨ref, fresh, rfl⟩ := List.mem_map.1 (List.mem_reverse.1 visited)
    rw [message_of_mem_freshReferences fresh]
    intro same
    exact new (List.mem_map.2 ⟨other, mem, same.symm⟩)
  · exact apart.unseen other (List.mem_cons_of_mem _ mem) site visited

theorem Separate.nil (distinct : (ms.map (·.name)).Nodup) : Separate [] ms :=
  ⟨distinct, by simp⟩

/-- Separate messages are visited as if each were registered alone. -/
theorem visitedAcross_eq (apart : Separate seen ms) :
    visitedAcross seen ms = ms.flatMap (·.freshReferences []) := by
  induction ms generalizing seen with
  | nil => rfl
  | cons m ms ih => rw [visitedAcross, ih apart.tail, apart.freshReferences_eq, List.flatMap_cons]

/-- The definitions that each of some messages meets when it is registered alone. -/
def metAcross (ms : List MessageSpec) : List StructSpec :=
  ms.flatMap (·.metDefinitions [])

end MessageSpec

/-! ### Sequences of registrations -/

namespace Registry

open MessageSpec (Separate metAcross visitedAcross visitedAcross_eq)

/-- Registering separate messages one after another meets all their definitions. -/
theorem recording_registrations {ms : List MessageSpec} {r : Registry}
    (apart : Separate r.visited ms) : Recording (metAcross ms) r (ms.foldlM register r) := by
  induction ms generalizing r with
  | nil => exact .of_eq rfl
  | cons m ms ih =>
      have first := r.recording_register m
      rw [MessageSpec.metDefinitions, apart.freshReferences_eq] at first
      rw [List.foldlM_cons, metAcross, List.flatMap_cons]
      refine first.bind fun next run => ih ?_
      obtain ⟨-, -, -, visited⟩ := register_eq_ok run
      rw [visited]
      exact apart.tail

/-- Registries that agree in the names that are common, in those that are defined, and in the shapes
of the definitions. -/
structure AgreesWith (r r' : Registry) : Prop where
  common : ∀ name, r.isCommon name = true ↔ r'.isCommon name = true
  defined : ∀ name, name ∈ r.definitions.map (·.name) ↔ name ∈ r'.definitions.map (·.name)
  shapes : ∀ d ∈ r.definitions, ∀ d' ∈ r'.definitions, d.name = d'.name → d.sameShape d' = true

section

variable {ms ms' : List MessageSpec} {r r' : Registry}

theorem mem_metAcross_of_perm (perm : ms.Perm ms') (s : StructSpec) :
    s ∈ metAcross ms ↔ s ∈ metAcross ms' := by
  simp only [metAcross, List.mem_flatMap, perm.mem_iff]

theorem clashes_of_perm (perm : ms.Perm ms') :
    empty.Clashes (metAcross ms) ↔ empty.Clashes (metAcross ms') := by
  simp only [Clashes, mem_metAcross_of_perm perm]

/-- A registration of separate messages succeeds exactly if no definitions of theirs clash. -/
theorem registrations_succeed_iff (distinct : (ms.map (·.name)).Nodup) :
    (∃ r, ms.foldlM register empty = .ok r) ↔ ¬ empty.Clashes (metAcross ms) := by
  have recording : Recording (metAcross ms) empty (ms.foldlM register empty) :=
    recording_registrations (.nil distinct)
  rw [← recording.fails_iff]
  cases ms.foldlM register empty with
  | ok r => simp
  | error c => simp

theorem holds_of_registrations (distinct : (ms.map (·.name)).Nodup)
    (run : ms.foldlM register empty = .ok r) :
    (∀ s ∈ metAcross ms, r.Holds s) ∧ ∀ d ∈ r.definitions, d ∈ metAcross ms := by
  have recording : Recording (metAcross ms) empty (ms.foldlM register empty) :=
    recording_registrations (.nil distinct)
  rw [run] at recording
  cases recording with
  | ok _ held source =>
      refine ⟨held, fun d mem => (source d mem).resolve_left ?_⟩
      exact List.not_mem_nil

/-- The names defined are those of the definitions met. -/
theorem mem_names_of_registrations (distinct : (ms.map (·.name)).Nodup)
    (run : ms.foldlM register empty = .ok r) (name : String) :
    name ∈ r.definitions.map (·.name) ↔ name ∈ (metAcross ms).map (·.name) := by
  obtain ⟨held, source⟩ := holds_of_registrations distinct run
  constructor
  · intro defined
    obtain ⟨d, mem, rfl⟩ := List.mem_map.1 defined
    exact List.mem_map_of_mem (source d mem)
  · intro met
    obtain ⟨s, mem, rfl⟩ := List.mem_map.1 met
    obtain ⟨d, found, -⟩ := held s mem
    rw [← name_of_find? found]
    exact List.mem_map_of_mem (mem_of_find? found)

theorem agreesWith_of_perm (perm : ms.Perm ms') (distinct : (ms.map (·.name)).Nodup)
    (run : ms.foldlM register empty = .ok r) (run' : ms'.foldlM register empty = .ok r') :
    r.AgreesWith r' := by
  have distinct' : (ms'.map (·.name)).Nodup := (perm.map _).nodup distinct
  refine ⟨fun name => ?_, fun name => ?_, fun d mem d' mem' same => ?_⟩
  · rw [(isCommon_of_registrations run).2, (isCommon_of_registrations run').2,
      visitedAcross_eq (.nil distinct), visitedAcross_eq (.nil distinct')]
    simp only [List.mem_flatMap, perm.mem_iff]
  · rw [mem_names_of_registrations distinct run, mem_names_of_registrations distinct' run']
    simp only [List.mem_map, mem_metAcross_of_perm perm]
  · -- The second run met `d` as well, and so holds its shape under the name.
    have met := (mem_metAcross_of_perm perm d).1 ((holds_of_registrations distinct run).2 d mem)
    obtain ⟨e, found, shape⟩ := (holds_of_registrations distinct' run').1 d met
    rw [same, find?_of_mem mem'] at found
    cases found
    exact sameShape_iff.2 (sameShape_iff.1 shape).symm

/-- Messages with different names can be registered in any order. -/
theorem registrations_of_perm (perm : ms.Perm ms') (distinct : (ms.map (·.name)).Nodup) :
    (∃ r, ms.foldlM register empty = .ok r) ↔ ∃ r, ms'.foldlM register empty = .ok r := by
  have distinct' : (ms'.map (·.name)).Nodup := (perm.map _).nodup distinct
  rw [registrations_succeed_iff distinct, registrations_succeed_iff distinct', clashes_of_perm perm]

end

/-! ### Two messages -/

theorem foldlM_register_pair {a b : MessageSpec} {r : Registry} :
    [a, b].foldlM register empty = .ok r ↔
      ∃ first, empty.register a = .ok first ∧ first.register b = .ok r := by
  rw [List.foldlM_cons, Outcome.bind_eq_ok]
  simp only [List.foldlM_cons, List.foldlM_nil, bind_pure]

/-- **Two messages in either order.** If two messages have different names, registering one and then
the other succeeds exactly if it does the other way round; and then the two registries have the same
common names, the same defined names, and definitions of the same shape for each of them. -/
theorem register_in_either_order {a b : MessageSpec} (distinct : a.name ≠ b.name) :
    ((∃ ra rab, empty.register a = .ok ra ∧ ra.register b = .ok rab) ↔
      ∃ rb rba, empty.register b = .ok rb ∧ rb.register a = .ok rba) ∧
    ∀ ra rab rb rba, empty.register a = .ok ra → ra.register b = .ok rab →
      empty.register b = .ok rb → rb.register a = .ok rba → rab.AgreesWith rba := by
  have perm : [a, b].Perm [b, a] := List.Perm.swap b a []
  have names : ([a, b].map (·.name)).Nodup := by simpa using distinct
  constructor
  · have either := registrations_of_perm perm names
    simp only [foldlM_register_pair] at either
    rw [exists_comm, either, exists_comm]
  · intro ra rab rb rba first second first' second'
    exact agreesWith_of_perm perm names (foldlM_register_pair.2 ⟨ra, first, second⟩)
      (foldlM_register_pair.2 ⟨rb, first', second'⟩)

end Registry

namespace Sample

/-- Either message may come first, although only one of them defines the struct that both use. -/
theorem parcel_letter_in_either_order :
    parcel.name ≠ letter.name ∧
      ∃ ra rab rb rba, Registry.empty.register parcel = .ok ra ∧ ra.register letter = .ok rab ∧
        Registry.empty.register letter = .ok rb ∧ rb.register parcel = .ok rba ∧
        rab.definitions.map (·.name) = ["Stamp", "Label", "Person"] ∧
        rab.common = ["Stamp", "Label", "Person"] ∧ rba.common = ["Stamp", "Person", "Label"] ∧
        rab.AgreesWith rba := by
  have distinct : parcel.name ≠ letter.name := by decide
  refine ⟨distinct, _, _, _, _, rfl, rfl, rfl, rfl, by decide, by decide, by decide, ?_⟩
  exact (Registry.register_in_either_order distinct).2 _ _ _ _ rfl rfl rfl rfl

end Sample

end WireSchema
