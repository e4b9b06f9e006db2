import Mathlib.Data.List.Induction
import WireSchema.Proofs.Registration

/-!
# What registrations leave in place

Units are generated and fixtures are materialized while messages are still being registered, so an
answer that a registry has given must stay the answer. A registration only **adds** to a registry,
also where it fails halfway; hence a struct that was found is found again, and a common struct stays
common.

What it adds is no other than what the message has: every definition in a registry is literally a
struct that some registered message declares as shared or defines in a field. The two facts are
about runs of any length (`afterAll`), with failures at any place in them.
-/

namespace WireSchema

/-- The structs that a message brings to a registry: those that it shares, and those that its fields
define at any depth. -/
def MessageSpec.Brings (m : MessageSpec) (d : StructSpec) : Prop :=
  d ∈ m.commonStructs ∨ m.DefinesInline d

namespace Registry

/-! ### Where definitions come from -/

/-- Every definition of a registry was there before, or is one that a message brings. -/
def AddsOnly (before : List StructSpec) (m : MessageSpec) (r : Registry) : Prop :=
  ∀ d ∈ r.definitions, d ∈ before ∨ m.Brings d

section

variable {before : List StructSpec} {m : MessageSpec}

theorem AddsOnly.define {r : Registry} (h : r.AddsOnly before m) {spec : StructSpec}
    (brought : m.Brings spec) : (reachedBy (r.define spec)).AddsOnly before m := by
  unfold Registry.define
  split
  · intro d mem
    rcases List.mem_append.1 mem with mem | mem
    · exact h d mem
    · exact .inr (List.mem_singleton.1 mem ▸ brought)
  · split <;> exact h

theorem AddsOnly.declareCommon {r : Registry} (h : r.AddsOnly before m) {spec : StructSpec}
    (shared : spec ∈ m.commonStructs) : (reachedBy (r.declareCommon spec)).AddsOnly before m := by
  refine reachedBy_bind (h.define (.inl shared)) fun r' next => ?_
  intro d mem
  rw [reachedBy, (promote_frame ..).1] at mem
  exact next d mem

theorem AddsOnly.record {r : Registry} (h : r.AddsOnly before m) {seen : List CallSite}
    {ref : Reference} (fresh : ref ∈ m.freshReferences seen) :
    (reachedBy (r.record ref)).AddsOnly before m := by
  have visited : (r.visit ref.site).AddsOnly before m := h
  have defined : (reachedBy ((r.visit ref.site).defineInline ref.inline)).AddsOnly before m := by
    cases inline : ref.inline with
    | none => exact visited
    | some spec => exact visited.define (.inr (MessageSpec.definesInline_of_fresh fresh inline))
  refine reachedBy_bind defined fun r' next => ?_
  intro d mem
  rw [reachedBy, (refer_frame ..).1] at mem
  exact next d mem

/-- Whether it succeeds or not, a registration adds only what the message brings. -/
theorem addsOnly_register (r : Registry) (m : MessageSpec) :
    (reachedBy (r.register m)).AddsOnly r.definitions m := by
  rw [register_eq]
  have start : r.AddsOnly r.definitions m := fun _ mem => .inl mem
  refine reachedBy_bind
    (reachedBy_foldlM_of_mem (fun _ _ shared h => h.declareCommon shared) start) ?_
  intro declared next
  exact reachedBy_foldlM_of_mem (fun _ _ fresh h => h.record fresh) next

end

/-! ### Runs -/

/-- The registry after registering messages one after another, be each a success or a failure. -/
def afterAll (ms : List MessageSpec) : Registry :=
  ms.foldl (fun r m => reachedBy (r.register m)) empty

theorem afterAll_concat (ms : List MessageSpec) (m : MessageSpec) :
    afterAll (ms ++ [m]) = reachedBy ((afterAll ms).register m) := by
  simp [afterAll, List.foldl_append]

/-- After a run, every definition is one that a message of the run brings. -/
theorem brought_of_mem_afterAll {ms : List MessageSpec} {d : StructSpec}
    (mem : d ∈ (afterAll ms).definitions) : ∃ m ∈ ms, m.Brings d := by
  induction ms using List.reverseRecOn with
  | nil => cases mem
  | append_singleton ms m ih =>
      rw [afterAll_concat] at mem
      rcases addsOnly_register (afterAll ms) m d mem with earlier | brought
      · obtain ⟨m', listed, brought⟩ := ih earlier
        exact ⟨m', List.mem_append_left _ listed, brought⟩
      · exact ⟨m, List.mem_append_right _ (List.mem_singleton_self m), brought⟩

/-- If the messages of a run are loaded, every definition is a struct of a loaded message. -/
theorem exists_owner {ms : List MessageSpec}
    (loaded : ∀ m ∈ ms, ∃ text, MessageSpec.load text = .ok m) {d : StructSpec}
    (mem : d ∈ (afterAll ms).definitions) :
    ∃ text owner, MessageSpec.load text = .ok owner ∧ owner.HasStruct d := by
  obtain ⟨owner, listed, brought⟩ := brought_of_mem_afterAll mem
  obtain ⟨text, loaded⟩ := loaded owner listed
  exact ⟨text, owner, loaded, .inr brought⟩

/-! ### Answers -/

/-- A registry answers as another did, and may answer more: definitions and common names are added
at the end, every struct that was found is still found, and what was common is common. -/
structure KeepsAnswers (r r' : Registry) : Prop where
  definitions : r.definitions <+: r'.definitions
  common : r.common <+: r'.common
  findStruct : ∀ field spec, r.findStruct field = .ok spec → r'.findStruct field = .ok spec
  isCommon : ∀ name, r.isCommon name = true → r'.isCommon name = true

theorem Extends.keepsAnswers {r r' : Registry} (h : r.Extends r') : r.KeepsAnswers r' where
  definitions := h.definitions
  common := h.common
  findStruct field spec found := by
    obtain ⟨refers, defined⟩ := findStruct_eq_ok.1 found
    exact findStruct_eq_ok.2 ⟨refers, find?_of_prefix h.definitions defined⟩
  isCommon _ shared := h.isCommon shared

/-- Every definition of a registry is what it finds under the name of the definition, and is brought
by one of some messages. -/
def ConsistsOf (r : Registry) (ms : List MessageSpec) : Prop :=
  ∀ d ∈ r.definitions, r.find? d.name = some d ∧ ∃ m ∈ ms, m.Brings d

theorem consistsOf_afterAll (ms : List MessageSpec) : (afterAll ms).ConsistsOf ms := by
  intro d mem
  exact ⟨find?_of_mem mem, brought_of_mem_afterAll mem⟩

/-- **Persistence.** Whatever has been registered, registering one more message leaves every earlier
answer as it was, whether it succeeds or fails. Every definition that is then in the registry is
held under its own name and is literally a struct that one of the messages shares or defines. -/
theorem register_keeps_answers (ms : List MessageSpec) (m : MessageSpec) :
    (afterAll ms).KeepsAnswers (reachedBy ((afterAll ms).register m)) ∧
      (reachedBy ((afterAll ms).register m)).ConsistsOf (ms ++ [m]) := by
  constructor
  · exact ((stable_extends _).register (Extends.refl _) m).keepsAnswers
  · rw [← afterAll_concat]
    exact consistsOf_afterAll (ms ++ [m])

end Registry

end WireSchema
