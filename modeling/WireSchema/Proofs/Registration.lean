import WireSchema.Proofs.Definitions

/-!
# Runs of registrations

A registration is a sequence of small changes to a registry: a definition is recorded, a name is
made common, a site is marked, a first site is noted. It stops at the first definition that is
rejected and leaves what it has done so far. What holds of a registry after *any* sequence of
registrations, failed ones included, is therefore what each small change preserves: a **stable**
property.

The module packages that induction once (`Stable.register`, `Reachable.of_stable`), derives that a
registry only grows, and says how a registration fails: at which definition, and in which state.
-/

namespace WireSchema

namespace Registry

/-! ### Single changes -/

theorem isCommon_iff {r : Registry} {name : String} : r.isCommon name = true ↔ name ∈ r.common := by
  simp [isCommon]

theorem promote_of_mem {r : Registry} {name : String} (there : name ∈ r.common) :
    r.promote name = r := by
  rw [promote, if_pos (isCommon_iff.2 there)]

theorem promote_common_of_not_mem {r : Registry} {name : String} (absent : name ∉ r.common) :
    (r.promote name).common = r.common ++ [name] := by
  rw [promote, if_neg (mt isCommon_iff.1 absent)]

theorem promote_firstSites (r : Registry) (name : String) :
    (r.promote name).firstSites = r.firstSites := by
  unfold promote
  split <;> rfl

theorem define_frame {r r' : Registry} {spec : StructSpec} (run : r.define spec = .ok r') :
    r'.common = r.common ∧ r'.firstSites = r.firstSites := by
  unfold define at run
  split at run
  · cases run
    exact ⟨rfl, rfl⟩
  · split at run
    · cases run
      exact ⟨rfl, rfl⟩
    · cases run

theorem record_eq_ok {r r' : Registry} {ref : Reference} (run : r.record ref = .ok r') :
    ∃ defined, r' = defined.refer ref.typeName ref.site ∧
      ((ref.inline = none ∧ defined = r.visit ref.site) ∨
        ∃ s, ref.inline = some s ∧ (r.visit ref.site).define s = .ok defined) := by
  obtain ⟨defined, hdefined, same⟩ := Outcome.bind_eq_ok.1 run
  cases same
  refine ⟨defined, rfl, ?_⟩
  cases inline : ref.inline with
  | none =>
      rw [inline] at hdefined
      cases hdefined
      exact .inl ⟨rfl, rfl⟩
  | some s =>
      rw [inline] at hdefined
      exact .inr ⟨s, rfl, hdefined⟩

/-! ### What every change preserves -/

/-- The registry that a step leaves behind, whether it succeeds or not. -/
def reachedBy : Except Conflict Registry → Registry
  | .ok r => r
  | .error conflict => conflict.reached

/-- A property that no single change to a registry destroys. -/
structure Stable (motive : Registry → Prop) : Prop where
  define {r : Registry} {spec : StructSpec} (h : motive r) (new : r.find? spec.name = none) :
    motive (r.add spec new)
  promote {r : Registry} {name : String} (h : motive r) (new : r.isCommon name = false) :
    motive { r with common := r.common ++ [name] }
  visit {r : Registry} (site : CallSite) (h : motive r) : motive (r.visit site)
  note {r : Registry} {typeName : String} (site : CallSite) (h : motive r)
    (new : r.firstSites.lookup typeName = none) :
    motive { r with firstSites := r.firstSites ++ [(typeName, site)] }

section

variable {motive : Registry → Prop}

theorem reachedBy_bind {x : Except Conflict Registry} {f : Registry → Except Conflict Registry}
    (first : motive (reachedBy x)) (second : ∀ r, motive r → motive (reachedBy (f r))) :
    motive (reachedBy (x >>= f)) := by
  cases x with
  | error conflict => exact first
  | ok r => exact second r first

theorem reachedBy_foldlM_of_mem {α : Type} {step : Registry → α → Except Conflict Registry}
    {items : List α} (each : ∀ r, ∀ item ∈ items, motive r → motive (reachedBy (step r item)))
    {r : Registry} (h : motive r) : motive (reachedBy (items.foldlM step r)) := by
  induction items generalizing r with
  | nil => exact h
  | cons item items ih =>
      rw [List.foldlM_cons]
      refine reachedBy_bind (each r item (List.mem_cons_self ..) h) fun _ next => ih ?_ next
      exact fun r' later mem => each r' later (List.mem_cons_of_mem _ mem)

theorem reachedBy_foldlM {α : Type} {step : Registry → α → Except Conflict Registry}
    (each : ∀ r item, motive r → motive (reachedBy (step r item))) (items : List α) {r : Registry}
    (h : motive r) : motive (reachedBy (items.foldlM step r)) :=
  reachedBy_foldlM_of_mem (fun r item _ => each r item) h

namespace Stable

variable (stable : Stable motive) {r : Registry}

include stable

theorem reachedBy_define (h : motive r) (spec : StructSpec) :
    motive (reachedBy (r.define spec)) := by
  unfold Registry.define
  split
  · rename_i new
    exact stable.define h new
  · split <;> exact h

theorem promoted (h : motive r) (name : String) : motive (r.promote name) := by
  unfold Registry.promote
  split
  · exact h
  · rename_i new
    exact stable.promote h (Bool.eq_false_iff.2 new)

theorem referred (h : motive r) (typeName : String) (site : CallSite) :
    motive (r.refer typeName site) := by
  unfold Registry.refer
  split
  · exact h
  · split
    · rename_i new
      exact stable.note site h new
    · split
      · exact h
      · exact stable.promoted h typeName

theorem reachedBy_declareCommon (r : Registry) (spec : StructSpec) (h : motive r) :
    motive (reachedBy (r.declareCommon spec)) :=
  reachedBy_bind (stable.reachedBy_define h spec) fun _ next => stable.promoted next spec.name

theorem reachedBy_record (r : Registry) (ref : Reference) (h : motive r) :
    motive (reachedBy (r.record ref)) := by
  have visited := stable.visit ref.site h
  refine reachedBy_bind ?_ fun _ next => stable.referred next ref.typeName ref.site
  cases ref.inline with
  | none => exact visited
  | some spec => exact stable.reachedBy_define visited spec

/-- A stable property survives a registration, be it a success or a failure. -/
theorem register (h : motive r) (m : MessageSpec) : motive (reachedBy (r.register m)) := by
  rw [register_eq]
  exact reachedBy_bind (reachedBy_foldlM stable.reachedBy_declareCommon m.commonStructs h)
    fun _ next => reachedBy_foldlM stable.reachedBy_record _ next

end Stable

end

/-! ### Registries that can be reached -/

/-- The registries that registrations lead to, from the empty one on. -/
inductive Reachable : Registry → Prop where
  | empty : Reachable empty
  | register {r : Registry} (before : Reachable r) (m : MessageSpec) :
      Reachable (reachedBy (r.register m))

theorem Reachable.of_stable {motive : Registry → Prop} (stable : Stable motive)
    (init : motive Registry.empty) {r : Registry} (reachable : r.Reachable) : motive r := by
  induction reachable with
  | empty => exact init
  | register _ m ih => exact stable.register ih m

/-! ### Growth -/

/-- Every component of a registry is a part of that of another: definitions, first sites and common
names are added at the end, and sites in front. -/
structure Extends (r r' : Registry) : Prop where
  definitions : r.definitions <+: r'.definitions
  firstSites : r.firstSites <+: r'.firstSites
  visited : r.visited <:+ r'.visited
  common : r.common <+: r'.common

theorem Extends.refl (r : Registry) : r.Extends r :=
  ⟨List.prefix_refl _, List.prefix_refl _, List.suffix_refl _, List.prefix_refl _⟩

theorem stable_extends (r : Registry) : Stable r.Extends where
  define h _ := { h with definitions := h.definitions.trans (List.prefix_append _ _) }
  promote h _ := { h with common := h.common.trans (List.prefix_append _ _) }
  visit site h := { h with visited := h.visited.trans (List.suffix_cons site _) }
  note _ h _ := { h with firstSites := h.firstSites.trans (List.prefix_append _ _) }

theorem foldlM_declareCommon_extends {r r' : Registry} {specs : List StructSpec}
    (run : specs.foldlM declareCommon r = .ok r') : r.Extends r' := by
  have := reachedBy_foldlM (stable_extends r).reachedBy_declareCommon specs (Extends.refl r)
  rwa [run] at this

theorem foldlM_record_extends {r r' : Registry} {refs : List Reference}
    (run : refs.foldlM record r = .ok r') : r.Extends r' := by
  have := reachedBy_foldlM (stable_extends r).reachedBy_record refs (Extends.refl r)
  rwa [run] at this

theorem Extends.isCommon {r r' : Registry} (h : r.Extends r') {name : String}
    (common : r.isCommon name = true) : r'.isCommon name = true := by
  rw [isCommon_iff] at common ⊢
  exact h.common.subset common

/-! ### How a registration fails -/

/-- The registry has another shape under the name of a definition. -/
def Contradicts (r : Registry) (s : StructSpec) : Prop :=
  ∃ d, r.find? s.name = some d ∧ d.sameShape s = false

theorem Holds.not_contradicts {r : Registry} {s : StructSpec} (held : r.Holds s) :
    ¬ r.Contradicts s := by
  rintro ⟨d', found', differs⟩
  obtain ⟨d, found, same⟩ := held
  cases found.symm.trans found'
  cases same.symm.trans differs

theorem define_eq_error {r : Registry} {s : StructSpec} {c : Conflict} :
    r.define s = .error c ↔ r.Contradicts s ∧ c = ⟨s.name, r⟩ := by
  unfold Contradicts
  cases found : r.find? s.name with
  | none => simp [define_of_none found]
  | some d =>
      rw [define_of_some found]
      cases differs : d.sameShape s with
      | true => simp [differs]
      | false => simpa [differs] using eq_comm

theorem declareCommon_eq_error {r : Registry} {s : StructSpec} {c : Conflict} :
    r.declareCommon s = .error c ↔ r.Contradicts s ∧ c = ⟨s.name, r⟩ := by
  rw [← define_eq_error, declareCommon]
  cases r.define s with
  | error e => exact Iff.rfl
  | ok r' =>
      constructor <;> intro run <;> cases run

theorem record_eq_error {r : Registry} {ref : Reference} {c : Conflict}
    (failed : r.record ref = .error c) :
    ∃ s, ref.inline = some s ∧ r.Contradicts s ∧ c = ⟨s.name, r.visit ref.site⟩ := by
  unfold record at failed
  cases inline : ref.inline with
  | none =>
      rw [inline] at failed
      cases failed
  | some s =>
      rw [inline] at failed
      cases rejected : (r.visit ref.site).define s with
      | ok r' =>
          rw [defineInline, rejected] at failed
          cases failed
      | error e =>
          rw [defineInline, rejected] at failed
          cases failed
          exact ⟨s, rfl, define_eq_error.1 rejected⟩

/-- How registering `m` in `r` fails. -/
inductive Rejected (r : Registry) (m : MessageSpec) : Conflict → Prop where
  /-- A shared struct is rejected. No call site has been visited. -/
  | shared {declared : Registry} {before after : List StructSpec} {s : StructSpec}
      (split : m.commonStructs = before ++ s :: after)
      (run : before.foldlM declareCommon r = .ok declared)
      (contradicted : declared.Contradicts s) : Rejected r m ⟨s.name, declared⟩
  /-- The definition at a call site is rejected. The site has been marked as visited. -/
  | inline {declared walked : Registry} {before after : List Reference} {ref : Reference}
      {s : StructSpec} (declares : m.commonStructs.foldlM declareCommon r = .ok declared)
      (split : m.freshReferences r.visited = before ++ ref :: after)
      (run : before.foldlM record declared = .ok walked) (carried : ref.inline = some s)
      (contradicted : walked.Contradicts s) : Rejected r m ⟨s.name, walked.visit ref.site⟩

theorem rejected_of_register {r : Registry} {m : MessageSpec} {c : Conflict}
    (failed : r.register m = .error c) : Rejected r m c := by
  rw [register_eq] at failed
  cases declares : m.commonStructs.foldlM declareCommon r with
  | error e =>
      rw [declares] at failed
      cases failed
      obtain ⟨before, s, after, declared, split, run, failed⟩ := Outcome.foldlM_eq_error declares
      obtain ⟨contradicted, rfl⟩ := declareCommon_eq_error.1 failed
      exact .shared split run contradicted
  | ok declared =>
      rw [declares] at failed
      obtain ⟨before, ref, after, walked, split, run, failed⟩ := Outcome.foldlM_eq_error failed
      obtain ⟨s, carried, contradicted, rfl⟩ := record_eq_error failed
      exact .inline declares split run carried contradicted

/-! ### Clashes -/

/-- Among some definitions there is one that differs in shape from another of the same name, or from
one that the registry has. -/
def Clashes (r : Registry) (specs : List StructSpec) : Prop :=
  ∃ s ∈ specs, ∃ d, (d ∈ r.definitions ∨ d ∈ specs) ∧ d.name = s.name ∧ d.sameShape s = false

/-- A step that meets some definitions fails exactly if they clash. -/
theorem Recording.fails_iff {specs : List StructSpec} {r : Registry} {x : Except Conflict Registry}
    (recording : Recording specs r x) :
    (∃ c, x = .error c) ↔ r.Clashes specs := by
  cases recording with
  | conflict known met same differs =>
      exact ⟨fun _ => ⟨_, met, _, known, same, differs⟩, fun _ => ⟨_, rfl⟩⟩
  | @ok r' extended held source =>
      constructor
      · rintro ⟨c, failed⟩
        cases failed
      rintro ⟨s, met, d, known, same, differs⟩
      -- The registry after the step has the shape of `d` under the name, and holds `s` there.
      have shape : r'.Holds d := by
        rcases known with known | known
        · exact ⟨d, find?_of_prefix extended (find?_of_mem known), sameShape_iff.2 rfl⟩
        · exact held d known
      obtain ⟨e, found, like_d⟩ := shape
      obtain ⟨e', found', like_s⟩ := held s met
      rw [same, found'] at found
      obtain rfl := Option.some.inj found
      have agree : d.sameShape s = true :=
        sameShape_iff.2 ((sameShape_iff.1 like_d).symm.trans (sameShape_iff.1 like_s))
      cases agree.symm.trans differs

end Registry

end WireSchema
