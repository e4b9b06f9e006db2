import WireSchema.Proofs.Registration

/-!
# Registering a message again

Registering a message that is already there changes nothing: its shared structs are held and common,
and the sites of the outermost fields have been seen, so the walk stops at each of them.

After a **failure** the same two facts say what a second attempt does. If a shared struct was
rejected, it is rejected again. If the definition at a call site was rejected, the site is marked by
then, so the second attempt passes over the very definition that was wrong; it fails only if another
definition, at a site that the first attempt had not reached, is wrong as well. The module ends with
a document that is rejected and then accepted.
-/

namespace WireSchema

namespace Registry

/-! ### Shared structs that are there already -/

theorem isCommon_promote (r : Registry) (name : String) :
    (r.promote name).isCommon name = true := by
  by_cases there : name ∈ r.common
  · rwa [promote_of_mem there, isCommon_iff]
  · rw [isCommon_iff, promote_common_of_not_mem there]
    exact List.mem_append_right _ (List.mem_singleton.2 rfl)

theorem declareCommon_of_held {r : Registry} {s : StructSpec} (held : r.Holds s)
    (common : r.isCommon s.name = true) : r.declareCommon s = .ok r := by
  obtain ⟨d, found, same⟩ := held
  have defined : r.define s = .ok r := by rw [define_of_some found, if_pos same]
  rw [declareCommon, defined]
  change Except.ok (r.promote s.name) = .ok r
  rw [promote_of_mem (isCommon_iff.1 common)]

/-- Declaring shared structs leaves all of them held and common. -/
theorem held_of_declared {r r' : Registry} {specs : List StructSpec}
    (run : specs.foldlM declareCommon r = .ok r') :
    ∀ s ∈ specs, r'.Holds s ∧ r'.isCommon s.name = true := by
  induction specs generalizing r with
  | nil => exact fun _ mem => nomatch mem
  | cons spec specs ih =>
      rw [List.foldlM_cons] at run
      obtain ⟨next, first, others⟩ := Outcome.bind_eq_ok.1 run
      intro s mem
      rcases List.mem_cons.1 mem with rfl | mem
      · have recording := recording_declareCommon r s
        rw [first] at recording
        obtain ⟨defined, -, same⟩ := Outcome.bind_eq_ok.1 first
        cases same
        -- What holds after the first step is kept by the others.
        have later := foldlM_declareCommon_extends others
        cases recording with
        | ok _ held _ =>
            exact ⟨(held s (List.mem_singleton.2 rfl)).mono later.definitions,
              later.isCommon (isCommon_promote defined s.name)⟩
      · exact ih others s mem

/-- Shared structs that were declared once are declared again without effect. -/
theorem declare_again {r declared later : Registry} {specs : List StructSpec}
    (run : specs.foldlM declareCommon r = .ok declared) (extended : declared.Extends later) :
    specs.foldlM declareCommon later = .ok later := by
  refine Outcome.foldlM_fixed fun s mem => ?_
  obtain ⟨held, common⟩ := held_of_declared run s mem
  exact declareCommon_of_held (held.mono extended.definitions) (extended.isCommon common)

/-! ### After a success -/

/-- **Registering again changes nothing.** -/
theorem register_again {r r' : Registry} {m : MessageSpec} (run : r.register m = .ok r') :
    r'.register m = .ok r' := by
  obtain ⟨declared, declares, walk, visited⟩ := register_eq_ok run
  have nothing : m.freshReferences r'.visited = [] := by
    rw [visited]
    exact MessageSpec.freshReferences_of_walked (List.Subset.refl _)
  rw [register_eq, declare_again declares (foldlM_record_extends walk), nothing]
  rfl

/-! ### After a failure -/

section

variable {r : Registry} {m : MessageSpec}

/-- A shared struct that was rejected is rejected again, in the same state. -/
theorem register_again_of_shared {declared : Registry} {before after : List StructSpec}
    {s : StructSpec} (split : m.commonStructs = before ++ s :: after)
    (run : before.foldlM declareCommon r = .ok declared) (contradicted : declared.Contradicts s) :
    declared.register m = .error ⟨s.name, declared⟩ := by
  have rejected : declared.declareCommon s = .error ⟨s.name, declared⟩ :=
    declareCommon_eq_error.2 ⟨contradicted, rfl⟩
  have stopped : m.commonStructs.foldlM declareCommon declared = .error ⟨s.name, declared⟩ := by
    rw [split, List.foldlM_append, declare_again run (.refl declared)]
    change List.foldlM declareCommon declared (s :: after) = _
    rw [List.foldlM_cons, rejected]
    rfl
  rw [register_eq, stopped]
  rfl

/-- With the shared structs in place, registering again walks the sites that are left. It fails
exactly if a definition there clashes. -/
theorem register_again_fails_iff {declared later : Registry}
    (declares : m.commonStructs.foldlM declareCommon r = .ok declared)
    (extended : declared.Extends later) :
    (∃ c, later.register m = .error c) ↔
      later.Clashes ((m.freshReferences later.visited).flatMap (·.inline.toList)) := by
  have walk : later.register m = (m.freshReferences later.visited).foldlM record later := by
    rw [register_eq, declare_again declares extended]
    rfl
  rw [walk]
  exact (Recording.foldlM recording_record _ later).fails_iff

/-- **A second attempt.** After a failed registration, registering the same message again fails
exactly if a shared struct of it is contradicted, or a definition at a call site that is not yet
visited clashes with one recorded or with another such definition. In the first case the second
failure is the first one over again. Otherwise the definition that was rejected stands at a call
site that is visited by now, and is passed over. -/
theorem failed_again_iff {c : Conflict} (failed : r.register m = .error c) :
    ((∃ again, c.reached.register m = .error again) ↔
      (∃ s ∈ m.commonStructs, c.reached.Contradicts s) ∨
        c.reached.Clashes ((m.freshReferences c.reached.visited).flatMap (·.inline.toList))) ∧
    ((∃ s ∈ m.commonStructs, c.reached.Contradicts s) → c.reached.register m = .error c) ∧
    ((∀ s ∈ m.commonStructs, ¬ c.reached.Contradicts s) →
      ∃ ref ∈ m.freshReferences r.visited, ∃ s, ref.inline = some s ∧ s.name = c.name ∧
        c.reached.Contradicts s ∧ ref.site ∈ c.reached.visited) := by
  cases rejected_of_register failed with
  | @shared declared before after s split run contradicted =>
      have again := register_again_of_shared split run contradicted
      have mem : s ∈ m.commonStructs := split ▸ List.mem_append_right _ (List.mem_cons_self ..)
      refine ⟨⟨fun _ => .inl ⟨s, mem, contradicted⟩, fun _ => ⟨_, again⟩⟩, fun _ => again, ?_⟩
      intro none
      exact absurd contradicted (none s mem)
  | @inline declared walked before after ref s declares split run carried contradicted =>
      have extended : declared.Extends (walked.visit ref.site) :=
        (stable_extends declared).visit ref.site (foldlM_record_extends run)
      -- The shared structs were all accepted, so none of them is contradicted now.
      have accepted : ¬ ∃ s ∈ m.commonStructs, (walked.visit ref.site).Contradicts s := by
        rintro ⟨shared, mem, contradiction⟩
        have held := (held_of_declared declares shared mem).1.mono extended.definitions
        exact held.not_contradicts contradiction
      refine ⟨?_, fun shared => absurd shared accepted, fun _ => ⟨ref, ?_, s, carried, rfl,
        contradicted, List.mem_cons_self ..⟩⟩
      · rw [register_again_fails_iff declares extended]
        exact ⟨.inr, fun either => either.resolve_left accepted⟩
      · rw [split]
        exact List.mem_append_right _ (List.mem_cons_self ..)

end

end Registry

/-! ### A document that is rejected and then accepted -/

namespace Sample

/-- Two fields that define one struct with different fields. -/
def routeText : String :=
  "\x7b\"name\":\"Route\",\"validVersions\":\"0\",\"fields\":[
    \x7b\"name\":\"From\",\"type\":\"Stop\",\"versions\":\"0+\",\"fields\":[
      \x7b\"name\":\"Id\",\"type\":\"int8\",\"versions\":\"0+\"\x7d]\x7d,
    \x7b\"name\":\"To\",\"type\":\"Stop\",\"versions\":\"0+\",\"fields\":[
      \x7b\"name\":\"Id\",\"type\":\"string\",\"versions\":\"0+\"\x7d]\x7d]\x7d"

def stopWith (id : FieldType) : StructSpec := ⟨"Stop", ⟨0, 0⟩, [pairField "Id" id none]⟩

/-- The message of the document, with further fields. -/
def routeVia (more : List FieldSpec) : MessageSpec where
  name := "Route"
  apiKey := none
  role := .data
  validVersions := ⟨0, 0⟩
  flexibleVersions := .none
  struct := ⟨"Route", ⟨0, 0⟩,
    pairField "From" (.struct "Stop") (some (stopWith (.int .int8))) ::
      pairField "To" (.struct "Stop") (some (stopWith .string)) :: more⟩
  commonStructs := []

set_option maxRecDepth 2000 in
theorem load_routeText : MessageSpec.load routeText = .ok (routeVia []) :=
  MessageSpec.load_of_tokens (by cbv) rfl rfl rfl

/-- What the failure leaves behind: the second site is marked, and its reference is not noted. -/
def routeReached : Registry where
  definitions := [stopWith (.int .int8)]
  firstSites := [("Stop", ⟨"Route", "Route", "From"⟩)]
  visited := [⟨"Route", "Route", "To"⟩, ⟨"Route", "Route", "From"⟩]
  common := []
  distinct := by decide

theorem routeVia_rejected (more : List FieldSpec) :
    Registry.empty.register (routeVia more) = .error ⟨"Stop", routeReached⟩ := rfl

/-- The second attempt passes over the site at which the first one failed. -/
theorem rejected_then_accepted :
    ¬ ∀ (text : String) (m : MessageSpec) (r : Registry) (c : Conflict),
      MessageSpec.load text = .ok m → r.Reachable → r.register m = .error c →
      ∃ again, c.reached.register m = .error again := by
  intro repeated
  obtain ⟨again, failed⟩ := repeated routeText (routeVia []) .empty _ load_routeText .empty
    (routeVia_rejected [])
  have accepted : routeReached.register (routeVia []) = .ok routeReached := rfl
  cases accepted.symm.trans failed

/-- A third definition, at a site that the first attempt does not reach. -/
def viaField : FieldSpec := pairField "Via" (.struct "Stop") (some (stopWith .bool))

theorem route_fails_again :
    Registry.empty.register (routeVia [viaField]) = .error ⟨"Stop", routeReached⟩ ∧
      ∃ again, routeReached.register (routeVia [viaField]) = .error again := by
  have failed := routeVia_rejected [viaField]
  refine ⟨failed, (Registry.failed_again_iff failed).1.2 (.inr ?_)⟩
  have left : (routeVia [viaField]).freshReferences routeReached.visited =
      [⟨⟨"Route", "Route", "Via"⟩, "Stop", some (stopWith .bool)⟩] := rfl
  rw [left]
  exact ⟨stopWith .bool, List.mem_cons_self .., stopWith (.int .int8), .inl (List.mem_cons_self ..),
    rfl, by decide⟩

/-- The registry after the failure and another message. -/
def journalAfterRoute : Registry where
  definitions := [stopWith (.int .int8), entry]
  firstSites := [("Stop", ⟨"Route", "Route", "From"⟩), ("Entry", ⟨"Journal", "Journal", "Head"⟩)]
  visited := [⟨"Journal", "Entry", "Next"⟩, ⟨"Journal", "Journal", "Head"⟩,
    ⟨"Route", "Route", "To"⟩, ⟨"Route", "Route", "From"⟩]
  common := ["Entry"]
  distinct := by decide

theorem journal_registered_again :
    routeReached.register journal = .ok journalAfterRoute ∧
      journalAfterRoute.register journal = .ok journalAfterRoute := by
  have run : routeReached.register journal = .ok journalAfterRoute := rfl
  exact ⟨run, Registry.register_again run⟩

end Sample

end WireSchema
