import WireSchema.Proofs.Loaded
import WireSchema.Proofs.References

/-!
# The definitions that a registry holds

A document may define one struct name in several places. A registration compares the definitions
that it **meets**: the shared structs, and those at the call sites that it visits. It fails exactly
if two of one name differ in shape, and otherwise it holds every definition that it met.

A definition inside a call site that was seen before is *not* met. Call sites are told apart by the
names of the message, of the struct around them and of the field, so two copies of a struct that
agree in their own fields may disagree in what those fields define, and the second is passed over.
The last section says exactly which definitions of a document a registry stands for, and has a
document in which one is contradicted.
-/

namespace WireSchema

namespace Registry

/-! ### One definition -/

/-- A registry holds a definition if it has one of the same name and shape. -/
def Holds (r : Registry) (s : StructSpec) : Prop :=
  ∃ d, r.find? s.name = some d ∧ d.sameShape s = true

theorem sameShape_iff {s t : StructSpec} : s.sameShape t = true ↔ s.shape = t.shape :=
  beq_iff_eq

theorem find?_of_prefix {r r' : Registry} (extended : r.definitions <+: r'.definitions)
    {name : String} {d : StructSpec} (found : r.find? name = some d) : r'.find? name = some d := by
  obtain ⟨more, more_eq⟩ := extended
  rw [find?, ← more_eq, List.find?_append, show r.definitions.find? _ = some d from found]
  rfl

theorem Holds.mono {r r' : Registry} (extended : r.definitions <+: r'.definitions)
    {s : StructSpec} (held : r.Holds s) : r'.Holds s := by
  obtain ⟨d, found, same⟩ := held
  exact ⟨d, find?_of_prefix extended found, same⟩

/-- What a step that meets the definitions `specs` does to those of a registry. -/
inductive Recording (specs : List StructSpec) (r : Registry) : Except Conflict Registry → Prop where
  /-- They are only added to, what is met is held, and nothing else is added. -/
  | ok {r' : Registry} (extended : r.definitions <+: r'.definitions)
      (held : ∀ s ∈ specs, r'.Holds s)
      (source : ∀ d ∈ r'.definitions, d ∈ r.definitions ∨ d ∈ specs) : Recording specs r (.ok r')
  /-- Or one that is met differs in shape from one of the same name. -/
  | conflict {conflict : Conflict} {d s : StructSpec} (known : d ∈ r.definitions ∨ d ∈ specs)
      (met : s ∈ specs) (same : d.name = s.name) (differs : d.sameShape s = false) :
      Recording specs r (.error conflict)

theorem Recording.of_eq {r r' : Registry} (same : r'.definitions = r.definitions) :
    Recording [] r (.ok r') :=
  .ok (same ▸ List.prefix_refl _) (fun _ mem => nomatch mem) (fun _ mem => Or.inl (same ▸ mem))

theorem Recording.bind {specs more : List StructSpec} {r : Registry}
    {x : Except Conflict Registry} {f : Registry → Except Conflict Registry}
    (first : Recording specs r x) (second : ∀ r', x = .ok r' → Recording more r' (f r')) :
    Recording (specs ++ more) r (x >>= f) := by
  cases first with
  | conflict known met same differs =>
      exact .conflict (known.imp_right (List.mem_append_left _)) (List.mem_append_left _ met) same
        differs
  | @ok r' extended held source =>
      -- Whatever the second step knows was known before or met in the first.
      have known : ∀ d, d ∈ r'.definitions ∨ d ∈ more → d ∈ r.definitions ∨ d ∈ specs ++ more := by
        rintro d (mem | mem)
        · exact (source d mem).imp_right (List.mem_append_left _)
        · exact Or.inr (List.mem_append_right _ mem)
      have later := second r' rfl
      change Recording (specs ++ more) r (f r')
      generalize f r' = y at later ⊢
      cases later with
      | conflict known' met same differs =>
          exact .conflict (known _ known') (List.mem_append_right _ met) same differs
      | ok extended' held' source' =>
          refine .ok (extended.trans extended') ?_ (fun d mem => known d (source' d mem))
          intro s mem
          rcases List.mem_append.1 mem with mem | mem
          · exact (held s mem).mono extended'
          · exact held' s mem

theorem Recording.foldlM {α : Type} {step : Registry → α → Except Conflict Registry}
    {met : α → List StructSpec} (each : ∀ r item, Recording (met item) r (step r item))
    (items : List α) (r : Registry) : Recording (items.flatMap met) r (items.foldlM step r) := by
  induction items generalizing r with
  | nil => exact .of_eq rfl
  | cons item items ih =>
      rw [List.foldlM_cons, List.flatMap_cons]
      exact (each r item).bind fun next _ => ih next

theorem recording_define (r : Registry) (spec : StructSpec) :
    Recording [spec] r (r.define spec) := by
  have here : spec ∈ [spec] := List.mem_singleton.2 rfl
  cases found : r.find? spec.name with
  | none =>
      rw [define_of_none found]
      refine .ok (List.prefix_append _ _) ?_ (fun d mem => List.mem_append.1 mem)
      intro s mem
      obtain rfl := List.mem_singleton.1 mem
      exact ⟨s, find?_of_mem (List.mem_append_right _ here), sameShape_iff.2 rfl⟩
  | some existing =>
      rw [define_of_some found]
      split
      · rename_i same
        refine .ok (List.prefix_refl _) ?_ (fun _ mem => Or.inl mem)
        intro s mem
        obtain rfl := List.mem_singleton.1 mem
        exact ⟨existing, found, same⟩
      · rename_i differs
        exact .conflict (Or.inl (mem_of_find? found)) here (name_of_find? found)
          (Bool.eq_false_iff.2 differs)

/-! ### A whole registration -/

theorem recording_declareCommon (r : Registry) (spec : StructSpec) :
    Recording [spec] r (r.declareCommon spec) :=
  (recording_define r spec).bind fun _ _ => .of_eq (promote_frame ..).1

theorem recording_record (r : Registry) (ref : Reference) :
    Recording ref.inline.toList r (r.record ref) := by
  have defined : Recording ref.inline.toList r ((r.visit ref.site).defineInline ref.inline) := by
    cases ref.inline with
    | none => exact .of_eq rfl
    | some spec =>
        have visited : Recording [] r (.ok (r.visit ref.site)) := .of_eq rfl
        exact visited.bind fun r' _ => recording_define r' spec
  have := defined.bind fun r' _ => Recording.of_eq (refer_frame r' ref.typeName ref.site).1
  rwa [List.append_nil] at this

end Registry

/-- The definitions that registering a message meets: the shared structs, and those at the call
sites that are visited. -/
def MessageSpec.metDefinitions (m : MessageSpec) (seen : List CallSite) : List StructSpec :=
  m.commonStructs ++ (m.freshReferences seen).flatMap (·.inline.toList)

theorem Registry.recording_register (r : Registry) (m : MessageSpec) :
    Recording (m.metDefinitions r.visited) r (r.register m) := by
  rw [register_eq]
  have declared := Recording.foldlM recording_declareCommon m.commonStructs r
  rw [List.flatMap_singleton'] at declared
  exact declared.bind fun next _ => .foldlM recording_record _ next

/-! ### Definitions and references -/

theorem StructSpec.sizeOf_lt_of_inline {s u : StructSpec} {f : FieldSpec} (mem : f ∈ s.fields)
    (inline : f.inlineStruct = some u) : sizeOf u < sizeOf s := by
  obtain ⟨name, versions, fields⟩ := s
  have listed := List.sizeOf_lt_of_mem mem
  obtain ⟨_, _, _, _, _, _, _, _, inlineStruct⟩ := f
  simp only at inline
  subst inline
  simp at listed ⊢
  omega

theorem StructSpec.definedIn_of_mem_references {message : String} {t : StructSpec}
    {ref : Reference} (mem : ref ∈ t.references message) {s : StructSpec}
    (inline : ref.inline = some s) : s.DefinedIn t := by
  obtain ⟨field, hfield, mem⟩ := mem_references.1 mem
  obtain ⟨typeName, -, rfl | ⟨u, hu, inside⟩⟩ := FieldSpec.mem_references.1 mem
  · exact .field hfield inline
  · exact .nested hfield hu (definedIn_of_mem_references inside inline)
termination_by sizeOf t
decreasing_by exact sizeOf_lt_of_inline hfield hu

/-- A field that carries a definition refers to a struct, so every definition inside a struct that
was built from records stands at a reference. -/
theorem StructSpec.DefinedIn.exists_reference {s t : StructSpec} (inside : s.DefinedIn t)
    (built : t.FromRecords) (message : String) :
    ∃ ref ∈ t.references message, ref.inline = some s := by
  induction inside with
  | @field t f mem inline =>
      obtain ⟨typeName, refers⟩ := built.structName?_of_inline mem inline
      exact ⟨_, mem_references.2 ⟨f, mem, FieldSpec.mem_references.2 ⟨typeName, refers, .inl rfl⟩⟩,
        inline⟩
  | @nested t u f mem inline _ ih =>
      obtain ⟨typeName, refers⟩ := built.structName?_of_inline mem inline
      obtain ⟨ref, hin, href⟩ := ih (built.inline mem inline)
      exact ⟨ref, mem_references.2
        ⟨f, mem, FieldSpec.mem_references.2 ⟨typeName, refers, .inr ⟨u, inline, hin⟩⟩⟩, href⟩

namespace MessageSpec

variable {m : MessageSpec} {s : StructSpec}

theorem mem_metDefinitions {seen : List CallSite} :
    s ∈ m.metDefinitions seen ↔
      s ∈ m.commonStructs ∨ ∃ ref ∈ m.freshReferences seen, ref.inline = some s := by
  simp [metDefinitions]

/-- What a call site carries is defined inside the message. -/
theorem definesInline_of_fresh {seen : List CallSite} {ref : Reference}
    (fresh : ref ∈ m.freshReferences seen) (inline : ref.inline = some s) : m.DefinesInline s := by
  have mem := (m.freshReferences_sublist seen).subset fresh
  obtain ⟨t, ht, mem⟩ := List.mem_flatMap.1 mem
  have inside := StructSpec.definedIn_of_mem_references mem inline
  rcases List.mem_append.1 ht with ht | ht
  · exact .inr ⟨t, ht, inside⟩
  · exact .inl (List.mem_singleton.1 ht ▸ inside)

/-- What a registration meets is a struct of the message. -/
theorem hasStruct_of_met {seen : List CallSite} (met : s ∈ m.metDefinitions seen) :
    m.HasStruct s := by
  rcases mem_metDefinitions.1 met with shared | ⟨ref, fresh, inline⟩
  · exact .inr (.inl shared)
  · exact .inr (.inr (definesInline_of_fresh fresh inline))

theorem exists_reference_of_definesInline {text : String} (loaded : load text = .ok m)
    (inside : m.DefinesInline s) : ∃ ref ∈ m.references, ref.inline = some s := by
  have at_struct : ∀ t ∈ m.commonStructs ++ [m.struct], m.HasStruct t → s.DefinedIn t →
      ∃ ref ∈ m.references, ref.inline = some s := by
    intro t mem has inside
    obtain ⟨ref, href, inline⟩ := inside.exists_reference (exists_records loaded has) m.name
    exact ⟨ref, List.mem_flatMap.2 ⟨t, mem, href⟩, inline⟩
  rcases inside with inside | ⟨t, mem, inside⟩
  · exact at_struct m.struct (by simp) (.inl rfl) inside
  · exact at_struct t (List.mem_append_left _ mem) (.inr (.inl mem)) inside

/-- Without repeated call sites, every definition is met. -/
theorem met_of_definesInline {text : String} (loaded : load text = .ok m)
    (distinct : (m.references.map (·.site)).Nodup) (inside : m.DefinesInline s) :
    s ∈ m.metDefinitions [] := by
  rw [mem_metDefinitions, m.freshReferences_eq distinct]
  exact Or.inr (exists_reference_of_definesInline loaded inside)

end MessageSpec

/-! ### The registry of a message -/

namespace Registry

variable {m : MessageSpec} {r : Registry} {s : StructSpec}

theorem ofMessage_eq_ok : ofMessage m = .ok r ↔ empty.register m = .ok r := by
  unfold ofMessage
  cases empty.register m <;> simp

theorem holds_of_met (run : ofMessage m = .ok r) (met : s ∈ m.metDefinitions []) : r.Holds s := by
  have recording := empty.recording_register m
  rw [ofMessage_eq_ok.1 run] at recording
  cases recording with
  | ok _ held _ => exact held s met

theorem met_of_mem_definitions (run : ofMessage m = .ok r) (mem : s ∈ r.definitions) :
    s ∈ m.metDefinitions [] := by
  have recording := empty.recording_register m
  rw [ofMessage_eq_ok.1 run] at recording
  cases recording with
  | ok _ _ source =>
      rcases source s mem with none | met
      · cases none
      · exact met

/-- A registry stands for a definition exactly if it met one of the same name and shape. -/
theorem holds_iff_met (run : ofMessage m = .ok r) :
    r.Holds s ↔ ∃ t ∈ m.metDefinitions [], t.name = s.name ∧ t.sameShape s = true := by
  constructor
  · rintro ⟨d, found, same⟩
    exact ⟨d, met_of_mem_definitions run (mem_of_find? found), name_of_find? found, same⟩
  · rintro ⟨t, met, name_eq, same⟩
    obtain ⟨d, found, same'⟩ := holds_of_met run met
    rw [name_eq] at found
    exact ⟨d, found, sameShape_iff.2 ((sameShape_iff.1 same').trans (sameShape_iff.1 same))⟩

/-- A registration fails exactly if two of the definitions that it meets contradict each other. -/
theorem ofMessage_conflict_iff :
    (∃ name, ofMessage m = .error (.conflictingStruct name)) ↔
      ∃ s ∈ m.metDefinitions [], ∃ t ∈ m.metDefinitions [],
        s.name = t.name ∧ s.sameShape t = false := by
  constructor
  · rintro ⟨name, run⟩
    have recording := empty.recording_register m
    unfold ofMessage at run
    cases result : empty.register m with
    | ok r =>
        rw [result] at run
        cases run
    | error conflict =>
        rw [result] at recording
        cases recording with
        | conflict known met same differs =>
            rcases known with none | known
            · cases none
            · exact ⟨_, known, _, met, same, differs⟩
  · rintro ⟨s, hs, t, ht, same, differs⟩
    cases result : empty.register m with
    | error conflict => exact ⟨conflict.name, by rw [ofMessage, result]⟩
    | ok r =>
        -- Both would be held under one name, and hence have one shape.
        have run := ofMessage_eq_ok.2 result
        obtain ⟨d, found, shape⟩ := holds_of_met run hs
        obtain ⟨d', found', shape'⟩ := holds_of_met run ht
        rw [same, found'] at found
        obtain rfl := Option.some.inj found
        have : s.sameShape t = true :=
          sameShape_iff.2 ((sameShape_iff.1 shape).symm.trans (sameShape_iff.1 shape'))
        cases this.symm.trans differs

end Registry

/-! ### Which definitions of a document count -/

/-- **Definitions held.** A loaded message fails to register exactly if two definitions that are met
contradict each other. If it registers, the registry stands for a definition inside the document
exactly if it met one of the same name and shape; and if no call site occurs twice in the document,
every definition is met. -/
theorem inline_definition_held_iff_met {text : String} {m : MessageSpec}
    (loaded : MessageSpec.load text = .ok m) :
    ((∃ name, Registry.ofMessage m = .error (.conflictingStruct name)) ↔
      ∃ s ∈ m.metDefinitions [], ∃ t ∈ m.metDefinitions [],
        s.name = t.name ∧ s.sameShape t = false) ∧
    (∀ r, Registry.ofMessage m = .ok r → ∀ s, m.DefinesInline s →
      (r.Holds s ↔ ∃ t ∈ m.metDefinitions [], t.name = s.name ∧ t.sameShape s = true)) ∧
    ((m.references.map (·.site)).Nodup → ∀ s, m.DefinesInline s → s ∈ m.metDefinitions []) := by
  refine ⟨Registry.ofMessage_conflict_iff, ?_, ?_⟩
  · intro r run s _
    exact Registry.holds_iff_met run
  · intro distinct s inside
    exact MessageSpec.met_of_definesInline loaded distinct inside

namespace Sample

theorem journal_definitions_held :
    MessageSpec.load journalText = .ok journal ∧
      Registry.ofMessage journal = .ok journalRegistry ∧
      ∀ s, journal.DefinesInline s → journalRegistry.Holds s := by
  refine ⟨load_journalText, ofMessage_journal, ?_⟩
  intro s inside
  obtain ⟨-, held, met⟩ := inline_definition_held_iff_met load_journalText
  have distinct : (journal.references.map (·.site)).Nodup := by decide
  exact (held _ ofMessage_journal s inside).2
    ⟨s, met distinct s inside, rfl, Registry.sameShape_iff.2 rfl⟩

/-- Two copies of a struct that agree in their own fields and disagree in what those define. -/
def pairText : String :=
  "\x7b\"name\":\"Pair\",\"validVersions\":\"0\",\"fields\":[
    \x7b\"name\":\"Left\",\"type\":\"Box\",\"versions\":\"0+\",\"fields\":[
      \x7b\"name\":\"Item\",\"type\":\"Part\",\"versions\":\"0+\",\"fields\":[
        \x7b\"name\":\"Size\",\"type\":\"int8\",\"versions\":\"0+\"\x7d]\x7d]\x7d,
    \x7b\"name\":\"Right\",\"type\":\"Box\",\"versions\":\"0+\",\"fields\":[
      \x7b\"name\":\"Item\",\"type\":\"Part\",\"versions\":\"0+\",\"fields\":[
        \x7b\"name\":\"Label\",\"type\":\"string\",\"versions\":\"0+\"\x7d]\x7d]\x7d]\x7d"

/-- A field of the document, which has one version. -/
def pairField (name : String) (type : FieldType) (inline : Option StructSpec) : FieldSpec :=
  ⟨name, type, ⟨0, 0⟩, none, none, .none, none, none, inline⟩

def sizedPart : StructSpec := ⟨"Part", ⟨0, 0⟩, [pairField "Size" (.int .int8) none]⟩

def labelledPart : StructSpec := ⟨"Part", ⟨0, 0⟩, [pairField "Label" .string none]⟩

def boxOf (part : StructSpec) : StructSpec :=
  ⟨"Box", ⟨0, 0⟩, [pairField "Item" (.struct "Part") (some part)]⟩

def pair : MessageSpec where
  name := "Pair"
  apiKey := none
  role := .data
  validVersions := ⟨0, 0⟩
  flexibleVersions := .none
  struct := ⟨"Pair", ⟨0, 0⟩,
    [pairField "Left" (.struct "Box") (some (boxOf sizedPart)),
      pairField "Right" (.struct "Box") (some (boxOf labelledPart))]⟩
  commonStructs := []

set_option maxRecDepth 2000 in
theorem load_pairText : MessageSpec.load pairText = .ok pair :=
  MessageSpec.load_of_tokens (by cbv) rfl rfl rfl

/-- The document registers although the registry contradicts one of its definitions: the call site
of the second is that of the first, so it is passed over. -/
theorem passed_over_definition_contradicted :
    ¬ ∀ text m r, MessageSpec.load text = .ok m → Registry.ofMessage m = .ok r →
      ∀ s, m.DefinesInline s → r.Holds s := by
  intro held
  have inside : pair.DefinesInline labelledPart :=
    .inl (.nested (List.mem_cons_of_mem _ (List.mem_cons_self ..)) rfl
      (.field (List.mem_cons_self ..) rfl))
  obtain ⟨d, found, same⟩ := held pairText pair _ load_pairText rfl labelledPart inside
  cases found
  revert same
  decide

end Sample

end WireSchema
