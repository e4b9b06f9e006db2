import WireSchema.Proofs.Registration

/-!
# Which structs become common

A registry never counts the references to a struct. It keeps the site of the first one, and makes
the struct common when another site refers to it. This module shows that the two together amount to
a count: a name is common exactly if a message declares it as shared or at least two of the visited
call sites refer to it.

The invariant is `Tracks`, which relates a registry to the names declared and the references visited
so far. Its heart is the third clause: of a name that is *not* common, the first site is that of the
first reference to it, and hence is missing exactly if there was none.
-/

namespace WireSchema

namespace Reference

/-- The number of references to a struct. -/
def mentions (refs : List Reference) (name : String) : Nat :=
  refs.countP (·.typeName == name)

/-- The names of structs in the order in which they are referred to for the second time, if
`earlier` references have gone before. -/
def secondReached (earlier : List Reference) : List Reference → List String
  | [] => []
  | ref :: refs =>
    (if mentions earlier ref.typeName = 1 then [ref.typeName] else []) ++
      secondReached (earlier ++ [ref]) refs

theorem mentions_cons (ref : Reference) (refs : List Reference) (name : String) :
    mentions (ref :: refs) name = mentions refs name + if ref.typeName = name then 1 else 0 := by
  simp [mentions, List.countP_cons]

theorem mentions_append (refs : List Reference) (ref : Reference) (name : String) :
    mentions (refs ++ [ref]) name = mentions refs name + if ref.typeName = name then 1 else 0 := by
  simp [mentions, List.countP_append, List.countP_cons]

theorem mentions_pos_iff {refs : List Reference} {name : String} :
    1 ≤ mentions refs name ↔ ∃ ref ∈ refs, ref.typeName = name := by
  simp [mentions, Nat.one_le_iff_ne_zero, List.countP_eq_zero]

/-- Of references at distinct sites, two to one struct are two sites that refer to it. -/
theorem two_le_mentions_iff {refs : List Reference} {name : String}
    (distinct : (refs.map (·.site)).Nodup) :
    2 ≤ mentions refs name ↔
      ∃ a ∈ refs, ∃ b ∈ refs, a.site ≠ b.site ∧ a.typeName = name ∧ b.typeName = name := by
  induction refs with
  | nil => simp [mentions]
  | cons ref refs ih =>
      obtain ⟨new, distinct⟩ := List.nodup_cons.1 distinct
      rw [mentions_cons]
      by_cases here : ref.typeName = name
      · -- The first reference is one of the two, so that one more is needed.
        rw [if_pos here, Nat.succ_le_succ_iff, mentions_pos_iff]
        constructor
        · rintro ⟨other, mem, there⟩
          refine ⟨ref, List.mem_cons_self .., other, List.mem_cons_of_mem _ mem, ?_, here, there⟩
          intro same
          exact new (List.mem_map.2 ⟨other, mem, same.symm⟩)
        · rintro ⟨a, ha, b, hb, ne, name_a, name_b⟩
          rcases List.mem_cons.1 ha with rfl | ha
          · rcases List.mem_cons.1 hb with rfl | hb
            · exact absurd rfl ne
            · exact ⟨b, hb, name_b⟩
          · exact ⟨a, ha, name_a⟩
      · rw [if_neg here, Nat.add_zero, ih distinct]
        have inner : ∀ a ∈ ref :: refs, a.typeName = name → a ∈ refs := by
          intro a mem named
          rcases List.mem_cons.1 mem with rfl | mem
          · exact absurd named here
          · exact mem
        constructor
        · rintro ⟨a, ha, b, hb, rest⟩
          exact ⟨a, List.mem_cons_of_mem _ ha, b, List.mem_cons_of_mem _ hb, rest⟩
        · rintro ⟨a, ha, b, hb, ne, name_a, name_b⟩
          exact ⟨a, inner a ha name_a, b, inner b hb name_b, ne, name_a, name_b⟩

end Reference

open Reference (mentions secondReached seenAfter Fresh)

namespace Registry

/-! ### The invariant -/

/-- What a registry keeps of the names `declared` so far, and of the references `refs` so far. -/
structure Tracks (r : Registry) (declared : List String) (refs : List Reference) : Prop where
  /-- A name is common if it was declared or mentioned twice. -/
  common : ∀ name, name ∈ r.common ↔ name ∈ declared ∨ 2 ≤ mentions refs name
  /-- For any other name, the first site is that of the first mention. -/
  first : ∀ name, name ∉ r.common →
    r.firstSites.lookup name = (refs.find? (·.typeName == name)).map (·.site)

theorem Tracks.empty : Registry.empty.Tracks [] [] where
  common name := by simp [Registry.empty, mentions]
  first name _ := rfl

theorem Tracks.of_frame {r r' : Registry} {declared : List String} {refs : List Reference}
    (h : r.Tracks declared refs) (common : r'.common = r.common)
    (firstSites : r'.firstSites = r.firstSites) : r'.Tracks declared refs where
  common name := by
    rw [common]
    exact h.common name
  first name := by
    rw [common, firstSites]
    exact h.first name

/-! ### One step -/

/-- Declaring a shared struct keeps the account. -/
theorem Tracks.declareCommon {r r' : Registry} {declared : List String} {refs : List Reference}
    {spec : StructSpec} (h : r.Tracks declared refs) (run : r.declareCommon spec = .ok r') :
    r'.Tracks (declared ++ [spec.name]) refs := by
  obtain ⟨defined, hdefined, same⟩ := Outcome.bind_eq_ok.1 run
  cases same
  obtain ⟨common, firstSites⟩ := define_frame hdefined
  have before := h.of_frame common firstSites
  by_cases there : spec.name ∈ defined.common
  · rw [promote_of_mem there]
    refine ⟨fun name => ?_, before.first⟩
    have old := before.common name
    have declared_or_twice := (before.common spec.name).1 there
    grind
  · have common' := promote_common_of_not_mem there
    refine ⟨fun name => ?_, fun name absent => ?_⟩
    · have old := before.common name
      grind
    · rw [promote_firstSites]
      refine before.first name fun old => absent ?_
      rw [common']
      exact List.mem_append_left _ old

section

variable {r : Registry} {declared : List String} {refs : List Reference} {ref : Reference}

theorem find?_append_of_ne {name : String} (ne : ref.typeName ≠ name) :
    (refs ++ [ref]).find? (·.typeName == name) = refs.find? (·.typeName == name) := by
  simp [List.find?_append, ne]

theorem mentions_eq_zero {name : String} (absent : refs.find? (·.typeName == name) = none) :
    mentions refs name = 0 := by
  rwa [mentions, List.countP_eq_zero, ← List.find?_eq_none]

/-- A further reference to a common struct changes nothing. -/
theorem Tracks.again (h : r.Tracks declared refs) (there : ref.typeName ∈ r.common) :
    r.Tracks declared (refs ++ [ref]) where
  common name := by
    have old := h.common name
    rw [Reference.mentions_append]
    grind
  first name absent := by
    have ne : ref.typeName ≠ name := fun same => absent (same ▸ there)
    rw [find?_append_of_ne ne]
    exact h.first name absent

/-- The first reference to a struct that is not common: its site is noted. -/
theorem Tracks.note (h : r.Tracks declared refs) (absent : ref.typeName ∉ r.common)
    (unmentioned : refs.find? (·.typeName == ref.typeName) = none) :
    Tracks { r with firstSites := r.firstSites ++ [(ref.typeName, ref.site)] } declared
      (refs ++ [ref]) where
  common name := by
    have old := h.common name
    have never := mentions_eq_zero unmentioned
    rw [Reference.mentions_append]
    grind
  first name missing := by
    have old := h.first name missing
    by_cases same : ref.typeName = name
    · subst same
      rw [unmentioned] at old
      simp [List.lookup_append, old, List.find?_append, unmentioned]
    · have other : (name == ref.typeName) = false := by simpa using Ne.symm same
      simp [List.lookup_append, old, find?_append_of_ne same, List.lookup_cons, other]

/-- The second reference to a struct that is not common: the struct is promoted. -/
theorem Tracks.promote (h : r.Tracks declared refs) (absent : ref.typeName ∉ r.common)
    (mentioned : 1 ≤ mentions refs ref.typeName) :
    (r.promote ref.typeName).Tracks declared (refs ++ [ref]) where
  common name := by
    have old := h.common name
    rw [promote_common_of_not_mem absent, Reference.mentions_append]
    grind
  first name missing := by
    rw [promote_common_of_not_mem absent, List.mem_append, not_or] at missing
    have ne : ref.typeName ≠ name := fun same => missing.2 (List.mem_singleton.2 same.symm)
    rw [promote_firstSites, find?_append_of_ne ne]
    exact h.first name missing.1

/-- A reference from a new site keeps the account. It makes the struct common exactly if there was
one earlier reference to it and no declaration. -/
theorem Tracks.refer (h : r.Tracks declared refs) (new : ref.site ∉ refs.map (·.site)) :
    (r.refer ref.typeName ref.site).Tracks declared (refs ++ [ref]) ∧
      (r.refer ref.typeName ref.site).common = r.common ++
        if mentions refs ref.typeName = 1 ∧ ref.typeName ∉ declared then [ref.typeName]
        else [] := by
  have known := h.common ref.typeName
  unfold Registry.refer
  by_cases there : ref.typeName ∈ r.common
  · have settled : ¬ (mentions refs ref.typeName = 1 ∧ ref.typeName ∉ declared) := by grind
    rw [if_pos (isCommon_iff.2 there), if_neg settled, List.append_nil]
    exact ⟨h.again there, rfl⟩
  · rw [if_neg (mt isCommon_iff.1 there), h.first _ there]
    cases found : refs.find? (·.typeName == ref.typeName) with
    | none =>
        have never : ¬ (mentions refs ref.typeName = 1 ∧ ref.typeName ∉ declared) := by
          rw [mentions_eq_zero found]
          simp
        rw [if_neg never, List.append_nil]
        exact ⟨h.note there found, rfl⟩
    | some earlier =>
        have mem := List.mem_of_find?_eq_some found
        have named : earlier.typeName = ref.typeName := by simpa using List.find?_some found
        -- The first site was visited before, so it is not the new one.
        have elsewhere : earlier.site ≠ ref.site := by
          intro same
          exact new (List.mem_map.2 ⟨earlier, mem, same⟩)
        have mentioned := Reference.mentions_pos_iff.2 ⟨earlier, mem, named⟩
        have once : mentions refs ref.typeName = 1 ∧ ref.typeName ∉ declared := by
          rw [known, not_or] at there
          exact ⟨by omega, there.1⟩
        simp only [Option.map_some, if_neg elsewhere, if_pos once]
        exact ⟨h.promote there mentioned, promote_common_of_not_mem there⟩

theorem Tracks.record {r' : Registry} (h : r.Tracks declared refs)
    (new : ref.site ∉ refs.map (·.site)) (run : r.record ref = .ok r') :
    r'.Tracks declared (refs ++ [ref]) ∧ r'.common = r.common ++
      if mentions refs ref.typeName = 1 ∧ ref.typeName ∉ declared then [ref.typeName] else [] := by
  obtain ⟨defined, rfl, plain⟩ := record_eq_ok run
  have frame : defined.common = r.common ∧ defined.firstSites = r.firstSites := by
    rcases plain with ⟨-, rfl⟩ | ⟨s, -, define⟩
    · exact ⟨rfl, rfl⟩
    · have kept := define_frame define
      exact kept
  rw [← frame.1]
  exact (h.of_frame frame.1 frame.2).refer new

end

/-! ### Whole runs -/

/-- Visiting references at new sites, one after another. -/
theorem Tracks.foldlM_record {r r' : Registry} {declared : List String} {refs more : List Reference}
    (h : r.Tracks declared refs) (fresh : Fresh (seenAfter [] refs) more)
    (run : more.foldlM Registry.record r = .ok r') :
    r'.Tracks declared (refs ++ more) ∧
      r'.common = r.common ++ (secondReached refs more).filter (· ∉ declared) := by
  induction more generalizing r refs with
  | nil =>
      cases run
      simpa [secondReached] using h
  | cons ref more ih =>
      rw [List.foldlM_cons] at run
      obtain ⟨next, first, others⟩ := Outcome.bind_eq_ok.1 run
      obtain ⟨unseen, fresh⟩ := fresh.of_cons
      have new : ref.site ∉ refs.map (·.site) := by simpa [seenAfter] using unseen
      obtain ⟨tracks, common⟩ := h.record new first
      have seen : seenAfter [] (refs ++ [ref]) = ref.site :: seenAfter [] refs := by
        simp [seenAfter]
      obtain ⟨tracks', common'⟩ := ih tracks (seen ▸ fresh) others
      refine ⟨by simpa using tracks', ?_⟩
      rw [common', common, secondReached, List.filter_append, List.append_assoc]
      congr 1
      by_cases once : mentions refs ref.typeName = 1 <;>
        by_cases undeclared : ref.typeName ∉ declared <;> simp [once, undeclared]

theorem Tracks.foldlM_declareCommon {r r' : Registry} {declared : List String}
    {refs : List Reference} {specs : List StructSpec} (h : r.Tracks declared refs)
    (run : specs.foldlM Registry.declareCommon r = .ok r') :
    r'.Tracks (declared ++ specs.map (·.name)) refs := by
  induction specs generalizing r declared with
  | nil =>
      cases run
      simpa using h
  | cons spec specs ih =>
      rw [List.foldlM_cons] at run
      obtain ⟨next, first, others⟩ := Outcome.bind_eq_ok.1 run
      simpa using ih (h.declareCommon first) others

/-- Shared structs become common in the order of their declaration, each name once. -/
theorem foldlM_declareCommon_common {r r' : Registry} {declared : List String}
    {specs : List StructSpec} (start : r.common = declared.eraseDups)
    (run : specs.foldlM Registry.declareCommon r = .ok r') :
    r'.common = (declared ++ specs.map (·.name)).eraseDups := by
  induction specs generalizing r declared with
  | nil =>
      cases run
      simpa using start
  | cons spec specs ih =>
      rw [List.foldlM_cons] at run
      obtain ⟨next, first, others⟩ := Outcome.bind_eq_ok.1 run
      have next_common : next.common = (declared ++ [spec.name]).eraseDups := by
        obtain ⟨defined, hdefined, same⟩ := Outcome.bind_eq_ok.1 first
        cases same
        have before : defined.common = declared.eraseDups := (define_frame hdefined).1.trans start
        rw [List.eraseDups_append]
        by_cases there : spec.name ∈ declared
        · have known : spec.name ∈ defined.common := before ▸ List.mem_eraseDups.2 there
          rw [promote_of_mem known, before]
          simp [List.removeAll, there]
        · have unknown : spec.name ∉ defined.common := by
            rw [before, List.mem_eraseDups]
            exact there
          rw [promote_common_of_not_mem unknown, before]
          simp [List.removeAll, there, List.eraseDups_cons]
      simpa using ih next_common others

end Registry

/-- The references that registering messages one after another visits, in that order. -/
def MessageSpec.visitedAcross (seen : List CallSite) : List MessageSpec → List Reference
  | [] => []
  | m :: ms =>
    m.freshReferences seen ++
      visitedAcross (seenAfter seen (m.freshReferences seen)) ms

namespace Registry

/-- The state of the account after the references `refs`, whose sites are the ones visited. -/
structure Accounts (r : Registry) (declared : List String) (refs : List Reference) : Prop where
  visited : r.visited = seenAfter [] refs
  fresh : Fresh [] refs
  tracks : r.Tracks declared refs

theorem Accounts.register {r r' : Registry} {declared : List String} {refs : List Reference}
    {m : MessageSpec} (h : r.Accounts declared refs) (run : r.register m = .ok r') :
    r'.Accounts (declared ++ m.commonStructs.map (·.name))
      (refs ++ m.freshReferences r.visited) := by
  obtain ⟨seeded, declares, walk, visited⟩ := register_eq_ok run
  have fresh := m.fresh_freshReferences r.visited
  rw [h.visited] at fresh walk visited ⊢
  have declared_tracks := h.tracks.foldlM_declareCommon declares
  refine ⟨?_, h.fresh.append fresh, (declared_tracks.foldlM_record fresh walk).1⟩
  rw [visited, Reference.seenAfter_append]

theorem Accounts.foldlM_register {r r' : Registry} {declared : List String} {refs : List Reference}
    {ms : List MessageSpec} (h : r.Accounts declared refs)
    (run : ms.foldlM Registry.register r = .ok r') :
    r'.Accounts (declared ++ ms.flatMap fun m => m.commonStructs.map (·.name))
      (refs ++ MessageSpec.visitedAcross r.visited ms) := by
  induction ms generalizing r declared refs with
  | nil =>
      cases run
      simpa [MessageSpec.visitedAcross] using h
  | cons m ms ih =>
      rw [List.foldlM_cons] at run
      obtain ⟨next, first, others⟩ := Outcome.bind_eq_ok.1 run
      obtain ⟨-, -, -, visited⟩ := register_eq_ok first
      have after := ih (h.register first) others
      rw [visited] at after
      simpa [MessageSpec.visitedAcross] using after

theorem stable_common_nodup : Stable fun r => r.common.Nodup where
  define h _ := h
  promote {r name} h new := by
    have absent : name ∉ r.common := mt isCommon_iff.2 (Bool.eq_false_iff.1 new)
    rw [List.nodup_append]
    refine ⟨h, by simp, ?_⟩
    rintro _ there other here rfl
    exact absent (List.mem_singleton.1 here ▸ there)
  visit _ h := h
  note _ h _ := h

end Registry

/-! ### Promotion is exact -/

namespace Registry

/-- After a sequence of registrations, the sites visited are those of the visited references, and a
name is common exactly if it is declared or referred to from two of them. -/
theorem isCommon_of_registrations {ms : List MessageSpec} {r : Registry}
    (run : ms.foldlM register empty = .ok r) :
    r.visited.reverse = (MessageSpec.visitedAcross [] ms).map (·.site) ∧
      ∀ name, r.isCommon name = true ↔
        (∃ m ∈ ms, ∃ s ∈ m.commonStructs, s.name = name) ∨
          ∃ a ∈ MessageSpec.visitedAcross [] ms, ∃ b ∈ MessageSpec.visitedAcross [] ms,
            a.site ≠ b.site ∧ a.typeName = name ∧ b.typeName = name := by
  have start : empty.Accounts [] [] := ⟨rfl, .nil [], .empty⟩
  have after := start.foldlM_register run
  rw [List.nil_append, List.nil_append] at after
  refine ⟨?_, fun name => ?_⟩
  · rw [after.visited]
    simp [seenAfter, empty]
  · rw [isCommon_iff, after.tracks.common, Reference.two_le_mentions_iff after.fresh.1]
    simp [empty]

/-- The common names of a single message, in order. -/
theorem common_of_ofMessage {m : MessageSpec} {r : Registry} (run : ofMessage m = .ok r) :
    r.common = (m.commonStructs.map (·.name)).eraseDups ++
      (secondReached [] (m.freshReferences [])).filter (· ∉ m.commonStructs.map (·.name)) := by
  obtain ⟨seeded, declares, walk, -⟩ := register_eq_ok (ofMessage_eq_ok.1 run)
  have start : empty.common = List.eraseDups [] := rfl
  have seeds := foldlM_declareCommon_common start declares
  have tracks := Tracks.empty.foldlM_declareCommon declares
  rw [List.nil_append] at seeds tracks
  obtain ⟨-, common⟩ := tracks.foldlM_record (m.fresh_freshReferences []) walk
  rw [common, seeds]

theorem common_nodup_of_ofMessage {m : MessageSpec} {r : Registry} (run : ofMessage m = .ok r) :
    r.common.Nodup := by
  have unique := stable_common_nodup.register (r := empty) List.nodup_nil m
  rwa [ofMessage_eq_ok.1 run] at unique

end Registry

/-- **Common names.** After messages have been registered one after another, a name is common if and
only if one of them declares a shared struct of that name, or references at two different visited
call sites refer to it. For a single message the common names are, each once, those of its shared
structs in the order of their declaration, and then the others in the order in which the walk
reached the second reference to them. -/
theorem common_iff_declared_or_referred_twice :
    (∀ (ms : List MessageSpec) (r : Registry), ms.foldlM Registry.register .empty = .ok r →
      r.visited.reverse = (MessageSpec.visitedAcross [] ms).map (·.site) ∧
      ∀ name, r.isCommon name = true ↔
        (∃ m ∈ ms, ∃ s ∈ m.commonStructs, s.name = name) ∨
          ∃ a ∈ MessageSpec.visitedAcross [] ms, ∃ b ∈ MessageSpec.visitedAcross [] ms,
            a.site ≠ b.site ∧ a.typeName = name ∧ b.typeName = name) ∧
    (∀ (m : MessageSpec) (r : Registry), Registry.ofMessage m = .ok r →
      r.common.Nodup ∧
      r.common = (m.commonStructs.map (·.name)).eraseDups ++
        (secondReached [] (m.freshReferences [])).filter
          (· ∉ m.commonStructs.map (·.name))) := by
  constructor
  · intro ms r run
    exact Registry.isCommon_of_registrations run
  · intro m r run
    exact ⟨Registry.common_nodup_of_ofMessage run, Registry.common_of_ofMessage run⟩

/-! ### Two messages -/

namespace Sample

def label : StructSpec := ⟨"Label", ⟨0, 0⟩, [pairField "Text" .string none]⟩

def person : StructSpec := ⟨"Person", ⟨0, 0⟩, [pairField "Name" .string none]⟩

def stamp : StructSpec := ⟨"Stamp", ⟨0, 0⟩, [pairField "Code" (.int .int32) none]⟩

def ofFields (name : String) (fields : List FieldSpec) (shared : List StructSpec) : MessageSpec :=
  ⟨name, none, .data, ⟨0, 0⟩, .none, ⟨name, ⟨0, 0⟩, fields⟩, shared⟩

/-- A message with a shared struct, one that is referred to twice and one that is referred to
once. -/
def parcel : MessageSpec :=
  ofFields "Parcel"
    [pairField "Front" (.struct "Label") (some label),
      pairField "Owner" (.struct "Person") (some person),
      pairField "Back" (.struct "Label") (some label),
      pairField "Postage" (.struct "Stamp") none]
    [stamp]

/-- Another message that refers to the last of these. -/
def letter : MessageSpec :=
  ofFields "Letter" [pairField "Senders" (.array (.struct "Person")) none] []

theorem visitedAcross_parcel_letter :
    MessageSpec.visitedAcross [] [parcel, letter] =
      [⟨⟨"Parcel", "Parcel", "Front"⟩, "Label", some label⟩,
        ⟨⟨"Parcel", "Parcel", "Owner"⟩, "Person", some person⟩,
        ⟨⟨"Parcel", "Parcel", "Back"⟩, "Label", some label⟩,
        ⟨⟨"Parcel", "Parcel", "Postage"⟩, "Stamp", none⟩,
        ⟨⟨"Letter", "Letter", "Senders"⟩, "Person", none⟩] := rfl

/-- The second message makes a struct of the first one common. -/
theorem parcel_letter_common :
    (∃ r, [parcel, letter].foldlM Registry.register .empty = .ok r ∧ r.isCommon "Person" = true) ∧
      ∃ r, Registry.ofMessage parcel = .ok r ∧ r.common = ["Stamp", "Label"] := by
  obtain ⟨sequences, single⟩ := common_iff_declared_or_referred_twice
  refine ⟨⟨_, rfl, ?_⟩, ⟨_, rfl, ?_⟩⟩
  · refine ((sequences [parcel, letter] _ rfl).2 "Person").2 (.inr ?_)
    rw [visitedAcross_parcel_letter]
    exact ⟨⟨⟨"Parcel", "Parcel", "Owner"⟩, "Person", some person⟩, by simp,
      ⟨⟨"Letter", "Letter", "Senders"⟩, "Person", none⟩, by simp, by decide, rfl, rfl⟩
  · rw [(single parcel _ rfl).2]
    decide

end Sample

end WireSchema
