import WireSchema.Proofs.Loaded

/-!
# Invariants of loaded messages

Everything behind the loader takes the structs of a message as they are: no field is looked for
twice, a tag is never missing where a field is tagged, and a definition is trusted to be that of the
struct which its field names. `WellFormed` lists what is relied on. It holds of **every** struct of
a loaded message, at any depth, because each of them was built from records.
-/

namespace WireSchema

/-! ### The invariants -/

/-- What holds of a field of a loaded message. -/
structure FieldSpec.WellFormed (f : FieldSpec) : Prop where
  tag_nonneg : ∀ n, f.tag = some n → 0 ≤ n
  tag_iff : f.tag.isSome ↔ f.taggedVersions.isSome
  tagged_subset : ∀ tagged, f.taggedVersions = some tagged → tagged.isSubsetOf f.versions = true
  /-- A field that defines a struct refers to it, and the struct exists when the field does. -/
  inline : ∀ u, f.inlineStruct = some u →
    f.type.structName? = some u.name ∧ u.versions = f.versions

/-- What holds of a struct of a loaded message. -/
structure StructSpec.WellFormed (s : StructSpec) : Prop where
  names : s.fieldNames.Nodup
  tags : (s.fields.filterMap (·.tag)).Nodup
  fields : ∀ f ∈ s.fields, f.WellFormed
  within : ∀ f ∈ s.fields, f.versions.isSubsetOf s.versions = true
  /-- A field that is tagged at a version is there at that version. -/
  tagged : ∀ f ∈ s.fields, ∀ v, f.isTaggedAt v = true → f ∈ s.fieldsAt v

/-! ### Fields -/

theorem FieldSpec.WellFormed.existsAt {f : FieldSpec} (h : f.WellFormed) {v : Version}
    (tagged : f.isTaggedAt v = true) : f.existsAt v = true := by
  unfold isTaggedAt at tagged
  split at tagged
  · rename_i range given
    exact VersionRange.isSubsetOf_iff.1 (h.tagged_subset range given) v tagged
  · cases tagged

namespace Schema

variable {struct : String} {within : VersionRange} {record : FieldRecord} {field : FieldSpec}

theorem Built.wellFormed (built : Built struct within record field) : field.WellFormed := by
  obtain ⟨text, declared, -, -, -, tagged_read⟩ := built.versions
  obtain ⟨tag_iff, nonneg⟩ := checkTag_eq_ok.1 built.tag.2
  refine ⟨nonneg, tag_iff, fun tagged given => ?_, fun u inline => ?_⟩
  · rcases readTagged_eq_ok.1 tagged_read with ⟨-, absent⟩ | ⟨range, -, -, -, kept⟩
    · cases given.symm.trans absent
    · cases given.symm.trans kept
      -- What is kept of the tagged versions was cut down to those of the field.
      refine VersionRange.isSubsetOf_iff.2 fun v contained => ?_
      rw [VersionRange.contains_intersect, Bool.and_eq_true] at contained
      exact contained.2
  · obtain ⟨refers, versions, -⟩ := built.inline_eq inline
    exact ⟨refers, versions⟩

theorem Built.versions_subset (built : Built struct within record field) :
    field.versions.isSubsetOf within = true := by
  refine VersionRange.isSubsetOf_iff.2 fun v contained => ?_
  obtain ⟨_, declared, -, -, exists_eq⟩ := built.existsAt_eq v
  rw [FieldSpec.existsAt, contained] at exists_eq
  exact (Bool.and_eq_true_iff.1 exists_eq.symm).2

end Schema

/-! ### Structs -/

theorem StructSpec.FromRecords.wellFormed {s : StructSpec} (h : s.FromRecords) : s.WellFormed := by
  obtain ⟨records, run⟩ := h
  obtain ⟨built, apart⟩ := Schema.buildFields_nil_eq_ok.1 run
  obtain ⟨names, tags⟩ := FieldSpec.pairwise_apart_iff.1 apart
  have each : ∀ f ∈ s.fields, ∃ record, Schema.Built s.name s.versions record f := by
    intro f mem
    obtain ⟨record, -, here⟩ := Outcome.exists_of_mem_right built mem
    exact ⟨record, here⟩
  refine ⟨names, tags, fun f mem => ?_, fun f mem => ?_, fun f mem v tagged => ?_⟩
  · obtain ⟨record, here⟩ := each f mem
    exact here.wellFormed
  · obtain ⟨record, here⟩ := each f mem
    exact here.versions_subset
  · obtain ⟨record, here⟩ := each f mem
    exact List.mem_filter.2 ⟨mem, here.wellFormed.existsAt tagged⟩

/-! ### Messages -/

/-- The versions of a message are between zero and the greatest version, which is left out. -/
theorem Schema.BuiltMessage.validVersions_bounds {record : Schema.MessageRecord} {m : MessageSpec}
    (built : Schema.BuiltMessage record m) :
    0 ≤ m.validVersions.lowest ∧ m.validVersions.lowest ≤ m.validVersions.highest ∧
      m.validVersions.highest < Version.greatest := by
  obtain ⟨⟨text, -, read⟩, closed, nonempty⟩ := built.valid
  rcases VersionRange.readable_of_read read with none_eq | ⟨nonneg, ordered, le⟩
  · rw [none_eq] at nonempty
    cases nonempty
  · refine ⟨nonneg, ordered, Int.lt_iff_le_and_ne.2 ⟨le, fun greatest => ?_⟩⟩
    rw [VersionRange.isOpenEnded, nonempty, greatest] at closed
    simp at closed

/-- **Invariants.** A loaded message has a finite, non-empty range of versions that are not
negative; its top-level struct bears its name and has its versions; and every struct of it is well
formed: the top-level struct, the shared ones, and those that fields define at any depth. -/
theorem loaded_message_wellFormed {text : String} {m : MessageSpec}
    (loaded : MessageSpec.load text = .ok m) :
    m.validVersions.isEmpty = false ∧ 0 ≤ m.validVersions.lowest ∧
      m.validVersions.lowest ≤ m.validVersions.highest ∧ m.validVersions.highest < 32767 ∧
      m.struct.name = m.name ∧ m.struct.versions = m.validVersions ∧
      ∀ s, m.HasStruct s → s.WellFormed := by
  obtain ⟨record, -, run⟩ := MessageSpec.load_eq_ok.1 loaded
  have built := Schema.buildMessage_eq_ok.1 run
  obtain ⟨nonneg, ordered, finite⟩ := built.validVersions_bounds
  exact ⟨built.valid.2.2, nonneg, ordered, finite, built.struct.1, built.struct.2,
    fun s has => (MessageSpec.exists_records loaded has).wellFormed⟩

namespace Sample

theorem hasStruct_ticket_place : ticket.HasStruct place :=
  .inr (.inr (.inl (.field (List.mem_cons_self ..) rfl)))

theorem hasStruct_ticket_fare : ticket.HasStruct fare :=
  .inr (.inl (List.mem_singleton_self _))

theorem ticket_wellFormed :
    MessageSpec.load ticketText = .ok ticket ∧ ticket.validVersions.isEmpty = false ∧
      (0 : Int) ≤ 1 ∧ (1 : Int) ≤ 4 ∧ (4 : Int) < 32767 ∧ ticket.struct.name = ticket.name ∧
      ticket.struct.versions = ticket.validVersions ∧ ticket.struct.WellFormed ∧
      (ticket.HasStruct place ∧ place.WellFormed) ∧ ticket.HasStruct fare ∧ fare.WellFormed := by
  obtain ⟨nonempty, nonneg, ordered, finite, name, versions, each⟩ :=
    loaded_message_wellFormed load_ticketText
  exact ⟨load_ticketText, nonempty, nonneg, ordered, finite, name, versions, each _ (.inl rfl),
    ⟨hasStruct_ticket_place, each _ hasStruct_ticket_place⟩, hasStruct_ticket_fare,
    each _ hasStruct_ticket_fare⟩

end Sample

end WireSchema
