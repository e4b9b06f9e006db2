import WireSchema.Proofs.WellFormed

/-!
# Effective versions

The versions that a document writes on a nested field are not those in which the field exists: the
loader cuts them down to the versions of the field around it, which were cut down themselves, and so
on up to the message. Here the outcome is compared with what is **written**: a field exists at a
version exactly if its own range has it, the range of every field around it has it, and so does the
message, or the shared struct, at the top.

Records and fields are two trees of one shape. A field is picked out by its address in both: its
position among its siblings, after the positions of the fields around it.
-/

namespace WireSchema

/-! ### Addresses -/

/-- The items that one passes on the way to an address, the item there being the last. -/
def along? {α : Type} (inside : α → List α) : List α → List Nat → Option (List α)
  | _, [] => some []
  | items, i :: address => items[i]?.bind fun item =>
      (along? inside (inside item) address).map (item :: ·)

/-- The fields that a field defines. -/
def FieldSpec.inside (f : FieldSpec) : List FieldSpec :=
  (f.inlineStruct.map (·.fields)).getD []

/-- The records that a record nests. -/
def Schema.FieldRecord.inside (record : FieldRecord) : List FieldRecord :=
  record.fields.getD []

namespace Schema

/-! ### What is written on the way to a field -/

/-- An attribute is written, and its range has the version. -/
def Covers (text? : Option String) (v : Version) : Prop :=
  ∃ range, Gives text? range ∧ range.contains v = true

theorem Gives.covers_iff {text? : Option String} {range : VersionRange}
    (gives : Gives text? range) {v : Version} : Covers text? v ↔ range.contains v = true := by
  constructor
  · rintro ⟨other, given, contained⟩
    rwa [gives.unique given]
  · exact fun contained => ⟨range, gives, contained⟩

/-- The fields on the way to an address, beside the records there, below a struct with the versions
`base`. -/
structure Follows (base : VersionRange) (records : List FieldRecord) (fields : List FieldSpec) :
    Prop where
  names : List.Forall₂ (fun record field => record.name = some field.name) records fields
  versions : ∀ f, fields.getLast? = some f → ∀ v,
    f.versions.contains v = true ↔
      base.contains v = true ∧ ∀ record ∈ records, Covers record.versions v
  around : ∀ f, fields.getLast? = some f → ∀ v, f.existsAt v = true →
    ∀ g ∈ fields, g.existsAt v = true
  tagged : ∀ record f, records.getLast? = some record → fields.getLast? = some f → ∀ v,
    f.isTaggedAt v = true ↔ Covers record.taggedVersions v ∧ f.versions.contains v = true

/-! ### One step down -/

section

variable {struct : String} {within : VersionRange} {record : FieldRecord} {field : FieldSpec}

theorem Built.contains_iff (built : Built struct within record field) (v : Version) :
    field.versions.contains v = true ↔ within.contains v = true ∧ Covers record.versions v := by
  obtain ⟨text, declared, given, read, exists_eq⟩ := built.existsAt_eq v
  have gives : Gives record.versions declared := ⟨text, given, read⟩
  rw [gives.covers_iff, ← FieldSpec.existsAt, exists_eq, Bool.and_eq_true, and_comm]

theorem Built.isTaggedAt_iff (built : Built struct within record field) (v : Version) :
    field.isTaggedAt v = true ↔
      Covers record.taggedVersions v ∧ field.versions.contains v = true := by
  obtain ⟨text, declared, -, -, -, tagged_read⟩ := built.versions
  unfold FieldSpec.isTaggedAt
  rcases readTagged_eq_ok.1 tagged_read with ⟨unwritten, absent⟩ | ⟨range, gives, -, -, kept⟩
  · rw [absent, unwritten]
    simp [Covers, Gives]
  · rw [kept, gives.covers_iff, ← Bool.and_eq_true, ← VersionRange.contains_intersect]

/-- What a field defines was built from what its record nests, for the versions of the field. -/
theorem Built.inside_eq (built : Built struct within record field) :
    ∃ name, buildFields name field.versions [] record.inside = .ok field.inside := by
  rcases built.inline with ⟨leaf, absent⟩ | ⟨children, name, fields, nested, -, run, there⟩
  · refine ⟨"", ?_⟩
    rw [FieldRecord.inside, FieldSpec.inside, leaf, absent]
    rfl
  · refine ⟨name, ?_⟩
    rw [FieldRecord.inside, FieldSpec.inside, nested, there]
    exact run

theorem Follows.nil {base : VersionRange} : Follows base [] [] :=
  ⟨.nil, nofun, nofun, nofun⟩

/-- The step: what follows below a field with its versions as the base follows below the struct. -/
theorem Follows.cons (built : Built struct within record field) {records : List FieldRecord}
    {fields : List FieldSpec} (below : Follows field.versions records fields) :
    Follows within (record :: records) (field :: fields) := by
  obtain ⟨names, versions, around, tagged⟩ := below
  cases names with
  | nil =>
      -- The field itself is at the address.
      refine ⟨.cons built.name .nil, ?_, ?_, ?_⟩
      · intro f last v
        obtain rfl : field = f := Option.some.inj last
        rw [built.contains_iff v, List.forall_mem_singleton]
      · intro f last v there g mem
        obtain rfl : field = f := Option.some.inj last
        rwa [List.mem_singleton.1 mem]
      · intro r f lastRecord last v
        obtain rfl : record = r := Option.some.inj lastRecord
        obtain rfl : field = f := Option.some.inj last
        exact built.isTaggedAt_iff v
  | cons first others =>
      -- It is further down, and the field is one of those around it.
      refine ⟨.cons built.name (.cons first others), ?_, ?_, ?_⟩
      · intro f last v
        rw [List.getLast?_cons_cons] at last
        rw [versions f last v, built.contains_iff v, and_assoc, List.forall_mem_cons (a := record)]
      · intro f last v there g mem
        rw [List.getLast?_cons_cons] at last
        rcases List.mem_cons.1 mem with rfl | mem
        · exact ((versions f last v).1 there).1
        · exact around f last v there g mem
      · intro r f lastRecord last v
        rw [List.getLast?_cons_cons] at lastRecord last
        exact tagged r f lastRecord last v

end

/-! ### All the way down -/

/-- At every address below a struct there is a field exactly if there is a record, and the fields on
the way to it follow the records. -/
def FollowsThroughout (base : VersionRange) (records? : Option (List FieldRecord))
    (fields : List FieldSpec) : Prop :=
  ∃ records, records? = some records ∧ ∀ address,
    Option.Rel (Follows base) (along? FieldRecord.inside records address)
      (along? FieldSpec.inside fields address)

theorem follows_of_buildFields {struct : String} {within : VersionRange}
    {records : List FieldRecord} {fields : List FieldSpec}
    (run : buildFields struct within [] records = .ok fields) (address : List Nat) :
    Option.Rel (Follows within) (along? FieldRecord.inside records address)
      (along? FieldSpec.inside fields address) := by
  -- The versions change on the way: below a field, they are those of the field.
  induction address generalizing struct within records fields with
  | nil => exact .some .nil
  | cons i address ih =>
      have beside := Outcome.rel_getElem? (buildFields_nil_eq_ok.1 run).1 i
      simp only [along?]
      generalize records[i]? = record?, fields[i]? = field? at beside ⊢
      cases beside with
      | none => exact .none
      | @some record field built =>
          obtain ⟨name, inner⟩ := built.inside_eq
          have below := ih inner
          simp only [Option.bind_some]
          generalize along? FieldRecord.inside record.inside address = nested,
            along? FieldSpec.inside field.inside address = defined at below ⊢
          cases below with
          | none => exact .none
          | some follows => exact .some (.cons built follows)

/-- **Effective versions** are what is left along the way. At every address of a loaded message, a
field has a version exactly if the message has it and it is in the range written on the field and on
each field around it; below a shared struct, the versions of that struct stand for those of the
message. So the fields around one that exists at a version exist there too, and a field is tagged at
the versions of its own that its tagged versions have. -/
theorem versions_follow_documents {text : String} {m : MessageSpec}
    (loaded : MessageSpec.load text = .ok m) :
    ∃ record, MessageRecord.read? (Text.stripComments text) = some record ∧
      Gives record.validVersions m.validVersions ∧
      FollowsThroughout m.validVersions record.fields m.struct.fields ∧
      List.Forall₂ (fun shared struct => shared.name = some struct.name ∧
          Gives shared.versions struct.versions ∧
          FollowsThroughout struct.versions shared.fields struct.fields)
        record.commonStructs m.commonStructs := by
  obtain ⟨record, read, run⟩ := MessageSpec.load_eq_ok.1 loaded
  have built := buildMessage_eq_ok.1 run
  obtain ⟨records, nested, top⟩ := built.fields
  refine ⟨record, read, built.valid.1, ⟨records, nested, fun address => ?_⟩, ?_⟩
  · exact follows_of_buildFields top address
  · refine built.shared.imp fun shared struct one => ?_
    obtain ⟨name, versions, records, nested, run⟩ := buildCommonStruct_eq_ok.1 one
    exact ⟨name, versions, records, nested, follows_of_buildFields run⟩

end Schema

/-- The address of `Label` leads through `Seat`, of which the versions 1 to 4 leave 2 to 4. -/
theorem Sample.ticket_versions_follow :
    MessageSpec.load ticketText = .ok ticket ∧
      (along? FieldSpec.inside ticket.struct.fields [0, 1]).map (·.map (·.name)) =
        some ["Seat", "Label"] ∧
      ∃ record, Schema.MessageRecord.read? (Text.stripComments ticketText) = some record ∧
        Schema.Gives record.validVersions ⟨1, 4⟩ ∧
        Schema.FollowsThroughout ⟨1, 4⟩ record.fields ticket.struct.fields ∧
        List.Forall₂ (fun shared struct => shared.name = some struct.name ∧
            Schema.Gives shared.versions struct.versions ∧
            Schema.FollowsThroughout struct.versions shared.fields struct.fields)
          record.commonStructs [fare] :=
  ⟨load_ticketText, rfl, Schema.versions_follow_documents load_ticketText⟩

end WireSchema
