import WireSchema.Proofs.KeyOrder
import WireSchema.Proofs.RoundTrip

/-!
# Reading the reserved entry

The reserved entry is an array with one entry for each unknown tagged field. `Spells` says which
entries stand for a field, without any reading: the entry has two parts, in one of two forms, the
first is the tag and the second the bytes in hexadecimal. Each step of the reader is characterized
by what it accepts (`parts_eq_ok`, `readTag_eq_ok`, `readData_eq_ok`), so an entry is read exactly
if it spells a field, and the array exactly if all of its entries do.
-/

namespace WireSchema

namespace TaggedField

/-- The parts of an entry, which is a pair, or an object with a key for each of them. -/
inductive HasParts (tag data : Json) : Json → Prop where
  | pair : HasParts tag data (.array [tag, data])
  /-- Other keys have no part in it. -/
  | object {members : List (String × Json)} (first : members.lookup "tag" = some tag)
      (second : members.lookup "data" = some data) : HasParts tag data (.object members)

/-- An entry stands for a field. -/
def Spells (entry : Json) (field : TaggedField) : Prop :=
  ∃ text, HasParts (.ofInt field.tag) (.string text) entry ∧
    (0 ≤ field.tag ∧ field.tag ≤ 2147483647) ∧ Hex.decode text = .ok field.data

/-- Two entries that are the same, or have the same parts, in whichever form. -/
def SameParts (entry entry' : Json) : Prop :=
  entry = entry' ∨ ∃ tag data, HasParts tag data entry ∧ HasParts tag data entry'

variable {index : Nat} {entry entry' tag data json : Json}

/-! ### One entry -/

theorem parts_eq_ok : parts index entry = .ok (tag, data) ↔ HasParts tag data entry := by
  constructor
  · intro run
    unfold parts at run
    split at run
    · cases run
      exact .pair
    · split at run
      · next first second =>
          cases run
          exact .object first second
      · cases run
    · cases run
  · intro parts
    cases parts with
    | pair => rfl
    | object first second => rw [parts_object, first, second, partsOf]

theorem eq_ofInt_of_integer? {n : Int} (found : json.integer? = some n) : json = .ofInt n := by
  unfold Json.integer? at found
  split at found
  · split at found
    · cases found
      rfl
    · cases found
  · cases found

theorem readTag_eq_ok {n : Int} :
    readTag index json = .ok n ↔ json = .ofInt n ∧ 0 ≤ n ∧ n ≤ 2147483647 := by
  have narrow : (0 ≤ n ∧ (Bounds.signed 32).contains n = true) ↔ 0 ≤ n ∧ n ≤ 2147483647 := by
    simp [Bounds.signed_32, Bounds.contains]
    omega
  constructor
  · intro run
    unfold readTag at run
    split at run
    · next found =>
        split at run
        · next range =>
            cases run
            exact ⟨eq_ofInt_of_integer? found, narrow.1 range⟩
        · cases run
    · cases run
  · rintro ⟨rfl, range⟩
    have wide : (Bounds.signed 64).contains n = true := by
      simp [Bounds.signed_64, Bounds.contains]
      omega
    rw [readTag, Json.ofInt, Json.integer?, if_pos wide]
    exact if_pos (narrow.2 range)

theorem readData_eq_ok {bytes : List UInt8} :
    readData index json = .ok bytes ↔
      ∃ text, json = .string text ∧ Hex.decode text = .ok bytes := by
  constructor
  · intro run
    unfold readData at run
    split at run
    · next text =>
        split at run
        · next decoded =>
            cases run
            exact ⟨text, rfl, decoded⟩
        · cases run
    · cases run
  · rintro ⟨text, rfl, decoded⟩
    rw [readData, decoded]

theorem readOne_eq_ok {field : TaggedField} :
    readOne index entry = .ok field ↔ Spells entry field := by
  simp only [readOne, Outcome.bind_eq_ok, Outcome.map_eq_ok]
  constructor
  · rintro ⟨⟨tag, data⟩, found, n, tagged, bytes, given, rfl⟩
    obtain ⟨rfl, range⟩ := readTag_eq_ok.1 tagged
    obtain ⟨text, rfl, decoded⟩ := readData_eq_ok.1 given
    exact ⟨text, parts_eq_ok.1 found, range, decoded⟩
  · rintro ⟨text, found, range, decoded⟩
    exact ⟨_, parts_eq_ok.2 found, _, readTag_eq_ok.2 ⟨rfl, range⟩, _,
      readData_eq_ok.2 ⟨text, rfl, decoded⟩, rfl⟩

/-- The form of an entry makes no difference, also if it is not read. -/
theorem readOne_of_sameParts (same : SameParts entry entry') :
    readOne index entry = readOne index entry' := by
  rcases same with rfl | ⟨tag, data, first, second⟩
  · rfl
  · rw [readOne, readOne, parts_eq_ok.2 first, parts_eq_ok.2 second]

/-! ### All entries -/

theorem readFrom_eq_ok {entries : List Json} {fields : List TaggedField} :
    readFrom index entries = .ok fields ↔ List.Forall₂ Spells entries fields := by
  induction entries generalizing index fields with
  | nil =>
      cases fields <;> simp [readFrom]
  | cons entry entries ih =>
      simp only [readFrom_cons_eq, Outcome.bind_eq_ok, Outcome.map_eq_ok, readOne_eq_ok, ih,
        List.forall₂_cons_left_iff]
      constructor
      · rintro ⟨field, first, others, later, rfl⟩
        exact ⟨field, others, first, later, rfl⟩
      · rintro ⟨field, others, first, later, rfl⟩
        exact ⟨field, first, others, later, rfl⟩

theorem readFrom_of_sameParts {entries entries' : List Json}
    (same : List.Forall₂ SameParts entries entries') :
    readFrom index entries = readFrom index entries' := by
  induction same generalizing index with
  | nil => rfl
  | cons first _ ih => rw [readFrom_cons_eq, readFrom_cons_eq, readOne_of_sameParts first, ih]

theorem read_eq_ok {fields : List TaggedField} :
    read json = .ok fields ↔
      ∃ entries, json = .array entries ∧ List.Forall₂ Spells entries fields := by
  have wrapped : read json = .ok fields ↔ readEntry json = .ok fields := by
    rw [read]
    cases readEntry json <;> simp
  rw [wrapped]
  constructor
  · intro run
    unfold readEntry at run
    split at run
    · next entries => exact ⟨entries, rfl, readFrom_eq_ok.1 run⟩
    · cases run
  · rintro ⟨entries, rfl, each⟩
    exact readFrom_eq_ok.2 each

theorem read_of_sameParts {entries entries' : List Json}
    (same : List.Forall₂ SameParts entries entries') :
    read (.array entries) = read (.array entries') := by
  rw [read, read, readEntry, readEntry, readFrom_of_sameParts same]

/-- **The reserved entry.** It is read exactly if it is an array in which every entry has a tag in
range and data that is hexadecimal, as a pair or as an object; then there is one field for each
entry, in order, with that tag and the bytes of that data. Neither the outcome nor a fault depends
on the forms of the entries. The written form of fields whose tags are not negative is read as those
fields. -/
theorem reserved_entry_read_exactly :
    (∀ json, (∃ fields, read json = .ok fields) ↔
      ∃ entries, json = .array entries ∧ ∀ entry ∈ entries, ∃ tag text bytes,
        HasParts (.ofInt tag) (.string text) entry ∧ (0 ≤ tag ∧ tag ≤ 2147483647) ∧
          Hex.decode text = .ok bytes) ∧
      (∀ entries fields, read (.array entries) = .ok fields ↔ List.Forall₂ Spells entries fields) ∧
      (∀ entries entries', List.Forall₂ SameParts entries entries' →
        read (.array entries) = read (.array entries')) ∧
      ∀ fields : List TaggedField, (∀ field ∈ fields, 0 ≤ field.tag ∧ field.tag ≤ 2147483647) →
        read (.array (fields.map toJson)) = .ok fields := by
  refine ⟨?_, ?_, fun _ _ => read_of_sameParts, ?_⟩
  · intro json
    simp only [read_eq_ok]
    constructor
    · rintro ⟨fields, entries, rfl, each⟩
      refine ⟨entries, rfl, ?_⟩
      intro entry mem
      obtain ⟨field, -, text, spelled⟩ := Outcome.exists_of_mem_left each mem
      exact ⟨field.tag, text, field.data, spelled⟩
    · rintro ⟨entries, rfl, each⟩
      have spelled : ∀ entry ∈ entries, ∃ field, Spells entry field := by
        intro entry mem
        obtain ⟨tag, text, bytes, parts⟩ := each entry mem
        exact ⟨⟨tag, bytes⟩, text, parts⟩
      obtain ⟨fields, each⟩ := Outcome.exists_forall₂ spelled
      exact ⟨fields, entries, rfl, each⟩
  · intro entries fields
    rw [read_eq_ok]
    constructor
    · rintro ⟨_, ⟨⟩, each⟩
      exact each
    · intro each
      exact ⟨entries, rfl, each⟩
  · intro fields tags
    rw [read, readEntry, Materializer.readFrom_toJson 0 tags]

end TaggedField

namespace Sample

open TaggedField

/-- A pair with the largest tag, and an object with its keys in reverse and another one. -/
def mixedEntries : List Json :=
  [.array [.ofInt 2147483647, .string "fF00"],
    .object [("data", .string ""), ("note", .null), ("tag", .ofInt 7)]]

/-- The same entries, each in the other form. -/
def mixedEntriesTurned : List Json :=
  [.object [("tag", .ofInt 2147483647), ("data", .string "fF00")],
    .array [.ofInt 7, .string ""]]

def mixedFields : List TaggedField :=
  [⟨2147483647, [0xff, 0x00]⟩, ⟨7, []⟩]

theorem mixedEntries_read :
    read (.array mixedEntries) = .ok mixedFields ∧
      read (.array mixedEntriesTurned) = .ok mixedFields ∧
      read (.array (mixedFields.map toJson)) = .ok mixedFields := by
  obtain ⟨-, each, forms, written⟩ := reserved_entry_read_exactly
  have spelled : List.Forall₂ Spells mixedEntries mixedFields :=
    .cons ⟨"fF00", .pair, by decide, by decide⟩
      (.cons ⟨"", .object rfl rfl, by decide, by decide⟩ .nil)
  have turned : List.Forall₂ SameParts mixedEntriesTurned mixedEntries :=
    .cons (.inr ⟨_, _, .object rfl rfl, .pair⟩)
      (.cons (.inr ⟨_, _, .pair, .object rfl rfl⟩) .nil)
  have first := (each mixedEntries mixedFields).2 spelled
  exact ⟨first, (forms _ _ turned).trans first, written mixedFields (by decide)⟩

end Sample

end WireSchema
