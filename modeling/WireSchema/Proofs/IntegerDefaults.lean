import WireSchema.Proofs.DoubleTexts
import WireSchema.Proofs.FixtureKeys
import WireSchema.Proofs.Grounded

/-!
# Integers as defaults and as fixture values

An integer comes into an instance in two ways. As a **default** it is a text of the schema, decimal
or hexadecimal, that is read when the instance is built; if the schema has a JSON number instead,
then the text is what the number is printed as. As a **fixture value** it is a JSON number. Each way
has its own reader, and makes its own checks.

They agree: each of them takes `n` exactly if `n` is an integer of the kind, and stores `n`
(`integer_default_agrees_with_fixture`). For small integers this is the spec lemma of each reader.
For integers beyond 64 bits it rests on the text of a double, which is no numeral
(`Decimal.IsDoubleText.not_read`), and not the word `null` either.
-/

namespace WireSchema

open Fixture (Node)
open Schema (FieldRecord)

/-! ### Default texts -/

namespace Default

/-- The ways in which the integer `n` is written as a default. -/
inductive Writes (n : Int) : Json → Prop
  /-- As a number. -/
  | number {json : Json} (read : Json.read? (toString n) = some json) : Writes n json
  /-- As a text with its decimal digits. -/
  | decimal : Writes n (.string (toString n))
  /-- As a text with its hexadecimal digits, if it is not negative. -/
  | hexadecimal {k : Nat} {digits : List Char} (value : n = k) (hex : Numeral.IsHex k digits) :
      Writes n (.string ("0x" ++ String.ofList digits))

/-- A text that is not marked as hexadecimal is decimal. -/
theorem readInteger_of_unmarked {text : String} (small : 'x' ∉ text.toList)
    (large : 'X' ∉ text.toList) :
    readInteger text = Numeral.read 10 (.signed 64) text.toList := by
  unfold readInteger
  split
  · rename_i chars
    exact absurd (by simp [chars]) small
  · rename_i chars
    exact absurd (by simp [chars]) large
  · rfl

theorem signed_64_around_zero : (Bounds.signed 64).low ≤ 0 ∧ 0 ≤ (Bounds.signed 64).high := by
  decide

theorem readInteger_toString {n r : Int} :
    readInteger (toString n) = .ok r ↔ IntWidth.int64.Holds n ∧ r = n := by
  have unmarked : ∀ c ∈ ['x', 'X'], c ∉ (toString n).toList := by
    intro c letter mem
    rcases Text.mem_toString mem with rfl | digit
    · exact absurd letter (by decide)
    · simp only [List.mem_cons, List.not_mem_nil, or_false] at letter
      rcases letter with rfl | rfl <;> exact absurd digit (by decide)
  rw [readInteger_of_unmarked (unmarked 'x' (by simp)) (unmarked 'X' (by simp)),
    Numeral.read_toString signed_64_around_zero.1 signed_64_around_zero.2]
  have range : (Bounds.signed 64).contains n = true ↔ IntWidth.int64.Holds n :=
    @IntWidth.contains_iff .int64 n
  rw [range]

theorem readInteger_of_isHex {k : Nat} {digits : List Char} (hex : Numeral.IsHex k digits)
    {r : Int} :
    readInteger ("0x" ++ String.ofList digits) = .ok r ↔ IntWidth.int64.Holds k ∧ r = k := by
  have chars : ("0x" ++ String.ofList digits).toList = '0' :: 'x' :: digits := by simp
  have marked : readInteger ("0x" ++ String.ofList digits) =
      Numeral.read 16 (.signed 64) digits := by
    simp only [readInteger, chars]
  have high : (Bounds.signed 64).high = 9223372036854775807 := by decide
  rw [marked, Numeral.read_of_isHex signed_64_around_zero.2 hex, high]
  simp only [IntWidth.Holds]
  omega

theorem readInteger_of_isDoubleText {cs : List Char} (double : Decimal.IsDoubleText cs) (r : Int) :
    readInteger (String.ofList cs) ≠ .ok r := by
  have unmarked : ∀ c ∈ ['x', 'X'], c ∉ (String.ofList cs).toList := by
    intro c letter mem
    rw [String.toList_ofList] at mem
    have part := double.parts c mem
    simp only [List.mem_cons, List.not_mem_nil, or_false] at letter
    rcases letter with rfl | rfl <;> exact absurd part (by decide)
  rw [readInteger_of_unmarked (unmarked 'x' (by simp)) (unmarked 'X' (by simp)),
    String.toList_ofList]
  exact double.not_read signed_64_around_zero.1 signed_64_around_zero.2 r

/-- The text of a default that is an integer is decimal or hexadecimal, except for a number beyond
64 bits: its text is that of a double. -/
theorem Writes.text_cases {n : Int} {json : Json} (writes : Writes n json) :
    Schema.defaultText json = toString n ∨
      (∃ (k : Nat) (digits : List Char), n = k ∧ Numeral.IsHex k digits ∧
        Schema.defaultText json = "0x" ++ String.ofList digits) ∨
      ¬ IntWidth.int64.Holds n ∧
        ∃ cs, Decimal.IsDoubleText cs ∧ Schema.defaultText json = String.ofList cs := by
  cases writes with
  | decimal => exact .inl rfl
  | @hexadecimal k digits value hex => exact .inr (.inl ⟨k, digits, value, hex, rfl⟩)
  | number read =>
      rcases Json.read?_toString_cases read with rfl | ⟨literal, finite, rfl⟩
      · exact .inl rfl
      · have large : ¬ IntWidth.int64.Holds n := by
          intro small
          rw [Json.read?_toString small] at read
          cases read
        exact .inr (.inr ⟨large, _, Decimal.isDoubleText_writeDouble _ _,
          if_pos (Decimal.isFinite_toDouble finite)⟩)

/-- However it is written, the integer is read back from its default text, exactly if it fits in 64
bits with a sign. -/
theorem Writes.readInteger_eq_ok {n r : Int} {json : Json} (writes : Writes n json) :
    readInteger (Schema.defaultText json) = .ok r ↔ IntWidth.int64.Holds n ∧ r = n := by
  rcases writes.text_cases with text | ⟨k, digits, rfl, hex, text⟩ | ⟨large, cs, double, text⟩
  · rw [text]
    exact readInteger_toString
  · rw [text]
    exact readInteger_of_isHex hex
  · rw [text]
    have never := readInteger_of_isDoubleText double r
    simp [never, large]

theorem Writes.text_ne_null {n : Int} {json : Json} (writes : Writes n json) :
    Schema.defaultText json ≠ "null" := by
  intro null
  rcases writes.text_cases with text | ⟨k, digits, -, -, text⟩ | ⟨-, cs, double, text⟩
  · have letter : 'n' ∈ (toString n).toList := by
      rw [← text, null]
      decide
    rcases Text.mem_toString letter with minus | digit
    · exact absurd minus (by decide)
    · exact absurd digit (by decide)
  · have chars := congrArg String.toList (null.symm.trans text)
    simp at chars
  · have mark := double.mark
    rw [← String.toList_ofList (l := cs), ← text, null] at mark
    exact absurd mark (by decide)

theorem Writes.ofText_eq_ok {n : Int} {json : Json} (writes : Writes n json) {width : IntWidth}
    {value? : Option Value} :
    ofText (.int width) (Schema.defaultText json) = .ok value? ↔
      width.Holds n ∧ value? = some (.int width n) := by
  rw [ofText]
  by_cases fits : IntWidth.int64.Holds n
  · have read : readInteger (Schema.defaultText json) = .ok n :=
      writes.readInteger_eq_ok.2 ⟨fits, rfl⟩
    rw [read, ← IntWidth.contains_iff]
    cases within : width.bounds.contains n <;> simp [within, eq_comm]
  · have large : ¬ width.Holds n := fun holds => fits holds.int64
    cases read : readInteger (Schema.defaultText json) with
    | error fault => simp [large]
    | ok r => exact absurd (writes.readInteger_eq_ok.1 read).1 fits

end Default

/-! ### Fixture values -/

namespace Materializer

variable {m : Materializer} {width : IntWidth} {n : Int} {json : Json}

theorem convertInteger_eq_ok (read : Json.read? (toString n) = some json) {value : Value} :
    convertInteger width json = .ok value ↔ width.Holds n ∧ value = .int width n := by
  rw [convertInteger]
  by_cases fits : IntWidth.int64.Holds n
  · cases read.symm.trans (Json.read?_toString fits)
    have number : (Json.ofInt n).integer? = some n := if_pos (IntWidth.contains_iff.2 fits)
    rw [number, ← IntWidth.contains_iff]
    cases within : width.bounds.contains n <;> simp [within, eq_comm]
  · have large : ¬ width.Holds n := fun holds => fits holds.int64
    have none : json.integer? = none := by
      rcases Json.read?_toString_cases read with rfl | ⟨literal, -, rfl⟩
      · exact if_neg fun within => fits (IntWidth.contains_iff.1 within)
      · rfl
    simp [none, large]

/-- What a number gives to an integer field. -/
theorem given_eq_ok_of_read (read : Json.read? (toString n) = some json) {g : FieldSpec}
    (kind : g.type = .int width) (child : Node) {value? : Option Value} :
    m.given g child json = .ok value? ↔ width.Holds n ∧ value? = some (.int width n) := by
  obtain ⟨number, rfl⟩ : ∃ number, json = .number number := by
    rcases Json.read?_toString_cases read with rfl | ⟨literal, -, rfl⟩
    · exact ⟨_, rfl⟩
    · exact ⟨_, rfl⟩
  have converted : m.given g child (.number number) =
      (m.locate g.name (convertInteger width (.number number))).map some := by
    rw [given, kind]
    rfl
  rw [converted, Outcome.map_eq_ok]
  simp only [locate_eq_ok, convertInteger_eq_ok read]
  grind

end Materializer

/-! ### One field of a default instance -/

/-- A struct without its fields of a name. -/
def StructSpec.without (spec : StructSpec) (name : String) : StructSpec :=
  { spec with fields := spec.fields.filter (·.name ≠ name) }

theorem StructSpec.mem_fieldsAt_without {spec : StructSpec} {name : String} {v : Version}
    {field : FieldSpec} :
    field ∈ (spec.without name).fieldsAt v ↔ field ∈ spec.fieldsAt v ∧ field.name ≠ name := by
  simp only [without, fieldsAt, List.mem_filter, decide_eq_true_eq]
  tauto

namespace Materializer

variable {m : Materializer} {spec : StructSpec} {f : FieldSpec}

/-- The default of one field is apart from the rest of the instance. -/
theorem defaultInstance_succeeds_iff_without (distinct : spec.fieldNames.Nodup)
    (projected : f ∈ spec.fieldsAt m.version) :
    (∃ i, m.defaultInstance spec = .ok i) ↔
      (∃ value, m.HoldsDefault [spec.name] f value) ∧
        ∃ i, m.defaultInstance (spec.without f.name) = .ok i := by
  have same : (spec.without f.name).name = spec.name := rfl
  simp only [defaultInstance_succeeds_iff, same, StructSpec.mem_fieldsAt_without]
  constructor
  · intro each
    exact ⟨each f projected, fun field mem => each field mem.1⟩
  · intro parts field mem
    by_cases named : field.name = f.name
    · have one : field = f :=
        List.inj_on_of_nodup_map distinct (List.mem_filter.1 mem).1 (List.mem_filter.1 projected).1
          named
      exact one ▸ parts.1
    · exact parts.2 field ⟨mem, named⟩

/-- An instance of defaults holds what a field has as its default. -/
theorem get?_of_defaultInstance (distinct : spec.fieldNames.Nodup)
    (projected : f ∈ spec.fieldsAt m.version) {i : Instance}
    (run : m.defaultInstance spec = .ok i) :
    ∃ value, m.HoldsDefault [spec.name] f value ∧ i.get? f.name = some value := by
  obtain ⟨values, filled, rfl⟩ := defaultInstance_eq_ok.1 run
  have each := defaultFields_eq_ok.1 filled
  obtain ⟨⟨name, value⟩, mem, rfl, holds⟩ := Outcome.exists_of_mem_left each projected
  refine ⟨value, holds, (Json.lookup_eq_some_iff_mem ?_).2 mem⟩
  have names := (defaultInstance_conforms run).fieldNames
  rw [Instance.fieldNames] at names
  rw [names]
  exact distinct.sublist (List.filter_sublist.map _)

/-! ### An integer field without a fixture value -/

variable {width : IntWidth} {n : Int} {json : Json}

theorem declaredDefault_eq_ok (writes : Default.Writes n json) (kind : f.type = .int width)
    (declared : f.defaultText = some (Schema.defaultText json)) {value? : Option Value} :
    m.declaredDefault f = .ok value? ↔ width.Holds n ∧ value? = some (.int width n) := by
  rw [← writes.ofText_eq_ok, declaredDefault, declared, kind]
  simp only [writes.text_ne_null, false_and, if_false]
  cases Default.ofText (.int width) (Schema.defaultText json) <;> simp

theorem holdsDefault_iff (writes : Default.Writes n json) (kind : f.type = .int width)
    (declared : f.defaultText = some (Schema.defaultText json)) {path : List String}
    {value : Value} :
    m.HoldsDefault path f value ↔ width.Holds n ∧ value = .int width n := by
  have given : ∀ value?, m.declaredDefault f = .ok value? ↔
      width.Holds n ∧ value? = some (.int width n) :=
    fun _ => declaredDefault_eq_ok writes kind declared
  have present : m.declaredDefault f ≠ .ok none := by simp [given]
  constructor
  · intro holds
    cases holds with
    | value step =>
        cases obtained_of_defaultStep step with
        | declared taken => simpa [given] using taken
        | zero absent => exact absurd absent present
        | cut absent => exact absurd absent present
    | struct step =>
        cases obtained_of_defaultStep step with
        | inside absent => exact absurd absent present
  · intro holds
    obtain ⟨within, rfl⟩ := holds
    refine .value ?_
    rw [defaultStep, (given _).2 ⟨within, rfl⟩]

/-! ### Objects with at most one member -/

variable {node : Node} {i : Instance}

theorem materialize_object_eq_ok {members : List (String × Json)} :
    m.materialize node (.object members) = .ok (some i) ↔
      ∃ defaults, m.start node = .ok defaults ∧ m.assign node defaults members = .ok i := by
  rw [materialize]
  simp only [Outcome.bind_eq_ok, Except.ok.injEq, Option.some.injEq, exists_eq_right]

theorem materialize_empty_eq_ok :
    m.materialize node (.object []) = .ok (some i) ↔ m.start node = .ok i := by
  simp [materialize_object_eq_ok, assign]

/-- The empty object gives an instance exactly if the integer is of the kind and the other fields
have their defaults. -/
theorem materialize_empty_succeeds_iff (here : node.struct? = some spec)
    (distinct : spec.fieldNames.Nodup) (projected : f ∈ spec.fieldsAt m.version)
    (kind : f.type = .int width) (writes : Default.Writes n json)
    (declared : f.defaultText = some (Schema.defaultText json)) :
    (∃ i, m.materialize node (.object []) = .ok (some i)) ↔
      width.Holds n ∧ ∃ i, m.defaultInstance (spec.without f.name) = .ok i := by
  simp only [materialize_empty_eq_ok, start, here,
    defaultInstance_succeeds_iff_without distinct projected,
    holdsDefault_iff writes kind declared, exists_and_left, exists_eq, and_true]

theorem get?_of_materialize_empty (here : node.struct? = some spec)
    (distinct : spec.fieldNames.Nodup) (projected : f ∈ spec.fieldsAt m.version)
    (kind : f.type = .int width) (writes : Default.Writes n json)
    (declared : f.defaultText = some (Schema.defaultText json))
    (run : m.materialize node (.object []) = .ok (some i)) :
    i.get? f.name = some (.int width n) := by
  have started := materialize_empty_eq_ok.1 run
  rw [start, here] at started
  obtain ⟨value, holds, stored⟩ := get?_of_defaultInstance distinct projected started
  rw [stored, ((holdsDefault_iff writes kind declared).1 holds).2]

theorem position_of_integer (kind : f.type = .int width) :
    Node.ofField m.registry f = .ok (.field f none) := by
  rw [Node.ofField, kind]
  rfl

/-- A number for an integer field is stored if it is an integer of the kind, and a fault
otherwise. -/
theorem materialize_member_eq_ok {key : String} (ordinary : key ≠ unknownTaggedKey)
    (addressed : node.fieldOf key = .ok f) (present : f.existsAt m.version = true)
    (kind : f.type = .int width) (read : Json.read? (toString n) = some json) :
    m.materialize node (.object [(key, json)]) = .ok (some i) ↔
      width.Holds n ∧ ∃ defaults, m.materialize node (.object []) = .ok (some defaults) ∧
        i = defaults.set f.name (.int width n) := by
  have reads :=
    (addresses_of_fieldOf ordinary addressed).reads _ present (position_of_integer kind)
  rw [materialize_object_eq_ok]
  simp only [materialize_empty_eq_ok, reads, Outcome.map_eq_ok, given_eq_ok_of_read read kind]
  constructor
  · intro run
    obtain ⟨defaults, started, _, ⟨within, rfl⟩, rfl⟩ := run
    exact ⟨within, defaults, started, rfl⟩
  · intro stored
    obtain ⟨within, defaults, started, rfl⟩ := stored
    exact ⟨defaults, started, _, ⟨within, rfl⟩, rfl⟩

theorem get?_of_materialize_member {key : String} (ordinary : key ≠ unknownTaggedKey)
    (addressed : node.fieldOf key = .ok f) (present : f.existsAt m.version = true)
    (kind : f.type = .int width) (read : Json.read? (toString n) = some json)
    (run : m.materialize node (.object [(key, json)]) = .ok (some i)) :
    i.get? f.name = some (.int width n) := by
  obtain ⟨-, defaults, empty, rfl⟩ :=
    (materialize_member_eq_ok ordinary addressed present kind read).1 run
  have started := materialize_empty_eq_ok.1 empty
  obtain ⟨spec, here⟩ := struct?_of_start started
  rw [start, here] at started
  have selected := select_of_fieldOf addressed present (position_of_integer kind)
  have named := mem_fieldNames_of_select here (defaultInstance_conforms started).fieldNames selected
  exact Instance.get?_set_self named _

end Materializer

/-- **Integer defaults and fixture values agree.** Take an integer `n` of any size and an integer
kind. On the one side is a field of that kind in a loaded message, at a position that names lead to,
whose record declares `n` as its default: as a number, as a decimal text, or as a hexadecimal one.
On the other side is a field of that kind that a key stands for, and the number `n` for it.

The empty object gives an instance for the one exactly if `n` is an integer of the kind and the rest
of the struct has its defaults; the number gives one for the other exactly if `n` is an integer of
the kind and the empty object gives one. Both store `n`. -/
theorem integer_default_agrees_with_fixture {n : Int} {width : IntWidth} {text : String}
    {message : MessageSpec} {ms : List MessageSpec} {v : Version} {m m' : Materializer}
    {names : List String} {node node' : Node} {spec : StructSpec} {record : FieldRecord}
    {f g : FieldSpec} {default : Json} {key : String}
    (loaded : MessageSpec.load text = .ok message)
    (others : ∀ other ∈ ms, ∃ text, MessageSpec.load text = .ok other)
    (valid : Materializer.new message (Registry.afterAll ms) v = .ok m)
    (reached : m.root.descend m.registry names = .ok node) (here : node.struct? = some spec)
    (projected : f ∈ spec.fieldsAt v) (kind : f.type = .int width)
    (built : Schema.buildField spec.name spec.versions record = .ok f)
    (declared : record.default = some default) (writes : Default.Writes n default)
    (ordinary : key ≠ unknownTaggedKey) (addressed : node'.fieldOf key = .ok g)
    (present : g.existsAt m'.version = true) (kind' : g.type = .int width) :
    ((∃ i, m.materialize node (.object []) = .ok (some i)) ↔
      width.Holds n ∧ ∃ i, m.defaultInstance (spec.without f.name) = .ok i) ∧
    (∀ i, m.materialize node (.object []) = .ok (some i) →
      i.get? f.name = some (.int width n)) ∧
    ((∃ json i, Json.read? (toString n) = some json ∧
        m'.materialize node' (.object [(key, json)]) = .ok (some i)) ↔
      width.Holds n ∧ ∃ i, m'.materialize node' (.object []) = .ok (some i)) ∧
    ∀ json i, Json.read? (toString n) = some json →
      m'.materialize node' (.object [(key, json)]) = .ok (some i) →
        i.get? g.name = some (.int width n) := by
  obtain rfl := new_eq_ok valid
  have distinct := MessageSpec.fieldNames_nodup_of_descend loaded others reached here
  have literal : f.defaultText = some (Schema.defaultText default) := by
    rw [(Schema.buildField_eq_ok.1 built).default, declared]
    rfl
  refine ⟨?_, ?_, ?_, ?_⟩
  · exact Materializer.materialize_empty_succeeds_iff here distinct projected kind writes literal
  · intro i run
    exact Materializer.get?_of_materialize_empty here distinct projected kind writes literal run
  · constructor
    · intro taken
      obtain ⟨json, i, read, run⟩ := taken
      obtain ⟨within, defaults, started, -⟩ :=
        (Materializer.materialize_member_eq_ok ordinary addressed present kind' read).1 run
      exact ⟨within, defaults, started⟩
    · intro parts
      obtain ⟨within, defaults, started⟩ := parts
      have read := Json.read?_toString within.int64
      exact ⟨_, _, read,
        (Materializer.materialize_member_eq_ok ordinary addressed present kind' read).2
          ⟨within, defaults, started, rfl⟩⟩
  · intro json i read run
    exact Materializer.get?_of_materialize_member ordinary addressed present kind' read run

namespace Sample

/-! ### A message with an integer default -/

def ticketMaterializer : Materializer := ⟨ticket, Registry.afterAll [ticket], 4⟩

def levelRecord : FieldRecord where
  name := some "Level"
  type := some "int8"
  versions := some "4+"
  taggedVersions := none
  tag := none
  nullableVersions := none
  default := some (.string "0x7F")
  about := none
  fields := none

/-- The defaults of the other fields. -/
theorem defaultInstance_ticket :
    ticketMaterializer.defaultInstance (ticket.struct.without "Level") =
      .ok ⟨"Ticket", [("Seat", .struct ⟨"Place", [("Label", .string ""), ("Keys", .array [])], []⟩),
        ("RideCount", .int .int8 0), ("Type", .string "")], []⟩ := by
  cbv

theorem ticket_level_agrees_with_rides :
    MessageSpec.load ticketText = .ok ticket ∧
      Materializer.new ticket (Registry.afterAll [ticket]) 4 = .ok ticketMaterializer ∧
      Schema.buildField ticket.struct.name ticket.struct.versions levelRecord = .ok level ∧
      Default.Writes 127 (.string "0x7F") ∧ IntWidth.int8.Holds 127 ∧
      (∃ i, ticketMaterializer.materialize ticketMaterializer.root (.object []) = .ok (some i) ∧
        i.get? "Level" = some (.int .int8 127)) ∧
      ∃ json i, Json.read? "127" = some json ∧
        ticketMaterializer.materialize ticketMaterializer.root (.object [("ride_count", json)]) =
          .ok (some i) ∧ i.get? "RideCount" = some (.int .int8 127) := by
  have loaded : ∀ other ∈ [ticket], ∃ text, MessageSpec.load text = .ok other := by
    intro other listed
    cases List.mem_singleton.1 listed
    exact ⟨ticketText, load_ticketText⟩
  have valid : Materializer.new ticket (Registry.afterAll [ticket]) 4 = .ok ticketMaterializer :=
    rfl
  have built : Schema.buildField ticket.struct.name ticket.struct.versions levelRecord =
      .ok level := rfl
  have digits : Numeral.IsHex 127 ['7', 'F'] := ⟨0, rfl⟩
  have writes : Default.Writes 127 (.string "0x7F") := .hexadecimal rfl digits
  have range : IntWidth.int8.Holds 127 := by simp [IntWidth.Holds]
  have reached : ticketMaterializer.root.descend ticketMaterializer.registry [] =
      .ok ticketMaterializer.root := rfl
  have projected : level ∈ ticket.struct.fieldsAt 4 :=
    List.mem_filter.2 ⟨by simp [ticket], rfl⟩
  have addressed : ticketMaterializer.root.fieldOf "ride_count" = .ok rideCount := rfl
  have present : rideCount.existsAt ticketMaterializer.version = true := rfl
  obtain ⟨succeeds, levels, taken, rides⟩ := integer_default_agrees_with_fixture load_ticketText
    loaded valid reached rfl projected rfl built rfl writes (by decide) addressed present rfl
  obtain ⟨i, run⟩ := succeeds.2 ⟨range, _, defaultInstance_ticket⟩
  obtain ⟨json, j, read, run'⟩ := taken.2 ⟨range, i, run⟩
  exact ⟨load_ticketText, valid, built, writes, range, ⟨i, run, levels i run⟩, json, j, read, run',
    rides json j read run'⟩

end Sample

end WireSchema
