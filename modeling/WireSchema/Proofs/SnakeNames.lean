import WireSchema.Proofs.FixtureKeys

/-!
# Names in snake case

A name in **snake case** is made of segments with one underscore between each two. A segment starts
with a small letter and has neither capitals nor underscores, and only the last one may be a single
letter. On such names nothing is lost by Pascal case: a capital stands where a segment starts, and
after at least one other character of the segment before, so that it opens a word again
(`snakeAfter_segments`). Single letters in a row would become one word of capitals: `x_y_z` comes
back as `xyz`.

For fixtures this means that a key in snake case can be told from the field that it stands for. The
tables of casing exceptions and of aliases only replace names by names with the same snake case
form, up to synonyms, so the snake case form of the field's name stands for the same key
(`substituted_snakeCase_of_fieldOf`).
-/

namespace WireSchema

namespace Text

/-! ### Letters -/

theorem small_spec : ∀ n < 123, 97 ≤ n →
    (Char.ofNat n).toUpper.isUpper = true ∧ (Char.ofNat n).toUpper.toLower = Char.ofNat n := by
  decide

theorem small_toUpper {c : Char} (small : c.isLower = true) :
    c.toUpper.isUpper = true ∧ c.toUpper.toLower = c := by
  obtain ⟨low, high⟩ := Bool.and_eq_true_iff.1 small
  have low : 97 ≤ c.toNat := UInt32.le_iff_toNat_le.1 (of_decide_eq_true low)
  have high : c.toNat ≤ 122 := UInt32.le_iff_toNat_le.1 (of_decide_eq_true high)
  have spec := small_spec c.toNat (Nat.lt_succ_of_le high) low
  rwa [Char.ofNat_toNat] at spec

theorem snakeAfter_of_small {cs : List Char} (small : ∀ c ∈ cs, c.isUpper = false)
    (previous : Option Char) : snakeAfter previous cs = cs := by
  induction cs generalizing previous with
  | nil => rfl
  | cons c cs ih =>
      obtain ⟨first, others⟩ := List.forall_mem_cons.1 small
      simp [snakeAfter, first, ih others]

theorem isUpper_of_mem_snakeAfter {previous : Option Char} {cs : List Char} :
    ∀ c ∈ snakeAfter previous cs, c.isUpper = false := by
  induction cs generalizing previous with
  | nil => exact List.forall_mem_nil _
  | cons d cs ih =>
      rw [snakeAfter]
      split
      · next capital =>
          have lowered : d.toLower.isUpper = false := (capital_toLower capital).2.2
          split
          · exact List.forall_mem_cons.2 ⟨by decide, List.forall_mem_cons.2 ⟨lowered, ih⟩⟩
          · exact List.forall_mem_cons.2 ⟨lowered, ih⟩
      · next small => exact List.forall_mem_cons.2 ⟨Bool.eq_false_iff.2 small, ih⟩

/-- Snake case has no capitals, so it is left alone. -/
theorem snakeCase_snakeCase (name : String) : snakeCase (snakeCase name) = snakeCase name := by
  rw [snakeCase, snakeCase, String.toList_ofList, snakeAfter_of_small isUpper_of_mem_snakeAfter]

/-! ### Segments -/

/-- A segment of a name. -/
structure IsSegment (cs : List Char) : Prop where
  /-- It starts with a small letter. -/
  first : cs.head?.any Char.isLower = true
  /-- It has neither capitals nor underscores. -/
  plain : ∀ c ∈ cs, IsInner c

instance (cs : List Char) : Decidable (IsSegment cs) :=
  decidable_of_iff
    (cs.head?.any Char.isLower = true ∧ cs.all (fun c => !c.isUpper && c != '_') = true)
    ⟨fun both => ⟨both.1, isInner_of_all both.2⟩,
      fun segment => ⟨segment.first, by simpa [IsInner] using segment.plain⟩⟩

/-- A name in snake case. -/
def IsSnake (name : String) : Prop :=
  ∃ segments : List (List Char), segments ≠ [] ∧ name.toList = ['_'].intercalate segments ∧
    (∀ segment ∈ segments, IsSegment segment) ∧ ∀ segment ∈ segments.dropLast, 2 ≤ segment.length

/-- The segments of a name are what stands between its underscores. -/
theorem isSnake_iff {name : String} :
    IsSnake name ↔ (∀ segment ∈ name.toList.splitOn '_', IsSegment segment) ∧
      ∀ segment ∈ (name.toList.splitOn '_').dropLast, 2 ≤ segment.length := by
  constructor
  · intro snake
    obtain ⟨segments, nonempty, chars, each, long⟩ := snake
    have free : ∀ segment ∈ segments, '_' ∉ segment :=
      fun segment mem underscore => ((each segment mem).plain _ underscore).2 rfl
    rw [chars, List.splitOn_intercalate '_' free nonempty]
    exact ⟨each, long⟩
  · intro both
    exact ⟨_, List.splitOn_ne_nil _ _, (List.intercalate_splitOn '_').symm, both.1, both.2⟩

instance (name : String) : Decidable (IsSnake name) :=
  decidable_of_iff _ isSnake_iff.symm

/-! ### There and back -/

/-- A segment is a small letter and what follows it, and Pascal case makes the letter a capital. -/
theorem IsSegment.exists_cons {cs : List Char} (segment : IsSegment cs) :
    ∃ c inner, cs = c :: inner ∧ capitalize cs = c.toUpper :: inner ∧
      c.toUpper.isUpper = true ∧ c.toUpper.toLower = c ∧ ∀ d ∈ inner, IsInner d := by
  cases cs with
  | nil => cases segment.first
  | cons c inner =>
      obtain ⟨capital, back⟩ := small_toUpper (c := c) (by simpa using segment.first)
      refine ⟨c, inner, rfl, ?_, capital, back, (List.forall_mem_cons.1 segment.plain).2⟩
      rw [capitalize, map_toLower_of_inner segment.plain]

/-- A segment of several characters is a word with a small first letter. -/
theorem IsSegment.exists_word {cs : List Char} (segment : IsSegment cs) (long : 2 ≤ cs.length) :
    ∃ w : Word, w.chars = capitalize cs ∧ w.small = cs := by
  obtain ⟨c, inner, rfl, cased, capital, back, plain⟩ := segment.exists_cons
  have nonempty : inner ≠ [] := by
    intro none
    simp [none] at long
  refine ⟨⟨c.toUpper, inner, capital, nonempty, plain⟩, ?_, ?_⟩
  · rw [cased, Word.chars]
  · rw [Word.small, back]

/-- The last segment may be a single letter, since no capital follows it. -/
theorem snakeAfter_last {cs : List Char} (segment : IsSegment cs) (previous : Option Char) :
    snakeAfter previous (capitalize cs) = (if opensWord previous then ['_'] else []) ++ cs := by
  obtain ⟨c, inner, rfl, cased, capital, back, plain⟩ := segment.exists_cons
  have carried := snakeAfter_of_small (fun d mem => (plain d mem).1) (some c.toUpper)
  rw [cased, snakeAfter, if_pos capital, carried, back]
  split <;> rfl

theorem snakeAfter_segments {segments : List (List Char)} (nonempty : segments ≠ [])
    (each : ∀ segment ∈ segments, IsSegment segment)
    (long : ∀ segment ∈ segments.dropLast, 2 ≤ segment.length) (previous : Option Char) :
    snakeAfter previous (segments.flatMap capitalize) =
      (if opensWord previous then ['_'] else []) ++ ['_'].intercalate segments := by
  induction segments generalizing previous with
  | nil => exact absurd rfl nonempty
  | cons segment segments ih =>
      obtain ⟨here, others⟩ := List.forall_mem_cons.1 each
      cases segments with
      | nil => simpa using snakeAfter_last here previous
      | cons next segments =>
          rw [List.dropLast_cons_cons] at long
          obtain ⟨length, longs⟩ := List.forall_mem_cons.1 long
          obtain ⟨w, chars, small⟩ := here.exists_word length
          obtain ⟨last, opens, written⟩ := snakeAfter_word w previous
          have rest := ih (List.cons_ne_nil _ _) others longs (some last)
          rw [if_pos opens] at rest
          rw [List.flatMap_cons, ← chars, written, small, rest, List.intercalate_cons_cons,
            List.append_assoc, List.append_assoc]

theorem snakeCase_pascalCase {name : String} (snake : IsSnake name) :
    snakeCase (pascalCase name) = name := by
  obtain ⟨each, long⟩ := isSnake_iff.1 snake
  have back := snakeAfter_segments (List.splitOn_ne_nil '_' name.toList) each long none
  rw [snakeCase, pascalCase, String.toList_ofList, back, List.intercalate_splitOn]
  exact String.ofList_toList

theorem pascalCase_inj {a b : String} (snakeA : IsSnake a) (snakeB : IsSnake b)
    (same : pascalCase a = pascalCase b) : a = b := by
  rw [← snakeCase_pascalCase snakeA, ← snakeCase_pascalCase snakeB, same]

end Text

open Text (IsSnake)

namespace Fixture

/-! ### Keys -/

/-- The key that a key is replaced by. Most keys stand for themselves. -/
def substituted (key : String) : String :=
  (synonym? key).getD key

theorem synonym_spec : ∀ entry ∈ synonyms, IsSnake entry.2 ∧ synonym? entry.2 = none := by
  decide

theorem casingException_spec : ∀ entry ∈ casingExceptions,
    substituted (Text.snakeCase entry.2) = substituted (Text.snakeCase entry.1) := by
  decide

theorem alias_spec : ∀ entry ∈ aliases, Text.snakeCase entry.2 = Text.snakeCase entry.1 := by
  decide

/-- What replaces a key is in snake case if the key is, and is not replaced again. -/
theorem substituted_cases {key : String} (snake : IsSnake key) :
    IsSnake (substituted key) ∧ substituted (substituted key) = substituted key := by
  cases replaced : synonym? key with
  | none => simpa [substituted, replaced] using snake
  | some other =>
      obtain ⟨snake, plain⟩ := synonym_spec _ (mem_of_lookup replaced)
      have stands : substituted key = other := by simp [substituted, replaced]
      rw [stands]
      exact ⟨snake, by simp [substituted, plain]⟩

/-- The snake case form of every spelling that a key may be settled on stands for the key. -/
theorem substituted_snakeCase_of_candidate {key canonical : String} (snake : IsSnake key)
    (mem : canonical ∈ candidates key) :
    substituted (Text.snakeCase canonical) = substituted key := by
  obtain ⟨snake, once⟩ := substituted_cases snake
  have back := Text.snakeCase_pascalCase snake
  have itself : Text.snakeCase (substituted key) = substituted key := by
    rw [← back, Text.snakeCase_snakeCase]
  have spellings : canonical = substituted key ∨ canonical = Text.pascalCase (substituted key) ∨
      casingException? (Text.pascalCase (substituted key)) = some canonical := by
    simpa [candidates, substituted, eq_comm] using mem
  rcases spellings with rfl | rfl | exception
  · rw [itself, once]
  · rw [back, once]
  · rw [casingException_spec _ (mem_of_lookup exception), back, once]

/-- The snake case form of a field's name stands for every key in snake case that stands for the
field. -/
theorem substituted_snakeCase_of_fieldOf {node : Node} {key : String} {f : FieldSpec}
    (snake : IsSnake key) (stands : node.fieldOf key = .ok f) :
    substituted (Text.snakeCase f.name) = substituted key := by
  obtain ⟨canonical, settled, looked⟩ := Outcome.bind_eq_ok.1 stands
  rw [← substituted_snakeCase_of_candidate snake (mem_candidates_of_normalize settled)]
  rcases node.name_of_lookup looked with rfl | spelled
  · rfl
  · rw [alias_spec _ (mem_of_lookup spelled)]

end Fixture

/-- **Snake case survives Pascal case.** The snake case of the Pascal case of a name in snake case
is the name, so different names in snake case have different Pascal case forms. As keys of a
fixture, two of them stand for one field only if they are the same up to synonyms: the table of
synonyms is the only one that brings different keys together. -/
theorem snake_case_survives_pascal_case :
    (∀ name, IsSnake name → Text.snakeCase (Text.pascalCase name) = name) ∧
    (∀ a b, IsSnake a → IsSnake b → Text.pascalCase a = Text.pascalCase b → a = b) ∧
    ∀ (node : Fixture.Node) (f : FieldSpec) (a b : String), IsSnake a → IsSnake b →
      node.fieldOf a = .ok f → node.fieldOf b = .ok f →
      Fixture.substituted a = Fixture.substituted b := by
  refine ⟨fun _ => Text.snakeCase_pascalCase, fun _ _ => Text.pascalCase_inj, ?_⟩
  intro node f a b snakeA snakeB standsA standsB
  rw [← Fixture.substituted_snakeCase_of_fieldOf snakeA standsA,
    Fixture.substituted_snakeCase_of_fieldOf snakeB standsB]

namespace Sample

def timeoutField : FieldSpec :=
  ⟨"timeoutMs", .string, ⟨0, 1⟩, none, none, .none, none, none, none⟩

def timeoutNode : Fixture.Node :=
  .root ⟨"Deadline", ⟨0, 1⟩, [timeoutField]⟩

/-- A single letter at the end, and characters that are no letters of ASCII; a synonym and the key
that it is replaced by, which stand for a field with an alias. -/
theorem zurich_cased_and_timeout_found :
    Text.pascalCase "k9_zürich_x" = "K9ZürichX" ∧ Text.snakeCase "K9ZürichX" = "k9_zürich_x" ∧
      Text.pascalCase "timeout" ≠ Text.pascalCase "timeout_ms" ∧
      timeoutNode.fieldOf "timeout" = .ok timeoutField ∧
      timeoutNode.fieldOf "timeout_ms" = .ok timeoutField ∧
      Fixture.substituted "timeout" = Fixture.substituted "timeout_ms" := by
  obtain ⟨back, inj, keys⟩ := snake_case_survives_pascal_case
  have cased : Text.pascalCase "k9_zürich_x" = "K9ZürichX" := by decide
  have written := back "k9_zürich_x" (by decide)
  rw [cased] at written
  have timeout : timeoutNode.fieldOf "timeout" = .ok timeoutField := rfl
  have timeoutMs : timeoutNode.fieldOf "timeout_ms" = .ok timeoutField := rfl
  refine ⟨cased, written, ?_, timeout, timeoutMs, ?_⟩
  · intro same
    exact absurd (inj _ _ (by decide) (by decide) same) (by decide)
  · exact keys timeoutNode timeoutField _ _ (by decide) (by decide) timeout timeoutMs

end Sample

end WireSchema
