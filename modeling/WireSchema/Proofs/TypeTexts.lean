import WireSchema.Proofs.Blanks
import WireSchema.Proofs.Loaded

/-!
# Texts of field types

A type text is read after the blanks around it are dropped, and what stands beside an array marker
again.

Every type has at most one array level, and the text of a type that was read is read as that type.
A type that can be an element has a text that does not start with a bracket, so a marker on either
side of it is seen for what it is.
-/

namespace WireSchema

/-! ### Elements -/

namespace FieldType

open Text (IsBlanks Trimmed)

/-- The text of an element is what it was read from. -/
theorem toText_readElement (cs : List Char) : (readElement cs).toText = String.ofList cs := by
  have names : ∀ entry ∈ keywords, entry.2.toText = entry.1 := by decide
  unfold readElement
  split
  · next type found =>
      obtain ⟨before, after, split, -⟩ := List.lookup_eq_some_iff.1 found
      exact names (_, type) (split ▸ List.mem_append_right _ (List.mem_cons_self ..))
  · split
    · split <;> rfl
    · rfl

/-- What is read as an element starts with a letter, and so with no bracket. -/
theorem head_of_isElement {cs : List Char} (element : (readElement cs).isElement = true) :
    ∃ c rest, cs = c :: rest ∧ c ≠ '[' := by
  have names : ∀ entry ∈ keywords, entry.1.toList.head?.any (· ≠ '[') = true := by decide
  unfold readElement at element
  split at element
  · next type found =>
      obtain ⟨before, after, split, -⟩ := List.lookup_eq_some_iff.1 found
      have head := names (_, type) (split ▸ List.mem_append_right _ (List.mem_cons_self ..))
      cases cs with
      | nil => cases head
      | cons c rest => exact ⟨c, rest, rfl, by simpa using head⟩
  · split at element
    · next c rest _ =>
        refine ⟨c, rest, rfl, ?_⟩
        rintro rfl
        cases element
    · cases element

/-! ### Markers -/

/-- Behind a text that starts with no bracket a marker is seen. -/
theorem dropMarker?_append {c : Char} {cs : List Char} (noBracket : c ≠ '[') :
    dropMarker? (c :: cs ++ ['[', ']']) = some (c :: cs) := by
  unfold dropMarker?
  split
  · next split => exact absurd (List.cons.inj split).1 noBracket
  · simp

theorem readTrimmed_of_none {cs : List Char} (bare : dropMarker? cs = none) :
    readTrimmed cs = readElement cs := by
  simp [readTrimmed, bare]

/-- A type that can be an element has no marker. -/
theorem dropMarker?_of_isElement {cs : List Char} (element : (readTrimmed cs).isElement = true) :
    dropMarker? cs = none := by
  cases marker : dropMarker? cs with
  | none => rfl
  | some marked =>
      simp only [readTrimmed, marker] at element
      split at element <;> cases element

/-- An element beside a marker, with blanks between them, is read as an array. -/
theorem readTrimmed_of_some {cs marked inner : List Char} (marker : dropMarker? cs = some marked)
    (trim : Text.dropBlanks marked = inner) (bare : dropMarker? inner = none)
    (element : (readElement inner).isElement = true) :
    readTrimmed cs = .array (readElement inner) := by
  simp [readTrimmed, marker, trim, bare, element]

/-! ### Reading -/

theorem trimmed_marker : Trimmed ['[', ']'] where
  first := by
    rintro c ⟨⟩
    decide
  last := by
    rintro c ⟨⟩
    decide

variable {text : String} {left between right : String}

/-- A text that is read as an element is one inside its blanks. -/
theorem exists_of_isElement (element : (read text).isElement = true) :
    ∃ c rest, Text.dropBlanks text.toList = c :: rest ∧ c ≠ '[' ∧
      dropMarker? (c :: rest) = none ∧ read text = readElement (c :: rest) := by
  have bare := dropMarker?_of_isElement element
  have same : read text = readElement (Text.dropBlanks text.toList) := readTrimmed_of_none bare
  rw [same] at element
  obtain ⟨c, rest, split, noBracket⟩ := head_of_isElement element
  rw [split] at bare same
  exact ⟨c, rest, split, noBracket, bare, same⟩

/-- A marker before an element. -/
theorem read_marker_element (element : (read text).isElement = true)
    (before : IsBlanks left.toList) (amid : IsBlanks between.toList)
    (after : IsBlanks right.toList) :
    read (left ++ "[]" ++ between ++ text ++ right) = .array (read text) := by
  obtain ⟨c, rest, inner, -, bare, same⟩ := exists_of_isElement element
  obtain ⟨left', right', before', after', trimmed, chars⟩ := Text.exists_dropBlanks text.toList
  rw [inner] at trimmed chars
  have split : (left ++ "[]" ++ between ++ text ++ right).toList =
      left.toList ++ (['[', ']'] ++ (between.toList ++ left') ++ c :: rest) ++
        (right' ++ right.toList) := by
    simp [chars]
  have whole := Text.dropBlanks_eq before
    (trimmed_marker.between trimmed (by simp) (by simp) (between.toList ++ left'))
    (after'.append after)
  have trim := Text.dropBlanks_eq (amid.append before') trimmed Text.IsBlanks.nil
  rw [List.append_nil] at trim
  rw [read, split, whole, same]
  rw [same] at element
  exact readTrimmed_of_some rfl trim bare element

/-- A marker behind an element. -/
theorem read_element_marker (element : (read text).isElement = true)
    (before : IsBlanks left.toList) (amid : IsBlanks between.toList)
    (after : IsBlanks right.toList) :
    read (left ++ text ++ between ++ "[]" ++ right) = .array (read text) := by
  obtain ⟨c, rest, inner, noBracket, bare, same⟩ := exists_of_isElement element
  obtain ⟨left', right', before', after', trimmed, chars⟩ := Text.exists_dropBlanks text.toList
  rw [inner] at trimmed chars
  have split : (left ++ text ++ between ++ "[]" ++ right).toList =
      (left.toList ++ left') ++ (c :: rest ++ (right' ++ between.toList) ++ ['[', ']']) ++
        right.toList := by
    simp [chars]
  have whole := Text.dropBlanks_eq (before.append before')
    (trimmed.between trimmed_marker (by simp) (by simp) (right' ++ between.toList)) after
  have trim := Text.dropBlanks_eq Text.IsBlanks.nil trimmed (after'.append amid)
  rw [List.nil_append] at trim
  rw [read, split, whole, same]
  rw [same] at element
  exact readTrimmed_of_some (dropMarker?_append noBracket) trim bare element

/-! ### Texts of types -/

/-- A trimmed text is read as it stands. -/
theorem read_ofList {cs : List Char} (trimmed : Trimmed cs) :
    read (String.ofList cs) = readTrimmed cs := by
  rw [read, String.toList_ofList, trimmed.dropBlanks_eq]

/-- A type has the text it was read from, unless it is an array. -/
theorem readTrimmed_cases (cs : List Char) :
    (readTrimmed cs).toText = String.ofList cs ∨
      ∃ inner, read (String.ofList inner) = readElement inner ∧
        (readElement inner).isElement = true ∧ readTrimmed cs = .array (readElement inner) := by
  cases marker : dropMarker? cs with
  | none =>
      rw [readTrimmed_of_none marker]
      exact .inl (toText_readElement cs)
  | some marked =>
      simp only [readTrimmed, marker]
      split
      · next nested =>
          obtain ⟨bare, element⟩ := Bool.and_eq_true_iff.1 nested
          refine .inr ⟨Text.dropBlanks marked, ?_, element, rfl⟩
          rw [read_ofList (Text.trimmed_dropBlanks marked),
            readTrimmed_of_none (Option.isNone_iff_eq_none.1 bare)]
      · exact .inl rfl

/-- The text of a type that was read is read as that type. -/
theorem read_toText_read (text : String) : read (read text).toText = read text := by
  have trimmed := Text.trimmed_dropBlanks text.toList
  have same : read text = readTrimmed (Text.dropBlanks text.toList) := rfl
  rw [same]
  rcases readTrimmed_cases (Text.dropBlanks text.toList) with
    written | ⟨inner, inside, element, array⟩
  · rw [written, read_ofList trimmed]
  · rw [array, toText, toText_readElement, ← inside]
    rw [← inside] at element
    have empty : IsBlanks "".toList := by decide
    simpa using read_marker_element element empty empty empty

/-- The number of array levels of a type. -/
def arrayLevels : FieldType → Nat
  | .array element => element.arrayLevels + 1
  | _ => 0

theorem arrayLevels_of_isElement {type : FieldType} (element : type.isElement = true) :
    type.arrayLevels = 0 := by
  cases type with
  | array | unsupported => cases element
  | _ => rfl

theorem IsFlat.arrayLevels_le {type : FieldType} (flat : type.IsFlat) : type.arrayLevels ≤ 1 := by
  cases type with
  | array element => simp [arrayLevels, arrayLevels_of_isElement (flat element rfl)]
  | _ => exact Nat.zero_le 1

theorem isElement_iff {type : FieldType} :
    type.isElement = true ↔
      (∀ element, type ≠ .array element) ∧ ∀ raw, type ≠ .unsupported raw := by
  cases type <;> simp [isElement]

/-- **Normal forms of types.** A type that was read has at most one array level, and the element of
an array is neither an array nor unsupported. Its text is read as the same type. A marker before or
behind the text of any other type, with blanks wherever they may stand, makes an array of it. -/
theorem read_is_normal_form (text : String) :
    (read text).arrayLevels ≤ 1 ∧
      (∀ element, read text = .array element →
        (∀ inner, element ≠ .array inner) ∧ ∀ raw, element ≠ .unsupported raw) ∧
      read (read text).toText = read text ∧
      ((∀ inner, read text ≠ .array inner) → (∀ raw, read text ≠ .unsupported raw) →
        read ("[]" ++ text) = .array (read text) ∧ read (text ++ "[]") = .array (read text) ∧
        ∀ left between right : String, IsBlanks left.toList → IsBlanks between.toList →
          IsBlanks right.toList →
          read (left ++ "[]" ++ between ++ text ++ right) = .array (read text) ∧
            read (left ++ text ++ between ++ "[]" ++ right) = .array (read text)) := by
  refine ⟨(read_isFlat text).arrayLevels_le, ?_, read_toText_read text, ?_⟩
  · intro element array
    exact isElement_iff.1 (read_isFlat text element array)
  · intro noArray supported
    have element := isElement_iff.2 ⟨noArray, supported⟩
    have empty : IsBlanks "".toList := by decide
    refine ⟨?_, ?_, ?_⟩
    · simpa using read_marker_element element empty empty empty
    · simpa using read_element_marker element empty empty empty
    · intro left between right before amid after
      exact ⟨read_marker_element element before amid after,
        read_element_marker element before amid after⟩

/-- A name with brackets of its own, in both forms. -/
theorem bracketed_name_normal_form :
    read "Item[]s" = .struct "Item[]s" ∧ read "[] Item[]s\t" = .array (.struct "Item[]s") ∧
      read " Item[]s []" = .array (.struct "Item[]s") := by
  have name : read "Item[]s" = .struct "Item[]s" := by decide
  obtain ⟨-, -, -, marked⟩ := read_is_normal_form "Item[]s"
  obtain ⟨-, -, padded⟩ := marked (by simp [name]) (by simp [name])
  have first := padded "" " " "\t" (by decide) (by decide) (by decide)
  have second := padded " " " " "" (by decide) (by decide) (by decide)
  rw [name] at first second
  exact ⟨name, first.1, second.2⟩

end FieldType

end WireSchema
