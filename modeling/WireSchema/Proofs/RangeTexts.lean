import WireSchema.Proofs.Blanks
import WireSchema.Proofs.Lines
import WireSchema.Proofs.Numerals
import WireSchema.Proofs.VersionRanges

/-!
# Texts of version ranges

A range is written in one of four forms, and the form of a text is told by its signs before any
bound is read. The two signs may also stand in front of a number, so a bound must not be written
with one: the bounds of a range that has a text are not negative, and are written with digits only
(`isDigits_toString`). Then a sign stands only where its form puts it, and each form is read as the
range that it is written for.

The forms overlap at the greatest version, where the open-ended one is written.
-/

namespace WireSchema

namespace Text

theorem splitFirst?_append {sep : Char} {before : List Char} (free : sep ∉ before)
    (after : List Char) : splitFirst? sep (before ++ sep :: after) = some (before, after) := by
  induction before with
  | nil => simp [splitFirst?]
  | cons c before ih =>
      obtain ⟨other, later⟩ := List.ne_and_not_mem_of_not_mem_cons free
      simp [splitFirst?, other.symm, ih later]

theorem splitFirst?_of_not_mem {sep : Char} {cs : List Char} (free : sep ∉ cs) :
    splitFirst? sep cs = none := by
  induction cs with
  | nil => rfl
  | cons c cs ih =>
      obtain ⟨other, later⟩ := List.ne_and_not_mem_of_not_mem_cons free
      simp [splitFirst?, other.symm, ih later]

/-! ### Digits -/

/-- At least one digit, and nothing else. -/
structure IsDigits (cs : List Char) : Prop where
  nonempty : cs ≠ []
  digit : ∀ c ∈ cs, c.isDigit = true

namespace IsDigits

variable {cs : List Char}

theorem not_mem (digits : IsDigits cs) {c : Char} (other : c.isDigit = false) : c ∉ cs := by
  intro mem
  rw [digits.digit c mem] at other
  cases other

theorem getLast?_append_ne (digits : IsDigits cs) (front : List Char) {c : Char}
    (other : c.isDigit = false) : (front ++ cs).getLast? ≠ some c := by
  rw [List.getLast?_append_of_ne_nil _ digits.nonempty]
  intro last
  exact digits.not_mem other (List.mem_of_getLast? last)

theorem isBlank_eq (digits : IsDigits cs) : ∀ c ∈ cs, isBlank c = false := by
  have none : ∀ n < 58, 48 ≤ n → isBlank (Char.ofNat n) = false := by decide
  intro c mem
  obtain ⟨low, high⟩ := Char.isDigit_iff_toNat.1 (digits.digit c mem)
  have blank := none c.toNat (Nat.lt_succ_of_le high) low
  rwa [Char.ofNat_toNat] at blank

end IsDigits

end Text

open Text (IsDigits)

namespace VersionRange

variable {lowest highest : Version}

/-! ### Bounds -/

theorem isDigits_toString (nonneg : 0 ≤ lowest) : IsDigits (toString lowest).toList := by
  rw [Text.toList_toString, if_neg (Int.not_lt.2 nonneg)]
  refine ⟨Nat.toDigits_ne_nil, ?_⟩
  intro c mem
  exact Nat.isDigit_of_mem_toDigits (by decide) (by decide) mem

theorem readBound_toString (nonneg : 0 ≤ lowest) (le : lowest ≤ Version.greatest) :
    readBound (toString lowest).toList = .ok lowest := by
  have trimmed := Text.dropBlanks_of_free (isDigits_toString nonneg).isBlank_eq
  have within : Version.bounds.contains lowest = true := by
    have low : Version.bounds.low ≤ lowest := Int.le_trans (by decide) nonneg
    have high : lowest ≤ Version.bounds.high := le
    simp [Bounds.contains, low, high]
  have read : Numeral.read 10 Version.bounds (toString lowest).toList = .ok lowest :=
    (Numeral.read_toString (by decide) (by decide)).2 ⟨within, rfl⟩
  rw [readBound, trimmed, read]
  exact if_neg (Int.not_lt.2 nonneg)

/-! ### Forms -/

section

variable {low high : List Char}

/-- A text that starts with a digit is not empty, and is not that of the empty range. -/
theorem ne_of_isDigits (digits : IsDigits low) (rest : List Char) :
    low ++ rest ≠ [] ∧ low ++ rest ≠ "none".toList := by
  obtain ⟨c, cs, rfl⟩ := List.exists_cons_of_ne_nil digits.nonempty
  have first := digits.digit c (List.mem_cons_self ..)
  refine ⟨List.cons_ne_nil _ _, ?_⟩
  intro same
  cases (List.cons.inj same).1
  cases first

theorem readTrimmed_startingAt (digits : IsDigits low) (bound : readBound low = .ok lowest) :
    readTrimmed (low ++ ['+']) = .ok (startingAt lowest) := by
  obtain ⟨nonempty, named⟩ := ne_of_isDigits digits ['+']
  simp only [readTrimmed, if_neg nonempty, if_neg named, Text.dropLast?_concat, bound]
  rfl

theorem readTrimmed_single (digits : IsDigits low) (bound : readBound low = .ok lowest) :
    readTrimmed low = .ok ⟨lowest, lowest⟩ := by
  obtain ⟨nonempty, named⟩ := ne_of_isDigits digits []
  rw [List.append_nil] at nonempty named
  have plus : Text.dropLast? '+' low = Option.none :=
    Text.dropLast?_of_ne (digits.getLast?_append_ne [] (by decide))
  have minus : Text.splitFirst? '-' low = Option.none :=
    Text.splitFirst?_of_not_mem (digits.not_mem (by decide))
  simp only [readTrimmed, if_neg nonempty, if_neg named, plus, minus, bound]
  rfl

theorem readTrimmed_between (digits : IsDigits low) (digits' : IsDigits high)
    (bound : readBound low = .ok lowest) (bound' : readBound high = .ok highest)
    (ordered : lowest ≤ highest) :
    readTrimmed (low ++ '-' :: high) = .ok ⟨lowest, highest⟩ := by
  obtain ⟨nonempty, named⟩ := ne_of_isDigits digits ('-' :: high)
  have plus : Text.dropLast? '+' (low ++ '-' :: high) = Option.none := by
    rw [List.append_cons]
    exact Text.dropLast?_of_ne (digits'.getLast?_append_ne (low ++ ['-']) (by decide))
  have minus : Text.splitFirst? '-' (low ++ '-' :: high) = some (low, high) :=
    Text.splitFirst?_append (digits.not_mem (by decide)) high
  simp only [readTrimmed, if_neg nonempty, if_neg named, plus, minus, bound, bound']
  exact if_neg (Int.not_lt.2 ordered)

end

/-! ### Written ranges -/

theorem toText_of_greatest {r : VersionRange} (ordered : r.lowest ≤ r.highest)
    (top : r.highest = Version.greatest) : r.toText = toString r.lowest ++ "+" := by
  have nonempty : r.isEmpty = false := decide_eq_false (Int.not_lt.2 ordered)
  simp [toText, isOpenEnded, nonempty, top]

theorem toText_of_ne {r : VersionRange} (ordered : r.lowest ≤ r.highest)
    (finite : r.highest ≠ Version.greatest) :
    r.toText = if r.lowest = r.highest then toString r.lowest
      else toString r.lowest ++ "-" ++ toString r.highest := by
  have nonempty : r.isEmpty = false := decide_eq_false (Int.not_lt.2 ordered)
  simp [toText, isOpenEnded, nonempty, finite]

theorem read_of_readTrimmed {text : String} {cs : List Char} {r : VersionRange}
    (chars : text.toList = cs) (free : ∀ c ∈ cs, Text.isBlank c = false)
    (run : readTrimmed cs = .ok r) : read text = .ok r := by
  rw [read, chars, Text.dropBlanks_of_free free, run]

theorem read_toText {r : VersionRange} (nonneg : 0 ≤ r.lowest) (ordered : r.lowest ≤ r.highest)
    (le : r.highest ≤ Version.greatest) : read r.toText = .ok r := by
  obtain ⟨lowest, highest⟩ := r
  have digits := isDigits_toString nonneg
  have digits' := isDigits_toString (Int.le_trans nonneg ordered)
  have bound := readBound_toString nonneg (Int.le_trans ordered le)
  have bound' := readBound_toString (Int.le_trans nonneg ordered) le
  by_cases top : highest = Version.greatest
  · subst top
    rw [toText_of_greatest ordered rfl]
    refine read_of_readTrimmed (String.toList_append ..) ?_ (readTrimmed_startingAt digits bound)
    have plus : Text.isBlank '+' = false := by decide
    exact List.forall_mem_append.2 ⟨digits.isBlank_eq, List.forall_mem_singleton.2 plus⟩
  · rw [toText_of_ne ordered top]
    split
    · rename_i single
      cases single
      exact read_of_readTrimmed rfl digits.isBlank_eq (readTrimmed_single digits bound)
    · refine read_of_readTrimmed ?_ ?_ (readTrimmed_between digits digits' bound bound' ordered)
      · simp
      · have hyphen : Text.isBlank '-' = false := by decide
        exact List.forall_mem_append.2
          ⟨digits.isBlank_eq, List.forall_mem_cons.2 ⟨hyphen, digits'.isBlank_eq⟩⟩

/-- **Ranges are read back.** A range that was read is the canonical empty one, or its bounds are
versions in order; its text is read as the same range. All these ranges are written: the text of
every range between two versions is read as that range, also up to the greatest version, where the
text is the open-ended one. -/
theorem range_texts_round_trip :
    (∀ (text : String) (r : VersionRange), read text = .ok r →
      (r = none ∨ 0 ≤ r.lowest ∧ r.lowest ≤ r.highest ∧ r.highest ≤ 32767) ∧
        read r.toText = .ok r) ∧
    ∀ r : VersionRange, 0 ≤ r.lowest → r.lowest ≤ r.highest → r.highest ≤ 32767 →
      read r.toText = .ok r ∧ (r.highest = 32767 → r.toText = toString r.lowest ++ "+") := by
  constructor
  · intro text r run
    have readable := readable_of_read run
    refine ⟨readable, ?_⟩
    rcases readable with rfl | ⟨nonneg, ordered, le⟩
    · decide
    · exact read_toText nonneg ordered le
  · intro r nonneg ordered le
    exact ⟨read_toText nonneg ordered le, toText_of_greatest ordered⟩

/-- Signs and blanks around the bounds are read away, and the last version on its own is written as
an open-ended range. -/
theorem padded_bounds_read_back :
    read " +3 - +07\t" = .ok ⟨3, 7⟩ ∧ read (toText ⟨3, 7⟩) = .ok ⟨3, 7⟩ ∧
      toText ⟨32767, 32767⟩ = "32767+" ∧ read "32767+" = .ok ⟨32767, 32767⟩ := by
  obtain ⟨back, written⟩ := range_texts_round_trip
  have padded : read " +3 - +07\t" = .ok ⟨3, 7⟩ := by decide
  obtain ⟨last, openEnded⟩ := written ⟨32767, 32767⟩ (by decide) (by decide) (by decide)
  have text : toText ⟨32767, 32767⟩ = "32767+" := openEnded rfl
  rw [text] at last
  exact ⟨padded, (back _ _ padded).2, text, last⟩

end VersionRange

end WireSchema
