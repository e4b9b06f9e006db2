import WireSchema.Proofs.Outcome
import WireSchema.VersionRange

/-!
# Version ranges as sets of versions

The checks of a document are tests on bounds. What they mean is said about the versions that a range
contains: a range is empty if it contains none, one is a subset of another if its versions are
versions of the other, and an intersection contains what both contain. All of it holds for every
pair of bounds, including empty ranges other than `none`. An intersection is moreover *canonical*,
and a canonical range is determined by its versions (`Canonical.ext`), so the laws of intersection
follow from those of sets.

A range that was *read* has more to it: it is `none`, or its bounds are versions in order. Reading
an integer never leaves the bounds that it is given.
-/

namespace WireSchema

/-! ### Numerals -/

namespace Numeral

variable {radix : Nat} {value : Nat} {cs : List Char} {n : Int}

theorem readUp_within {high : Int} (start : (value : Int) ≤ high)
    (run : readUp radix high value cs = .ok n) : 0 ≤ n ∧ n ≤ high := by
  induction cs generalizing value with
  | nil =>
      cases run
      exact ⟨Int.natCast_nonneg value, start⟩
  | cons c cs ih =>
      unfold readUp at run
      split at run
      · cases run
      · split at run
        · cases run
        · rename_i small
          exact ih (Int.not_lt.1 small) run

theorem readDown_within {low : Int} (start : low ≤ -(value : Int))
    (run : readDown radix low value cs = .ok n) : low ≤ n ∧ n ≤ 0 := by
  induction cs generalizing value with
  | nil =>
      cases run
      exact ⟨start, by omega⟩
  | cons c cs ih =>
      unfold readDown at run
      split at run
      · cases run
      · split at run
        · cases run
        · rename_i large
          exact ih (Int.not_lt.1 large) run

/-- An integer that was read lies within the bounds, if zero does. -/
theorem read_within {bounds : Bounds} (zero : bounds.low ≤ 0 ∧ 0 ≤ bounds.high)
    (run : read radix bounds cs = .ok n) : bounds.low ≤ n ∧ n ≤ bounds.high := by
  have up : ∀ digits, readUp radix bounds.high 0 digits = .ok n →
      bounds.low ≤ n ∧ n ≤ bounds.high := by
    intro digits run
    obtain ⟨nonneg, le⟩ := readUp_within zero.2 run
    exact ⟨Int.le_trans zero.1 nonneg, le⟩
  unfold read at run
  split at run
  · cases run
  · cases run
  · cases run
  · exact up _ run
  · obtain ⟨ge, nonpos⟩ := readDown_within (by simpa using zero.1) run
    exact ⟨ge, Int.le_trans nonpos zero.2⟩
  · exact up _ run

end Numeral

namespace VersionRange

/-! ### Operations on sets -/

theorem contains_iff {r : VersionRange} {v : Version} :
    r.contains v = true ↔ r.lowest ≤ v ∧ v ≤ r.highest := by
  simp only [contains, isEmpty, Bool.and_eq_true, Bool.not_eq_true', decide_eq_false_iff_not,
    decide_eq_true_eq, and_assoc]
  exact ⟨fun h => h.2, fun h => ⟨Int.not_lt.2 (Int.le_trans h.1 h.2), h⟩⟩

theorem isEmpty_iff {r : VersionRange} : r.isEmpty = true ↔ r.highest < r.lowest :=
  decide_eq_true_iff

theorem isEmpty_eq_false_iff {r : VersionRange} :
    r.isEmpty = false ↔ ∃ v, r.contains v = true := by
  simp only [Bool.eq_false_iff, ne_eq, isEmpty_iff, contains_iff]
  constructor
  · intro nonempty
    exact ⟨r.lowest, Int.le_refl _, Int.not_lt.1 nonempty⟩
  · rintro ⟨v, low, high⟩
    exact Int.not_lt.2 (Int.le_trans low high)

theorem contains_intersect (r s : VersionRange) (v : Version) :
    (r.intersect s).contains v = (r.contains v && s.contains v) := by
  have none_contains : VersionRange.none.contains v = false := rfl
  rw [Bool.eq_iff_iff, Bool.and_eq_true, contains_iff (r := r), contains_iff (r := s)]
  unfold intersect
  -- The canonical empty range has no version, and the bounds of an empty meeting leave none.
  split
  · rename_i empty
    rw [Bool.or_eq_true, isEmpty_iff, isEmpty_iff] at empty
    grind
  · dsimp only
    split
    · rename_i empty
      rw [isEmpty_iff] at empty
      grind
    · rw [contains_iff]
      grind

/-- The two bounds of a range with versions are among them, and so among those of a larger one. -/
theorem bounds_of_subset {r s : VersionRange} (ordered : r.lowest ≤ r.highest)
    (subset : ∀ v, r.contains v = true → s.contains v = true) :
    s.lowest ≤ r.lowest ∧ r.highest ≤ s.highest := by
  have low := contains_iff.1 (subset r.lowest (contains_iff.2 ⟨Int.le_refl _, ordered⟩))
  have high := contains_iff.1 (subset r.highest (contains_iff.2 ⟨ordered, Int.le_refl _⟩))
  exact ⟨low.1, high.2⟩

theorem isSubsetOf_iff {r s : VersionRange} :
    r.isSubsetOf s = true ↔ ∀ v, r.contains v = true → s.contains v = true := by
  by_cases empty : r.isEmpty = true
  · have nothing : ∀ v, r.contains v = false := by simp [contains, empty]
    simp [isSubsetOf, empty, nothing]
  · rw [isEmpty_iff, Int.not_lt] at empty
    simp only [isSubsetOf, Bool.or_eq_true, Bool.and_eq_true, Bool.not_eq_true', isEmpty_iff,
      decide_eq_true_eq]
    constructor
    · rintro (none | ⟨⟨-, low⟩, high⟩) v mem
      · exact absurd empty (Int.not_le.2 none)
      · obtain ⟨here, there⟩ := contains_iff.1 mem
        exact contains_iff.2 ⟨Int.le_trans low here, Int.le_trans there high⟩
    · intro subset
      obtain ⟨low, high⟩ := bounds_of_subset empty subset
      refine .inr ⟨⟨?_, low⟩, high⟩
      exact decide_eq_false (Int.not_lt.2 (Int.le_trans low (Int.le_trans empty high)))

/-! ### Versions one by one -/

theorem mem_toList {r : VersionRange} {v : Version} :
    v ∈ r.toList ↔ r.lowest ≤ v ∧ v ≤ r.highest := by
  unfold toList
  rw [List.mem_map]
  constructor
  · intro h
    obtain ⟨i, listed, sum⟩ := h
    rw [List.mem_range] at listed
    grind
  · intro h
    obtain ⟨low, high⟩ := h
    have offset : 0 ≤ v - r.lowest := Int.sub_nonneg_of_le low
    refine ⟨(v - r.lowest).toNat, ?_, ?_⟩
    · rw [List.mem_range]
      grind
    · rw [Int.toNat_of_nonneg offset]
      grind

theorem pairwise_toList (r : VersionRange) : r.toList.Pairwise (· < ·) := by
  unfold toList
  rw [List.pairwise_map]
  refine List.pairwise_lt_range.imp fun ordered => ?_
  exact Int.add_lt_add_left (Int.ofNat_lt.2 ordered) r.lowest

/-! ### Canonical ranges -/

/-- One range for each set of versions that is a range: `none`, and the ranges with their bounds in
order. -/
def Canonical (r : VersionRange) : Prop :=
  r = none ∨ r.lowest ≤ r.highest

theorem canonical_intersect (r s : VersionRange) : (r.intersect s).Canonical := by
  unfold intersect
  split
  · exact .inl rfl
  · dsimp only
    split
    · exact .inl rfl
    · rename_i nonempty
      rw [isEmpty_iff] at nonempty
      exact .inr (Int.not_lt.1 nonempty)

theorem Canonical.eq_none {r : VersionRange} (canonical : r.Canonical)
    (empty : ∀ v, r.contains v = false) : r = none := by
  rcases canonical with rfl | ordered
  · rfl
  · have lowest : r.contains r.lowest = true := contains_iff.2 ⟨Int.le_refl _, ordered⟩
    rw [empty] at lowest
    cases lowest

/-- A canonical range is determined by its versions. -/
theorem Canonical.ext {r s : VersionRange} (canonical : r.Canonical) (canonical' : s.Canonical)
    (same : ∀ v, r.contains v = s.contains v) : r = s := by
  rcases canonical with rfl | ordered
  · exact (canonical'.eq_none fun v => (same v).symm).symm
  · rcases canonical' with rfl | ordered'
    · exact Canonical.eq_none (.inr ordered) same
    · obtain ⟨low, high⟩ := bounds_of_subset ordered fun v mem => (same v).symm.trans mem
      obtain ⟨low', high'⟩ := bounds_of_subset ordered' fun v mem => (same v).trans mem
      obtain ⟨lowest, highest⟩ := r
      obtain ⟨lowest', highest'⟩ := s
      rw [mk.injEq]
      exact ⟨Int.le_antisymm low' low, Int.le_antisymm high high'⟩

theorem intersect_comm (r s : VersionRange) : r.intersect s = s.intersect r := by
  refine (canonical_intersect r s).ext (canonical_intersect s r) ?_
  intro v
  rw [contains_intersect, contains_intersect, Bool.and_comm]

theorem intersect_assoc (r s t : VersionRange) :
    (r.intersect s).intersect t = r.intersect (s.intersect t) := by
  refine (canonical_intersect _ t).ext (canonical_intersect r _) ?_
  intro v
  simp only [contains_intersect, Bool.and_assoc]

/-- Ranges without a common version meet in the canonical empty range. -/
theorem intersect_eq_none_iff {r s : VersionRange} :
    r.intersect s = none ↔ ∀ v, ¬ (r.contains v = true ∧ s.contains v = true) := by
  simp only [← Bool.and_eq_true, ← contains_intersect, Bool.not_eq_true]
  constructor
  · intro same v
    rw [same]
    rfl
  · exact (canonical_intersect r s).eq_none

/-- **Ranges are sets of versions.** Whatever the bounds are, the versions of an intersection are
the common ones, inclusion of ranges is inclusion of their versions, and the versions of a range are
enumerated in strictly ascending order. Intersection is commutative and associative, as an equality
of bounds: ranges without a common version always meet in `none`. -/
theorem operations_are_those_of_sets (a b c : VersionRange) :
    (∀ v, (a.intersect b).contains v = true ↔ a.contains v = true ∧ b.contains v = true) ∧
    (a.isSubsetOf b = true ↔ ∀ v, a.contains v = true → b.contains v = true) ∧
    (∀ v, v ∈ a.toList ↔ a.contains v = true) ∧ a.toList.Pairwise (· < ·) ∧
    a.intersect b = b.intersect a ∧
    (a.intersect b).intersect c = a.intersect (b.intersect c) ∧
    ((a.intersect b).isEmpty = true ↔ a.intersect b = none) ∧
    (a.intersect b = none ↔ ∀ v, ¬ (a.contains v = true ∧ b.contains v = true)) := by
  refine ⟨?_, isSubsetOf_iff, ?_, pairwise_toList a, intersect_comm a b, intersect_assoc a b c, ?_,
    intersect_eq_none_iff⟩
  · intro v
    rw [contains_intersect, Bool.and_eq_true]
  · intro v
    rw [mem_toList, contains_iff]
  · constructor
    · intro empty
      refine (canonical_intersect a b).eq_none ?_
      intro v
      simp [contains, empty]
    · intro same
      rw [same]
      rfl

/-! ### Ranges that were read -/

theorem readBound_within {cs : List Char} {v : Version} (run : readBound cs = .ok v) :
    0 ≤ v ∧ v ≤ Version.greatest := by
  unfold readBound at run
  split at run
  · cases run
  · rename_i n read
    split at run
    · cases run
    · rename_i nonneg
      have within : Version.bounds.low ≤ n ∧ n ≤ Version.bounds.high :=
        Numeral.read_within (by decide) read
      cases run
      exact ⟨Int.not_lt.1 nonneg, within.2⟩

/-- The ranges that have a text: the canonical empty one, and those between two versions. -/
def Readable (r : VersionRange) : Prop :=
  r = none ∨ 0 ≤ r.lowest ∧ r.lowest ≤ r.highest ∧ r.highest ≤ Version.greatest

theorem readable_of_readTrimmed {cs : List Char} {r : VersionRange}
    (run : readTrimmed cs = .ok r) : r.Readable := by
  unfold readTrimmed at run
  split at run
  · cases run
  · split at run
    · cases run
      exact .inl rfl
    · split at run
      · obtain ⟨lowest, low, same⟩ := Outcome.bind_eq_ok.1 run
        cases same
        obtain ⟨nonneg, le⟩ := readBound_within low
        exact .inr ⟨nonneg, le, Int.le_refl _⟩
      · split at run
        · obtain ⟨lowest, low, run⟩ := Outcome.bind_eq_ok.1 run
          obtain ⟨highest, high, run⟩ := Outcome.bind_eq_ok.1 run
          split at run
          · cases run
          · rename_i ordered
            cases run
            exact .inr ⟨(readBound_within low).1, Int.not_lt.1 ordered, (readBound_within high).2⟩
        · obtain ⟨single, bound, same⟩ := Outcome.bind_eq_ok.1 run
          cases same
          obtain ⟨nonneg, le⟩ := readBound_within bound
          exact .inr ⟨nonneg, Int.le_refl _, le⟩

theorem readable_of_read {text : String} {r : VersionRange} (run : read text = .ok r) :
    r.Readable := by
  unfold read at run
  split at run
  · rename_i trimmed
    cases run
    exact readable_of_readTrimmed trimmed
  · cases run

end VersionRange

end WireSchema
