import Mathlib.Data.Finset.Sort
import Mathlib.Data.List.Nodup
import Mathlib.Data.Prod.Lex
import Mathlib.Data.String.Basic
import WireSchema.Manifest
import WireSchema.Output
import WireSchema.Proofs.VersionRanges

/-!
# Manifests are canonical

A manifest is made from a list of modules that may be in any order and name a module more than once.
What it lists depends on the set of modules alone: it is the only list that has these members and is
strictly ascending in the order of keys (`eq_arrange_iff`).

Repeated names are dropped only among neighbours. This is enough because the order of keys separates
all names: after sorting, two names of which neither comes before the other are equal, so all
occurrences of a name stand together. Stems and numbers alone would not do, as `v1` and `v01` show.

The modules of versions are sorted by their numbers and not by their texts (`arrange_versions`), as
long as the numbers fit in 64 bits.
-/

namespace WireSchema

namespace Manifest

variable {modules listed : List String}

/-! ### Keys in order -/

/-- What keys are compared by, as one value of a linear order. A missing number comes first. -/
def Key.rank (key : Key) : String ×ₗ ℕ ×ₗ String :=
  toLex (key.stem, toLex (key.number.elim 0 (· + 1), key.name))

theorem numberBefore_iff {m n : Option Nat} :
    numberBefore m n = true ↔ m.elim 0 (· + 1) < n.elim 0 (· + 1) := by
  cases m <;> cases n <;> simp [numberBefore]

theorem number_eq_iff {m n : Option Nat} : m = n ↔ m.elim 0 (· + 1) = n.elim 0 (· + 1) := by
  cases m <;> cases n <;> simp

theorem Key.before_iff {a b : Key} : a.before b = true ↔ a.rank < b.rank := by
  simp only [Key.before, Key.rank, Prod.Lex.toLex_lt_toLex, Bool.or_eq_true, Bool.and_eq_true,
    decide_eq_true_eq, beq_iff_eq, numberBefore_iff, ← number_eq_iff]

theorem inOrder_iff {a b : String} :
    inOrder a b = true ↔ (Key.ofName a).rank ≤ (Key.ofName b).rank := by
  rw [inOrder, Bool.not_eq_true', Bool.eq_false_iff, ne_eq, Key.before_iff, not_lt]

theorem pairwise_mergeSort (modules : List String) :
    (modules.mergeSort inOrder).Pairwise (inOrder · · = true) := by
  refine List.pairwise_mergeSort ?_ ?_ modules
  · intro a b c first second
    rw [inOrder_iff] at first second ⊢
    exact le_trans first second
  · intro a b
    rw [Bool.or_eq_true, inOrder_iff, inOrder_iff]
    exact le_total _ _

theorem eq_of_inOrder {a b : String} (first : inOrder a b = true) (second : inOrder b a = true) :
    a = b := by
  rw [inOrder_iff] at first second
  have same := congrArg (fun rank => (ofLex (ofLex rank).2).2) (le_antisymm first second)
  exact same

/-- Whether the key of a module comes before that of another one. -/
def Precedes (a b : String) : Prop :=
  (Key.ofName a).before (Key.ofName b) = true

instance (a b : String) : Decidable (Precedes a b) :=
  inferInstanceAs (Decidable (_ = true))

theorem precedes_iff {a b : String} :
    Precedes a b ↔ (Key.ofName a).rank < (Key.ofName b).rank :=
  Key.before_iff

theorem Precedes.ne {a b : String} (first : Precedes a b) : a ≠ b := by
  intro same
  subst same
  exact lt_irrefl _ (precedes_iff.1 first)

theorem Precedes.not_precedes {a b : String} (first : Precedes a b) : ¬ Precedes b a := by
  rw [precedes_iff] at first ⊢
  exact lt_asymm first

/-- Different names have different keys, so one of the keys comes first. -/
theorem precedes_of_inOrder {a b : String} (first : inOrder a b = true) (differ : a ≠ b) :
    Precedes a b := by
  by_contra no
  have second : inOrder b a = true := by
    rw [inOrder, Bool.not_eq_true', Bool.eq_false_iff]
    exact no
  exact differ (eq_of_inOrder first second)

/-! ### Repeated names -/

theorem mem_dropRepeats {name : String} : name ∈ dropRepeats modules ↔ name ∈ modules := by
  fun_induction dropRepeats modules with
  | case1 => rfl
  | case2 only => rfl
  | case3 second rest ih => simp [ih]
  | case4 first second rest differ ih => rw [List.mem_cons, List.mem_cons, ih]

/-- What is left of sorted names is strictly ascending. -/
theorem pairwise_dropRepeats (sorted : modules.Pairwise (inOrder · · = true)) :
    (dropRepeats modules).Pairwise Precedes := by
  fun_induction dropRepeats modules with
  | case1 => exact .nil
  | case2 only => exact List.pairwise_singleton _ _
  | case3 second rest ih => exact ih (List.pairwise_cons.1 sorted).2
  | case4 first second rest differ ih =>
      obtain ⟨before, others⟩ := List.pairwise_cons.1 sorted
      have next : Precedes first second :=
        precedes_of_inOrder (before second (List.mem_cons_self ..)) differ
      refine List.pairwise_cons.2 ⟨?_, ih others⟩
      intro name mem
      rcases List.mem_cons.1 (mem_dropRepeats.1 mem) with rfl | later
      · exact next
      · have after := inOrder_iff.1 ((List.pairwise_cons.1 others).1 name later)
        exact precedes_iff.2 (lt_of_lt_of_le (precedes_iff.1 next) after)

/-! ### What is listed -/

theorem mem_arrange {name : String} : name ∈ arrange modules ↔ name ∈ modules := by
  rw [arrange, mem_dropRepeats, List.mem_mergeSort]

theorem pairwise_precedes_arrange (modules : List String) :
    (arrange modules).Pairwise Precedes :=
  pairwise_dropRepeats (pairwise_mergeSort modules)

theorem nodup_of_pairwise (ascending : listed.Pairwise Precedes) : listed.Nodup :=
  ascending.imp Precedes.ne

theorem eq_of_perm (perm : listed.Perm modules) (ascending : listed.Pairwise Precedes)
    (ascending' : modules.Pairwise Precedes) : listed = modules := by
  refine perm.eq_of_pairwise ?_ ascending ascending'
  intro a b _ _ first second
  exact absurd second first.not_precedes

/-- What is listed are the modules in strictly ascending order, and there is one such list. -/
theorem eq_arrange_iff :
    listed = arrange modules ↔
      listed.Pairwise Precedes ∧ ∀ name, name ∈ listed ↔ name ∈ modules := by
  constructor
  · intro same
    rw [same]
    exact ⟨pairwise_precedes_arrange modules, fun name => mem_arrange⟩
  · intro both
    obtain ⟨ascending, members⟩ := both
    have ascending' := pairwise_precedes_arrange modules
    have perm : listed.Perm (arrange modules) := by
      rw [List.perm_ext_iff_of_nodup (nodup_of_pairwise ascending) (nodup_of_pairwise ascending')]
      intro name
      rw [members, mem_arrange]
    exact eq_of_perm perm ascending ascending'

theorem arrange_congr {others : List String} (same : ∀ name, name ∈ others ↔ name ∈ modules) :
    arrange others = arrange modules :=
  eq_arrange_iff.2 ⟨pairwise_precedes_arrange others, fun name => mem_arrange.trans (same name)⟩

/-! ### Different names -/

theorem dropRepeats_of_nodup {modules : List String} (distinct : modules.Nodup) :
    dropRepeats modules = modules := by
  fun_induction dropRepeats modules with
  | case1 => rfl
  | case2 name => rfl
  | case3 second rest ih => simp at distinct
  | case4 first second rest differ ih => rw [ih (List.nodup_cons.1 distinct).2]

theorem arrange_of_nodup {modules : List String} (distinct : modules.Nodup) :
    arrange modules = modules.mergeSort inOrder :=
  dropRepeats_of_nodup ((List.mergeSort_perm modules inOrder).nodup_iff.2 distinct)

theorem arrange_perm {modules : List String} (distinct : modules.Nodup) :
    (arrange modules).Perm modules := by
  rw [arrange_of_nodup distinct]
  exact List.mergeSort_perm modules inOrder

/-! ### Versions -/

theorem numberOf?_toDigits {n : Nat} (fits : (Bounds.unsigned 64).contains n = true) :
    numberOf? (Nat.toDigits 10 n) = some n := by
  have value : (Nat.toDigits 10 n).foldl (fun value c => value * 10 + (c.toNat - '0'.toNat)) 0 =
      n := by
    calc _ = Nat.ofDigitChars 10 (Nat.toDigits 10 n) 0 := by
          simp only [Nat.ofDigitChars, Nat.mul_comm]
      _ = n := Nat.ofDigitChars_ten_toDigits
  have digits : (Nat.toDigits 10 n).isEmpty = false := by
    simp [List.isEmpty_eq_false_iff, Nat.toDigits_ne_nil]
  rw [numberOf?, digits]
  simp only [value, fits, Bool.false_eq_true, if_false, if_true]

theorem toList_versionModule (n : Nat) :
    (versionModule n).toList = 'v' :: Nat.toDigits 10 n := by
  have text : toString (n : Int) = n.repr := rfl
  simp [versionModule, text, Nat.toList_repr]

/-- The module of a version is sorted by its number. -/
theorem ofName_versionModule {n : Nat} (fits : (Bounds.unsigned 64).contains n = true) :
    Key.ofName (versionModule n) = ⟨"v", some n, versionModule n⟩ := by
  have digits : ∀ c ∈ (Nat.toDigits 10 n).reverse, c.isDigit = true := by
    intro c mem
    exact Nat.isDigit_of_mem_toDigits (by decide) (by decide) (List.mem_reverse.1 mem)
  have reversed : (versionModule n).toList.reverse = (Nat.toDigits 10 n).reverse ++ ['v'] := by
    rw [toList_versionModule, List.reverse_cons]
  have stop : Char.isDigit 'v' = false := by decide
  simp [Key.ofName, reversed, List.takeWhile_append_of_pos digits,
    List.dropWhile_append_of_pos digits, stop, numberOf?_toDigits fits]

/-- Versions are told by their numbers, if these fit in 64 bits. -/
theorem exists_nat {v : Version} (low : 0 ≤ v) (high : v ≤ 18446744073709551615) :
    ∃ n : Nat, v = n ∧ (Bounds.unsigned 64).contains n = true := by
  have bounds : Bounds.unsigned 64 = ⟨0, 18446744073709551615⟩ := by decide
  refine ⟨v.toNat, (Int.toNat_of_nonneg low).symm, ?_⟩
  simp [Bounds.contains, bounds, Int.toNat_of_nonneg low, low, high]

theorem precedes_versionModule {v w : Version} (low : 0 ≤ v) (less : v < w)
    (high : w ≤ 18446744073709551615) : Precedes (versionModule v) (versionModule w) := by
  obtain ⟨m, rfl, fitsM⟩ := exists_nat low (Int.le_trans (Int.le_of_lt less) high)
  obtain ⟨n, rfl, fitsN⟩ := exists_nat (Int.le_of_lt (Int.lt_of_le_of_lt low less)) high
  have before : numberBefore (some m) (some n) = true := decide_eq_true (Int.ofNat_lt.1 less)
  rw [Precedes, ofName_versionModule fitsM, ofName_versionModule fitsN]
  simp [Key.before, before]

section

variable {versions ascending : List Version}
  (fits : ∀ v ∈ versions, 0 ≤ v ∧ v ≤ 18446744073709551615)

include fits

theorem pairwise_versionModules (sorted : versions.Pairwise (· < ·)) :
    (versions.map versionModule).Pairwise Precedes := by
  refine List.pairwise_map.2 (sorted.imp_of_mem ?_)
  intro v w memV memW less
  exact precedes_versionModule (fits v memV).1 less (fits w memW).2

/-- Versions are listed by their numbers, in whatever order they are given. -/
theorem arrange_versions (sorted : ascending.Pairwise (· < ·))
    (same : ∀ v, v ∈ ascending ↔ v ∈ versions) :
    arrange (versions.map versionModule) = ascending.map versionModule := by
  have fits' : ∀ v ∈ ascending, 0 ≤ v ∧ v ≤ 18446744073709551615 :=
    fun v mem => fits v ((same v).1 mem)
  refine (eq_arrange_iff.2 ⟨pairwise_versionModules fits' sorted, ?_⟩).symm
  intro name
  simp only [List.mem_map, same]

end

section

variable {range : VersionRange} (low : 0 ≤ range.lowest)
  (high : range.highest ≤ Version.greatest)

include low high

theorem bounds_of_mem : ∀ v ∈ range.toList, 0 ≤ v ∧ v ≤ 18446744073709551615 := by
  intro v listed
  obtain ⟨above, below⟩ := VersionRange.mem_toList.1 listed
  have top : Version.greatest ≤ 18446744073709551615 := by decide
  exact ⟨Int.le_trans low above, Int.le_trans (Int.le_trans below high) top⟩

theorem nodup_versionModules : (range.toList.map versionModule).Nodup :=
  nodup_of_pairwise (pairwise_versionModules (bounds_of_mem low high) range.pairwise_toList)

/-- The manifest of a range of versions lists them from the lowest to the highest. -/
theorem arrange_versionModules :
    arrange (range.toList.map versionModule) = range.toList.map versionModule :=
  arrange_versions (bounds_of_mem low high) range.pairwise_toList fun _ => Iff.rfl

end

/-- **Manifests are canonical.** Every backend is handed the modules in strictly ascending order of
their keys, and these are exactly the given modules. The list is the same for all lists with the
same modules, in whatever order and however often they are given. The modules of versions come in
ascending order of their numbers, if these fit in 64 bits, as all up to `Version.greatest` do. -/
theorem manifest_is_canonical :
    (∀ (b : Backend) (modules : List String), text b modules = b.manifest (arrange modules)) ∧
    (∀ modules : List String,
      (arrange modules).Pairwise
        (fun first second => (Key.ofName first).before (Key.ofName second) = true) ∧
      (∀ name, name ∈ arrange modules ↔ name ∈ modules) ∧
      ∀ others : List String, (∀ name, name ∈ others ↔ name ∈ modules) →
        arrange others = arrange modules) ∧
    ∀ versions : List Version, (∀ v ∈ versions, 0 ≤ v ∧ v ≤ 18446744073709551615) →
      ∃ ascending : List Version, ascending.Pairwise (· < ·) ∧
        (∀ v, v ∈ ascending ↔ v ∈ versions) ∧
        arrange (versions.map versionModule) = ascending.map versionModule := by
  refine ⟨fun _ _ => rfl, ?_, ?_⟩
  · intro modules
    exact ⟨pairwise_precedes_arrange modules, fun name => mem_arrange, fun _ => arrange_congr⟩
  · intro versions fits
    have sorted := (Finset.sortedLT_sort versions.toFinset).pairwise
    have same : ∀ v, v ∈ versions.toFinset.sort (· ≤ ·) ↔ v ∈ versions := by simp
    exact ⟨_, sorted, same, arrange_versions fits sorted same⟩

/-- Names with leading zeros, a name of digits only and a number of more than 64 bits. -/
theorem mixed_names_listed :
    arrange ["v10", "v01", "v2", "7", "v1", "v2", "v18446744073709551616"] =
        ["7", "v18446744073709551616", "v01", "v1", "v2", "v10"] ∧
      arrange ["v10", "v2", "v0", "v2"] = ["v0", "v2", "v10"] := by
  obtain ⟨-, canonical, numeric⟩ := manifest_is_canonical
  have listed : arrange ["7", "v18446744073709551616", "v01", "v1", "v2", "v10"] =
      ["7", "v18446744073709551616", "v01", "v1", "v2", "v10"] :=
    (eq_arrange_iff.2 ⟨by decide, fun _ => Iff.rfl⟩).symm
  obtain ⟨-, -, same⟩ := canonical ["7", "v18446744073709551616", "v01", "v1", "v2", "v10"]
  obtain ⟨ascending, sorted, members, versions⟩ := numeric [10, 2, 0, 2] (by decide)
  have order : ascending = [0, 2, 10] := by
    have perm : ascending.Perm [0, 2, 10] := by
      rw [List.perm_ext_iff_of_nodup (sorted.imp ne_of_lt) (by decide)]
      intro v
      rw [members]
      simp only [List.mem_cons, List.not_mem_nil, or_false]
      tauto
    refine perm.eq_of_pairwise ?_ sorted (by decide)
    intro v w _ _ less greater
    exact absurd greater (lt_asymm less)
  refine ⟨(same _ ?_).trans listed, ?_⟩
  · intro name
    simp only [List.mem_cons, List.not_mem_nil, or_false]
    tauto
  · rw [order] at versions
    exact versions

end Manifest

end WireSchema
