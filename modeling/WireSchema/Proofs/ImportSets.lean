import Mathlib.Data.List.Sort
import Mathlib.Data.String.Basic
import WireSchema.Imports
import WireSchema.Proofs.Texts

/-!
# Imports as sets

Imports are collected one by one, in the order in which the declarations ask for them, and the same
symbol may be asked for many times. Only the **set** of what was added counts: modules and symbols
are strictly ascending, and a set has one such arrangement (`Imports.eq_of_mem_paths_iff`), so the
text of the imports is a function of the set.
-/

namespace WireSchema

/-! ### Groups -/

namespace ImportGroup

/-- The paths that a group stands for. -/
def paths (group : ImportGroup) : List ImportPath :=
  group.symbols.map (⟨group.module, ·⟩)

theorem mem_paths {group : ImportGroup} {path : ImportPath} :
    path ∈ group.paths ↔ path.module = group.module ∧ path.symbol ∈ group.symbols := by
  obtain ⟨module, symbol⟩ := path
  simp [paths, and_comm, eq_comm]

theorem mem_paths_single {path other : ImportPath} :
    other ∈ (single path).paths ↔ other = path :=
  List.mem_singleton

theorem mem_paths_insert {group : ImportGroup} {path other : ImportPath}
    (same : path.module = group.module) :
    other ∈ (group.insert path.symbol).paths ↔ other = path ∨ other ∈ group.paths := by
  obtain ⟨module, symbol⟩ := path
  obtain ⟨otherModule, otherSymbol⟩ := other
  cases same
  simp [mem_paths, insert, mem_insertText, and_or_left]

end ImportGroup

theorem mem_paths_insertPath {path other : ImportPath} {groups : List ImportGroup} :
    other ∈ (insertPath path groups).flatMap ImportGroup.paths ↔
      other = path ∨ other ∈ groups.flatMap ImportGroup.paths := by
  induction groups with
  | nil => simp [insertPath, ImportGroup.mem_paths_single]
  | cons group groups ih =>
      rw [insertPath]
      split
      · rw [List.flatMap_cons, List.mem_append, ImportGroup.mem_paths_single]
      · split
        · next same =>
            rw [List.flatMap_cons, List.flatMap_cons, List.mem_append, List.mem_append,
              ImportGroup.mem_paths_insert same]
            exact or_assoc
        · rw [List.flatMap_cons, List.flatMap_cons, List.mem_append, List.mem_append]
          exact (or_congr_right ih).trans or_left_comm

namespace Imports

/-! ### The set of imports -/

/-- The paths that are imported. -/
def paths (i : Imports) : List ImportPath :=
  i.groups.flatMap ImportGroup.paths

theorem mem_paths_insertAll {i : Imports} {added : List ImportPath} {path : ImportPath} :
    path ∈ (i.insertAll added).paths ↔ path ∈ added ∨ path ∈ i.paths := by
  induction added generalizing i with
  | nil => simp [insertAll]
  | cons first added ih =>
      have step : path ∈ ((i.insert first).insertAll added).paths ↔
          path ∈ added ∨ path = first ∨ path ∈ i.paths :=
        ih.trans (or_congr_right mem_paths_insertPath)
      rw [List.mem_cons, or_assoc]
      exact step.trans or_left_comm

/-- There is one group for a module. -/
theorem group_unique {i : Imports} {a b : ImportGroup} (memA : a ∈ i.groups) (memB : b ∈ i.groups)
    (same : a.module = b.module) : a = b :=
  List.inj_on_of_nodup_map (i.ascending.imp ne_of_lt) memA memB same

theorem mem_symbols_iff {i : Imports} {group : ImportGroup} (mem : group ∈ i.groups)
    (symbol : String) : symbol ∈ group.symbols ↔ ⟨group.module, symbol⟩ ∈ i.paths := by
  constructor
  · intro there
    exact List.mem_flatMap.2 ⟨group, mem, ImportGroup.mem_paths.2 ⟨rfl, there⟩⟩
  · intro there
    obtain ⟨other, mem', listed⟩ := List.mem_flatMap.1 there
    obtain ⟨same, there⟩ := ImportGroup.mem_paths.1 listed
    rwa [group_unique mem mem' same]

/-- A group of one arrangement is a group of another one with the same paths. -/
theorem mem_groups_of_mem_paths_iff {i j : Imports}
    (same : ∀ path, path ∈ i.paths ↔ path ∈ j.paths) {group : ImportGroup}
    (mem : group ∈ i.groups) : group ∈ j.groups := by
  obtain ⟨symbol, there⟩ := List.exists_mem_of_ne_nil _ group.nonempty
  -- A symbol of the group is imported on the other side too, by a group for the same module.
  have imported := (same _).1 ((mem_symbols_iff mem symbol).1 there)
  obtain ⟨other, mem', listed⟩ := List.mem_flatMap.1 imported
  have module : group.module = other.module := (ImportGroup.mem_paths.1 listed).1
  have members : ∀ symbol, symbol ∈ group.symbols ↔ symbol ∈ other.symbols := by
    intro symbol
    rw [mem_symbols_iff mem, same, module, mem_symbols_iff mem']
  have symbols : group.symbols = other.symbols :=
    group.ascending.eq_of_mem_iff other.ascending members
  have equal : group = other := by
    rw [ImportGroup.mk.injEq]
    exact ⟨module, symbols⟩
  rwa [equal]

/-- A set of paths has one arrangement. -/
theorem eq_of_mem_paths_iff {i j : Imports} (same : ∀ path, path ∈ i.paths ↔ path ∈ j.paths) :
    i = j := by
  have groups : ∀ group, group ∈ i.groups ↔ group ∈ j.groups := by
    intro group
    exact ⟨mem_groups_of_mem_paths_iff same,
      mem_groups_of_mem_paths_iff fun path => (same path).symm⟩
  have irrefl : Std.Irrefl fun a b : ImportGroup => a.module < b.module :=
    ⟨fun a => lt_irrefl a.module⟩
  have antisymm : Std.Antisymm fun a b : ImportGroup => a.module < b.module :=
    ⟨fun a b less greater => absurd less (lt_asymm greater)⟩
  have equal : i.groups = j.groups :=
    (List.pairwise_map.1 i.ascending).eq_of_mem_iff (List.pairwise_map.1 j.ascending) groups
  rw [Imports.mk.injEq]
  exact equal

/-- What is collected from nothing depends only on the set of what is added. -/
theorem insertAll_congr {a b : List ImportPath} (same : ∀ path, path ∈ a ↔ path ∈ b) :
    empty.insertAll a = empty.insertAll b := by
  refine eq_of_mem_paths_iff ?_
  intro path
  rw [mem_paths_insertAll, mem_paths_insertAll, same]

/-! ### Text -/

theorem statement_ne_empty (group : ImportGroup) : statement group ≠ "" := by
  unfold statement
  split <;> simp

/-- Imports leave a text unless there are none. -/
theorem toText_ne_empty {i : Imports} {path : ImportPath} (mem : path ∈ i.paths) :
    i.toText ≠ "" := by
  obtain ⟨group, listed, -⟩ := List.mem_flatMap.1 mem
  have stated : statement group ∈ i.block (Origin.ofModule group.module) :=
    List.mem_map_of_mem (List.mem_filter.2 ⟨listed, decide_eq_true rfl⟩)
  have all : Origin.ofModule group.module ∈ Origin.all := by
    cases Origin.ofModule group.module <;> decide
  have kept : i.block (Origin.ofModule group.module) ∈
      (Origin.all.map i.block).filter (!·.isEmpty) := by
    refine List.mem_filter.2 ⟨List.mem_map_of_mem all, ?_⟩
    simpa using List.ne_nil_of_mem stated
  exact Text.intercalate_ne_empty (List.mem_map_of_mem kept)
    (Text.join_ne_empty stated (statement_ne_empty group))

end Imports

end WireSchema
