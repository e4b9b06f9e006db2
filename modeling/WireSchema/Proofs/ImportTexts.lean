import WireSchema.Backend.Basic
import WireSchema.Proofs.ImportSets

/-!
# Imports given as texts

An import is asked for by a text such as `crate::markers::Request`. The text is cut at its **last**
`::` once the blanks around it are gone, and refused if it cannot be cut or if one of the two parts
is empty (`ImportPath.read?_eq_some_iff`, `ImportPath.read?_eq_none_iff`). Colons may come in runs,
so "last" is said by position: no other cut leaves more before it (`LastCut`).

A refused text leaves the imports as they were. What is collected from any sequence of texts is the
set of the paths that were accepted, and the text of the imports is a function of that set
(`Imports.giveAll_eq` and `Imports.insertAll_congr`).
-/

namespace WireSchema

/-! ### The first and the last cut -/

/-- A text that does not start with `::` is cut where the rest of it is. -/
theorem cons_eq_cut_iff {c : Char} {cs before after : List Char}
    (other : ∀ rest, c = ':' → cs ≠ ':' :: rest) :
    c :: cs = before ++ ':' :: ':' :: after ↔
      ∃ inner, before = c :: inner ∧ cs = inner ++ ':' :: ':' :: after := by
  cases before with
  | nil =>
      simp only [List.nil_append, List.cons.injEq, reduceCtorEq, false_and, exists_false, iff_false]
      intro both
      exact other after both.1 both.2
  | cons first inner =>
      simp only [List.cons_append, List.cons.injEq]
      constructor
      · intro both
        exact ⟨inner, ⟨both.1.symm, rfl⟩, both.2⟩
      · intro both
        obtain ⟨inner', ⟨rfl, rfl⟩, here⟩ := both
        exact ⟨rfl, here⟩

theorem splitFirstPath?_eq_none_iff {cs : List Char} :
    splitFirstPath? cs = none ↔ ∀ before after, cs ≠ before ++ ':' :: ':' :: after := by
  fun_induction splitFirstPath? cs with
  | case1 => simp
  | case2 cs =>
      simp only [reduceCtorEq, false_iff, not_forall, not_not]
      exact ⟨[], cs, rfl⟩
  | case3 c cs other ih =>
      rw [Option.map_eq_none_iff, ih]
      constructor
      · intro uncut before after here
        obtain ⟨inner, -, there⟩ := (cons_eq_cut_iff fun rest => other rest).1 here
        exact uncut inner after there
      · intro uncut before after here
        exact uncut (c :: before) after (by rw [here, List.cons_append])

/-- The first cut is one that leaves no more before it than any other. -/
theorem splitFirstPath?_eq_some {cs before after : List Char}
    (h : splitFirstPath? cs = some (before, after)) :
    cs = before ++ ':' :: ':' :: after ∧
      ∀ before' after', cs = before' ++ ':' :: ':' :: after' → before.length ≤ before'.length := by
  fun_induction splitFirstPath? cs generalizing before with
  | case1 => cases h
  | case2 cs =>
      cases h
      exact ⟨rfl, fun _ _ _ => Nat.zero_le _⟩
  | case3 c cs other ih =>
      obtain ⟨⟨inner, after'⟩, cut, same⟩ := Option.map_eq_some_iff.1 h
      cases same
      obtain ⟨parts, first⟩ := ih cut
      refine ⟨by rw [parts, List.cons_append], ?_⟩
      intro before' after' here
      obtain ⟨inner', rfl, there⟩ := (cons_eq_cut_iff fun rest => other rest).1 here
      have := first inner' after' there
      simp only [List.length_cons]
      omega

/-- `module` and `symbol` are the parts of a text before and after its last `::`. -/
structure LastCut (text module symbol : String) : Prop where
  parts : text = module ++ "::" ++ symbol
  last : ∀ before after, text = before ++ "::" ++ after → before.length ≤ module.length

/-- There is one last cut. -/
theorem LastCut.unique {text a b a' b' : String} (first : LastCut text a b)
    (second : LastCut text a' b') : a = a' ∧ b = b' := by
  have lengths : a.length = a'.length :=
    Nat.le_antisymm (second.last a b first.parts) (first.last a' b' second.parts)
  have chars : a.toList ++ ("::" ++ b).toList = a'.toList ++ ("::" ++ b').toList := by
    rw [← String.toList_append, ← String.toList_append, ← String.append_assoc,
      ← String.append_assoc, ← first.parts, ← second.parts]
  rw [← String.length_toList, ← String.length_toList] at lengths
  obtain ⟨heads, tails⟩ := List.append_inj chars lengths
  refine ⟨String.toList_inj.1 heads, String.toList_inj.1 ?_⟩
  simpa using tails

theorem toList_cut (a b : String) :
    (a ++ "::" ++ b).toList = a.toList ++ ':' :: ':' :: b.toList := by
  simp

/-- Cutting from the end finds the last cut, by cutting the reversed text at its first one. -/
theorem lastCut_of_splitLastPath? {text : String} {before after : List Char}
    (h : splitLastPath? text.toList = some (before, after)) :
    LastCut text (String.ofList before) (String.ofList after) := by
  obtain ⟨⟨after', before'⟩, cut, same⟩ := Option.map_eq_some_iff.1 h
  cases same
  obtain ⟨parts, first⟩ := splitFirstPath?_eq_some cut
  constructor
  · rw [← String.toList_inj, toList_cut, String.toList_ofList, String.toList_ofList,
      ← List.reverse_inj, parts]
    simp
  · intro before after here
    have reversed : text.toList.reverse =
        after.toList.reverse ++ ':' :: ':' :: before.toList.reverse := by
      rw [here, toList_cut]
      simp
    have shorter := first _ _ reversed
    have total := congrArg List.length (parts.symm.trans reversed)
    simp only [List.length_append, List.length_cons, List.length_reverse] at shorter total
    rw [← String.length_toList, ← String.length_toList, String.toList_ofList, List.length_reverse]
    omega

theorem splitLastPath?_eq_none_iff {text : String} :
    splitLastPath? text.toList = none ↔ ∀ before after, text ≠ before ++ "::" ++ after := by
  rw [splitLastPath?, Option.map_eq_none_iff, splitFirstPath?_eq_none_iff]
  constructor
  · intro uncut before after here
    refine uncut after.toList.reverse before.toList.reverse ?_
    rw [here, toList_cut]
    simp
  · intro uncut after before here
    refine uncut (String.ofList before.reverse) (String.ofList after.reverse) ?_
    rw [← String.toList_inj, toList_cut, ← List.reverse_inj, here]
    simp

/-! ### Texts that are paths -/

namespace ImportPath

/-- A text without the blanks around it is a path: its last `::` has a module before it and a symbol
after it. -/
structure AcceptedFrom (path : ImportPath) (text : String) : Prop where
  cut : LastCut (Text.trim text) path.module path.symbol
  module_ne : path.module ≠ ""
  symbol_ne : path.symbol ≠ ""

/-- A text without the blanks around it is no path: it has no `::`, or nothing stands before or
after its last one. -/
def Malformed (text : String) : Prop :=
  (∀ before after, Text.trim text ≠ before ++ "::" ++ after) ∨
    ∃ module symbol, LastCut (Text.trim text) module symbol ∧ (module = "" ∨ symbol = "")

theorem AcceptedFrom.not_malformed {path : ImportPath} {text : String}
    (accepted : path.AcceptedFrom text) : ¬ Malformed text := by
  intro malformed
  rcases malformed with uncut | ⟨module, symbol, cut, empty⟩
  · exact uncut path.module path.symbol accepted.cut.parts
  · obtain ⟨rfl, rfl⟩ := cut.unique accepted.cut
    rcases empty with noModule | noSymbol
    · exact accepted.module_ne noModule
    · exact accepted.symbol_ne noSymbol

/-- Reading a text settles whether it is a path. -/
theorem read?_cases (text : String) :
    (read? text = none ∧ Malformed text) ∨
      ∃ path, read? text = some path ∧ path.AcceptedFrom text := by
  have trimmed : Text.dropBlanks text.toList = (Text.trim text).toList := by
    rw [Text.trim, String.toList_ofList]
  rw [read?, trimmed]
  cases split : splitLastPath? (Text.trim text).toList with
  | none => exact .inl ⟨rfl, .inl (splitLastPath?_eq_none_iff.1 split)⟩
  | some parts =>
      obtain ⟨module, symbol⟩ := parts
      have cut := lastCut_of_splitLastPath? split
      have empty : ∀ cs : List Char, cs = [] ↔ String.ofList cs = "" := by simp
      by_cases either : module = [] ∨ symbol = []
      · refine .inl ⟨if_pos (by simpa using either), .inr ⟨_, _, cut, ?_⟩⟩
        rwa [← empty, ← empty]
      · obtain ⟨noModule, noSymbol⟩ := not_or.1 either
        refine .inr ⟨⟨String.ofList module, String.ofList symbol⟩, ?_, cut, ?_, ?_⟩
        · simp [noModule, noSymbol]
        · exact fun none => noModule ((empty module).2 none)
        · exact fun none => noSymbol ((empty symbol).2 none)

theorem read?_eq_some_iff {text : String} {path : ImportPath} :
    read? text = some path ↔ path.AcceptedFrom text := by
  rcases read?_cases text with ⟨refused, malformed⟩ | ⟨other, read, accepted⟩
  · rw [refused]
    exact ⟨by simp, fun accepted => absurd malformed accepted.not_malformed⟩
  · rw [read, Option.some.injEq]
    constructor
    · intro same
      rwa [← same]
    · intro here
      obtain ⟨module, symbol⟩ := accepted.cut.unique here.cut
      rw [ImportPath.mk.injEq]
      exact ⟨module, symbol⟩

theorem read?_eq_none_iff {text : String} : read? text = none ↔ Malformed text := by
  rcases read?_cases text with ⟨refused, malformed⟩ | ⟨path, read, accepted⟩
  · exact ⟨fun _ => malformed, fun _ => refused⟩
  · rw [read]
    exact ⟨by simp, fun malformed => absurd malformed accepted.not_malformed⟩

end ImportPath

/-! ### Giving texts one after the other -/

namespace Imports

open ImportPath (AcceptedFrom Malformed)

/-- The imports once a text has been given. A text that is refused leaves them as they are. -/
def give (i : Imports) (text : String) : Imports :=
  match i.add text with
  | .ok added => added
  | .error _ => i

/-- The imports once some texts have been given, in their order. -/
def giveAll (i : Imports) (texts : List String) : Imports :=
  texts.foldl give i

theorem add_of_read? {i : Imports} {text : String} {path : ImportPath}
    (read : ImportPath.read? text = some path) : i.add text = .ok (i.insert path) := by
  rw [add, read]

theorem add_of_malformed {i : Imports} {text : String} (malformed : Malformed text) :
    i.add text = .error (.malformedImport text) := by
  rw [add, ImportPath.read?_eq_none_iff.2 malformed]

/-- Only the texts that are paths count. -/
theorem giveAll_eq (i : Imports) (texts : List String) :
    i.giveAll texts = i.insertAll (texts.filterMap ImportPath.read?) := by
  induction texts generalizing i with
  | nil => rfl
  | cons text texts ih =>
      show (i.give text).giveAll texts = _
      rw [ih, give, List.filterMap_cons]
      cases read : ImportPath.read? text with
      | none => rw [add_of_malformed (ImportPath.read?_eq_none_iff.1 read)]
      | some path => rw [add_of_read? read]; rfl

theorem mem_accepted {texts : List String} {path : ImportPath} :
    path ∈ texts.filterMap ImportPath.read? ↔ ∃ text ∈ texts, path.AcceptedFrom text := by
  simp only [List.mem_filterMap, ImportPath.read?_eq_some_iff]

/-- **Only the set of accepted paths counts.** From no imports, two sequences of texts lead to the
same text of the imports if the same paths are accepted from them, whatever the order, the
repetitions, the blanks around the texts and the refused texts in between; and what they lead to
imports exactly the accepted paths. A text is refused exactly if it has no `::` once the blanks
around it are gone, or nothing before or after its last one; the imports are then unchanged. -/
theorem text_determined_by_accepted_paths :
    (∀ first second : List String,
      (∀ path : ImportPath, (∃ text ∈ first, path.AcceptedFrom text) ↔
        ∃ text ∈ second, path.AcceptedFrom text) →
      (empty.giveAll first).toText = (empty.giveAll second).toText) ∧
    (∀ (texts : List String) (path : ImportPath),
      path ∈ (empty.giveAll texts).paths ↔ ∃ text ∈ texts, path.AcceptedFrom text) ∧
    ∀ (i : Imports) (text : String),
      ((∃ e, i.add text = .error e) ↔ Malformed text) ∧
      (Malformed text → i.add text = .error (.malformedImport text) ∧ i.give text = i) := by
  refine ⟨?_, ?_, ?_⟩
  · intro first second same
    rw [giveAll_eq, giveAll_eq, insertAll_congr]
    intro path
    rw [mem_accepted, mem_accepted, same]
  · intro texts path
    rw [giveAll_eq, mem_paths_insertAll, mem_accepted]
    simp [empty, paths]
  · intro i text
    refine ⟨⟨?_, ?_⟩, ?_⟩
    · intro failed
      obtain ⟨e, failed⟩ := failed
      by_contra wellFormed
      rcases ImportPath.read?_cases text with ⟨-, malformed⟩ | ⟨path, read, -⟩
      · exact wellFormed malformed
      · rw [add_of_read? read] at failed
        cases failed
    · intro malformed
      exact ⟨_, add_of_malformed malformed⟩
    · intro malformed
      refine ⟨add_of_malformed malformed, ?_⟩
      rw [give, add_of_malformed malformed]

end Imports

namespace Sample

/-- Two paths, as they are meant to be written. -/
def tidyPaths : List String := ["serde::Serialize", "crate:::Mark"]

/-- The same paths, repeated and with blanks, and texts that are no paths. -/
def untidyPaths : List String :=
  ["  crate:::Mark\n", "Uuid", "serde::Serialize", "::Uuid", "serde::Serialize ", "serde::"]

theorem spellings_same_text :
    (∀ path : ImportPath, (∃ text ∈ tidyPaths, path.AcceptedFrom text) ↔
      ∃ text ∈ untidyPaths, path.AcceptedFrom text) ∧
    (Imports.empty.giveAll tidyPaths).toText = (Imports.empty.giveAll untidyPaths).toText ∧
    ImportPath.Malformed "serde::" ∧ Imports.empty.give "serde::" = Imports.empty := by
  have tidy : tidyPaths.filterMap ImportPath.read? =
      [⟨"serde", "Serialize"⟩, ⟨"crate:", "Mark"⟩] := by
    decide
  have untidy : untidyPaths.filterMap ImportPath.read? =
      [⟨"crate:", "Mark"⟩, ⟨"serde", "Serialize"⟩, ⟨"serde", "Serialize"⟩] := by
    decide
  have same : ∀ path : ImportPath, (∃ text ∈ tidyPaths, path.AcceptedFrom text) ↔
      ∃ text ∈ untidyPaths, path.AcceptedFrom text := by
    intro path
    rw [← Imports.mem_accepted, ← Imports.mem_accepted, tidy, untidy]
    simp [or_comm]
  have malformed : ImportPath.Malformed "serde::" :=
    ImportPath.read?_eq_none_iff.1 (by decide)
  obtain ⟨determined, -, refused⟩ := Imports.text_determined_by_accepted_paths
  exact ⟨same, determined _ _ same, malformed, ((refused _ _).2 malformed).2⟩

end Sample

end WireSchema
