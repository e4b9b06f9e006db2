import WireSchema.Text.Casing

/-!
# Names in Pascal case

A name in **Pascal case** is a sequence of words, each a capital followed by at least one character
that is neither a capital nor an underscore. On such names nothing is lost by snake case: it writes
the words with a small first letter and an underscore between each two (`snakeAfter_words`), and
Pascal case reads them off there (`pascalCase_snakeCase`). So different names in Pascal case have
different snake case forms.

A name in another style may share its snake case form with one in Pascal case, as `rate_ms` does
with `RateMs`.
-/

namespace WireSchema.Text

/-! ### Letters -/

theorem isUpper_iff {c : Char} : c.isUpper = true ↔ 65 ≤ c.toNat ∧ c.toNat ≤ 90 :=
  decide_eq_true_iff

/-- A letter is told by its number. -/
theorem capital_spec : ∀ n < 91, 65 ≤ n →
    (Char.ofNat n).toLower.toUpper = Char.ofNat n ∧ (Char.ofNat n).toLower.isLower = true ∧
      (Char.ofNat n).toLower.isUpper = false := by
  decide

theorem capital_toLower {c : Char} (capital : c.isUpper = true) :
    c.toLower.toUpper = c ∧ c.toLower.isLower = true ∧ c.toLower.isUpper = false := by
  obtain ⟨low, high⟩ := isUpper_iff.1 capital
  have spec := capital_spec c.toNat (by omega) low
  rwa [Char.ofNat_toNat] at spec

theorem toLower_of_not_isUpper {c : Char} (small : c.isUpper = false) : c.toLower = c := by
  have outside : ¬ (65 ≤ c.toNat ∧ c.toNat ≤ 90) := by
    rw [← isUpper_iff, small]
    decide
  exact dif_neg outside

/-- Snake case brings in underscores and small letters only. -/
theorem mem_snakeAfter {previous : Option Char} {cs : List Char} {c : Char}
    (mem : c ∈ snakeAfter previous cs) : c = '_' ∨ c.isLower = true ∨ c ∈ cs := by
  induction cs generalizing previous with
  | nil => cases mem
  | cons d cs ih =>
      have later : c ∈ snakeAfter (some d) cs → c = '_' ∨ c.isLower = true ∨ c ∈ d :: cs :=
        fun mem => (ih mem).imp_right (.imp_right (List.mem_cons_of_mem _))
      rw [snakeAfter] at mem
      split at mem
      · next capital =>
          have lowered : c = d.toLower → c = '_' ∨ c.isLower = true ∨ c ∈ d :: cs :=
            fun same => .inr (.inl (same ▸ (capital_toLower capital).2.1))
          split at mem
          · rcases List.mem_cons.1 mem with underscore | mem
            · exact .inl underscore
            · exact (List.mem_cons.1 mem).elim lowered later
          · exact (List.mem_cons.1 mem).elim lowered later
      · rcases List.mem_cons.1 mem with same | mem
        · exact .inr (.inr (same ▸ List.mem_cons_self ..))
        · exact later mem

theorem not_mem_snakeCase {name : String} {c : Char} (free : c ∉ name.toList)
    (notUnderscore : c ≠ '_') (notLower : c.isLower = false) : c ∉ (snakeCase name).toList := by
  rw [snakeCase, String.toList_ofList]
  intro mem
  rcases mem_snakeAfter mem with underscore | lower | listed
  · exact notUnderscore underscore
  · rw [notLower] at lower
    cases lower
  · exact free listed

/-! ### Words -/

/-- A character inside a word. -/
def IsInner (c : Char) : Prop :=
  c.isUpper = false ∧ c ≠ '_'

theorem isInner_of_all {inner : List Char}
    (all : inner.all (fun c => !c.isUpper && c != '_') = true) : ∀ c ∈ inner, IsInner c := by
  simpa [IsInner] using all

theorem map_toLower_of_inner {cs : List Char} (plain : ∀ c ∈ cs, IsInner c) :
    cs.map Char.toLower = cs :=
  (List.map_congr_left fun c mem => toLower_of_not_isUpper (plain c mem).1).trans (List.map_id' _)

/-- A word: a capital and what follows it, which is not empty. -/
structure Word where
  capital : Char
  inner : List Char
  isUpper : capital.isUpper = true
  nonempty : inner ≠ []
  plain : ∀ c ∈ inner, IsInner c

namespace Word

/-- The word as it is written in Pascal case. -/
def chars (w : Word) : List Char := w.capital :: w.inner

/-- The word as it is written in snake case. -/
def small (w : Word) : List Char := w.capital.toLower :: w.inner

theorem not_mem_small (w : Word) : '_' ∉ w.small := by
  intro mem
  rcases List.mem_cons.1 mem with first | later
  · have lower := (capital_toLower w.isUpper).2.1
    rw [← first] at lower
    exact absurd lower (by decide)
  · exact (w.plain _ later).2 rfl

theorem capitalize_small (w : Word) : capitalize w.small = w.chars := by
  obtain ⟨back, -, lower⟩ := capital_toLower w.isUpper
  rw [capitalize, small, List.map_cons, toLower_of_not_isUpper lower, map_toLower_of_inner w.plain]
  simp [chars, back]

end Word

/-- Characters inside a word are carried over, and a capital after them opens a word. -/
theorem snakeAfter_inner {inner : List Char} (nonempty : inner ≠ [])
    (plain : ∀ c ∈ inner, IsInner c) (previous : Option Char) :
    ∃ last, opensWord (some last) = true ∧
      ∀ cs, snakeAfter previous (inner ++ cs) = inner ++ snakeAfter (some last) cs := by
  induction inner generalizing previous with
  | nil => exact absurd rfl nonempty
  | cons c inner ih =>
      obtain ⟨⟨small, notUnderscore⟩, others⟩ := List.forall_mem_cons.1 plain
      by_cases done : inner = []
      · subst done
        refine ⟨c, by simp [opensWord, small, notUnderscore], ?_⟩
        intro cs
        simp [snakeAfter, small]
      · obtain ⟨last, opens, carried⟩ := ih done others (some c)
        refine ⟨last, opens, ?_⟩
        intro cs
        simp [snakeAfter, small, carried]

theorem snakeAfter_word (w : Word) (previous : Option Char) :
    ∃ last, opensWord (some last) = true ∧ ∀ cs, snakeAfter previous (w.chars ++ cs) =
      (if opensWord previous then ['_'] else []) ++ w.small ++ snakeAfter (some last) cs := by
  obtain ⟨last, opens, carried⟩ := snakeAfter_inner w.nonempty w.plain (some w.capital)
  refine ⟨last, opens, ?_⟩
  intro cs
  rw [Word.chars, List.cons_append, snakeAfter, if_pos w.isUpper, carried, Word.small]
  by_cases opened : opensWord previous = true
  · simp [opened]
  · simp [opened]

/-- The words after the first are written with an underscore in front. -/
theorem snakeAfter_words {previous : Option Char} (opens : opensWord previous = true)
    (words : List Word) :
    snakeAfter previous (words.flatMap Word.chars) = words.flatMap fun w => '_' :: w.small := by
  induction words generalizing previous with
  | nil => rfl
  | cons w words ih =>
      obtain ⟨last, opens', written⟩ := snakeAfter_word w previous
      simp [written, opens, ih opens']

theorem snakeAfter_name (first : Word) (others : List Word) :
    snakeAfter none ((first :: others).flatMap Word.chars) =
      first.small ++ others.flatMap fun w => '_' :: w.small := by
  obtain ⟨last, opens, written⟩ := snakeAfter_word first none
  simp [written, opensWord, snakeAfter_words opens]

theorem splitOn_words {piece : List Char} (free : '_' ∉ piece) (words : List Word) :
    (piece ++ words.flatMap fun w => '_' :: w.small).splitOn '_' =
      piece :: words.map Word.small := by
  induction words generalizing piece with
  | nil => simp [List.splitOn_eq_singleton free]
  | cons w words ih =>
      simp only [List.flatMap_cons, List.map_cons, List.cons_append]
      rw [List.splitOn_append_cons_self_of_not_mem free, ih w.not_mem_small]

/-- A name in Pascal case: at least one word. -/
def IsPascal (name : String) : Prop :=
  ∃ (first : Word) (others : List Word),
    name = String.ofList ((first :: others).flatMap Word.chars)

theorem pascalCase_snakeCase {name : String} (pascal : IsPascal name) :
    pascalCase (snakeCase name) = name := by
  obtain ⟨first, others, rfl⟩ := pascal
  have words : ∀ ws : List Word,
      (ws.map Word.small).flatMap capitalize = ws.flatMap Word.chars := by
    intro ws
    simp [List.flatMap_map, Word.capitalize_small]
  rw [snakeCase, pascalCase, String.toList_ofList, String.toList_ofList, snakeAfter_name,
    splitOn_words first.not_mem_small, ← List.map_cons, words]

/-- Between the underscores of a snake case form there are the words, none of which is empty. -/
theorem nil_not_mem_splitOn_snakeCase {name : String} (pascal : IsPascal name) :
    [] ∉ (snakeCase name).toList.splitOn '_' := by
  obtain ⟨first, others, rfl⟩ := pascal
  rw [snakeCase, String.toList_ofList, String.toList_ofList, snakeAfter_name,
    splitOn_words first.not_mem_small, ← List.map_cons]
  intro mem
  obtain ⟨w, -, empty⟩ := List.mem_map.1 mem
  cases empty

theorem snakeCase_inj {a b : String} (pascalA : IsPascal a) (pascalB : IsPascal b)
    (same : snakeCase a = snakeCase b) : a = b := by
  rw [← pascalCase_snakeCase pascalA, ← pascalCase_snakeCase pascalB, same]

end WireSchema.Text
