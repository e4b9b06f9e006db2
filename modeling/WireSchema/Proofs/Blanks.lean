import Mathlib.Data.List.Basic
import WireSchema.Text.Blank

/-!
# Blanks around a text

Many texts are read after the blanks around them are dropped. Dropping is characterized once and for
all: every text is its blanks on both sides and a trimmed text between them (`exists_dropBlanks`),
and however it is written in this way, the trimmed text is what dropping leaves (`dropBlanks_eq`).
-/

namespace WireSchema.Text

/-- Nothing but blanks. -/
def IsBlanks (cs : List Char) : Prop :=
  ∀ c ∈ cs, isBlank c = true

instance (cs : List Char) : Decidable (IsBlanks cs) :=
  decidable_of_iff (cs.all isBlank = true) List.all_eq_true

/-- A text without blanks at its ends. -/
structure Trimmed (cs : List Char) : Prop where
  /-- It does not start with a blank. -/
  first : ∀ c, cs.head? = some c → isBlank c = false
  /-- It does not end with a blank. -/
  last : ∀ c, cs.getLast? = some c → isBlank c = false

variable {left cs right : List Char}

theorem IsBlanks.nil : IsBlanks [] := by decide

theorem IsBlanks.append (blanks : IsBlanks left) (blanks' : IsBlanks right) :
    IsBlanks (left ++ right) := by
  simpa [IsBlanks, or_imp, forall_and] using ⟨blanks, blanks'⟩

theorem IsBlanks.reverse (blanks : IsBlanks cs) : IsBlanks cs.reverse := by
  simpa [IsBlanks] using blanks

theorem dropWhile_isBlank_of_first (first : ∀ c, cs.head? = some c → isBlank c = false) :
    cs.dropWhile isBlank = cs := by
  cases cs with
  | nil => rfl
  | cons c cs => rw [List.dropWhile_cons_of_neg (by simp [first c rfl])]

/-- Dropping blanks finds what is between them. -/
theorem dropBlanks_eq (before : IsBlanks left) (trimmed : Trimmed cs) (after : IsBlanks right) :
    dropBlanks (left ++ cs ++ right) = cs := by
  rw [dropBlanks, List.append_assoc, List.dropWhile_append_of_pos before]
  by_cases empty : cs = []
  · subst empty
    have nothing : (right ++ []).dropWhile isBlank = [] := List.dropWhile_append_of_pos after
    rw [List.nil_append, ← List.append_nil right, nothing]
    rfl
  · have start : (cs ++ right).dropWhile isBlank = cs ++ right := by
      apply dropWhile_isBlank_of_first
      rw [List.head?_append_of_ne_nil _ empty]
      exact trimmed.first
    have ending : cs.reverse.dropWhile isBlank = cs.reverse := by
      apply dropWhile_isBlank_of_first
      rw [List.head?_reverse]
      exact trimmed.last
    rw [start, dropBlanksRight, List.reverse_append,
      List.dropWhile_append_of_pos after.reverse, ending, List.reverse_reverse]

theorem exists_dropWhile_isBlank (cs : List Char) :
    ∃ left, IsBlanks left ∧ cs = left ++ cs.dropWhile isBlank := by
  refine ⟨cs.takeWhile isBlank, ?_, List.takeWhile_append_dropWhile.symm⟩
  intro c mem
  exact List.all_eq_true.1 List.all_takeWhile c mem

theorem isBlank_of_head?_dropWhile {c : Char} (head : (cs.dropWhile isBlank).head? = some c) :
    isBlank c = false := by
  have stop := List.head?_dropWhile_not isBlank cs
  rw [head] at stop
  simpa using stop

/-- Every text is its blanks on both sides and what dropping them leaves. -/
theorem exists_dropBlanks (cs : List Char) :
    ∃ left right, IsBlanks left ∧ IsBlanks right ∧ Trimmed (dropBlanks cs) ∧
      cs = left ++ dropBlanks cs ++ right := by
  obtain ⟨left, before, start⟩ := exists_dropWhile_isBlank cs
  obtain ⟨right, after, ending⟩ := exists_dropWhile_isBlank (cs.dropWhile isBlank).reverse
  have middle : cs.dropWhile isBlank = dropBlanks cs ++ right.reverse := by
    rw [dropBlanks, dropBlanksRight, ← List.reverse_append, ← ending, List.reverse_reverse]
  refine ⟨left, right.reverse, before, after.reverse, ⟨?_, ?_⟩, ?_⟩
  · intro c head
    have whole : (cs.dropWhile isBlank).head? = some c := by
      rw [middle, List.head?_append, head]
      rfl
    exact isBlank_of_head?_dropWhile whole
  · intro c last
    rw [dropBlanks, dropBlanksRight, List.getLast?_reverse] at last
    exact isBlank_of_head?_dropWhile last
  · rw [List.append_assoc, ← middle, ← start]

theorem trimmed_dropBlanks (cs : List Char) : Trimmed (dropBlanks cs) := by
  obtain ⟨_, _, -, -, trimmed, -⟩ := exists_dropBlanks cs
  exact trimmed

theorem Trimmed.dropBlanks_eq (trimmed : Trimmed cs) : dropBlanks cs = cs := by
  simpa using Text.dropBlanks_eq .nil trimmed .nil

theorem dropBlanks_of_free {cs : List Char} (free : ∀ c ∈ cs, isBlank c = false) :
    dropBlanks cs = cs := by
  refine Trimmed.dropBlanks_eq ⟨?_, ?_⟩
  · intro c head
    exact free c (List.mem_of_head? head)
  · intro c last
    exact free c (List.mem_of_getLast? last)

/-- Whatever stands between two trimmed texts, the whole is trimmed. -/
theorem Trimmed.between {front back : List Char} (first : Trimmed front) (second : Trimmed back)
    (front_ne : front ≠ []) (back_ne : back ≠ []) (middle : List Char) :
    Trimmed (front ++ middle ++ back) where
  first := by
    rw [List.append_assoc, List.head?_append_of_ne_nil _ front_ne]
    exact first.first
  last := by
    rw [List.getLast?_append_of_ne_nil _ back_ne]
    exact second.last

/-- Further blanks make no difference. -/
theorem dropBlanks_padded (before : IsBlanks left) (after : IsBlanks right) :
    dropBlanks (left ++ cs ++ right) = dropBlanks cs := by
  obtain ⟨left', right', before', after', trimmed, text⟩ := exists_dropBlanks cs
  have chars : left ++ cs ++ right = (left ++ left') ++ dropBlanks cs ++ (right' ++ right) := by
    calc left ++ cs ++ right
        = left ++ (left' ++ dropBlanks cs ++ right') ++ right := by rw [← text]
      _ = (left ++ left') ++ dropBlanks cs ++ (right' ++ right) := by simp
  rw [chars, dropBlanks_eq (before.append before') trimmed (after'.append after)]

end WireSchema.Text
