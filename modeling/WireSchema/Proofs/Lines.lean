import WireSchema.Proofs.Texts
import WireSchema.Text.Blank

/-!
# Texts made of lines

Generated texts are written line by line, each line ended by a newline. `OnLines text ls` says that
a text consists of the lines `ls` in this sense; it is built up as the text is, by appending.
Cutting such a text into lines gives them back, whatever follows it (`OnLines.lines_append`).

A line has no newline in it, and no carriage return at its end, which cutting would take away.
-/

namespace WireSchema.Text

/-! ### Lines -/

/-- A text that can stand on one line. -/
structure IsLine (line : String) : Prop where
  /-- It has no newline. -/
  free : '\n' ∉ line.toList
  /-- It does not end in a carriage return. -/
  ending : line.toList.getLast? ≠ some '\r'

instance (line : String) : Decidable (IsLine line) :=
  decidable_of_iff ('\n' ∉ line.toList ∧ line.toList.getLast? ≠ some '\r')
    ⟨fun ⟨free, ending⟩ => ⟨free, ending⟩, fun line => ⟨line.free, line.ending⟩⟩

/-- A line is continued by another one. -/
theorem IsLine.append {a b : String} (lineA : IsLine a) (lineB : IsLine b) : IsLine (a ++ b) where
  free := by
    simp [lineA.free, lineB.free]
  ending := by
    have := lineA.ending
    have := lineB.ending
    rw [String.toList_append, List.getLast?_append]
    cases last : b.toList.getLast? <;> simp_all

/-- A line is told by its end, if nothing before has a newline. -/
theorem IsLine.append_left {a b : String} (free : '\n' ∉ a.toList) (line : IsLine b)
    (nonempty : b.toList ≠ []) : IsLine (a ++ b) where
  free := by
    simp [free, line.free]
  ending := by
    obtain ⟨last, ends⟩ : ∃ last, b.toList.getLast? = some last :=
      ⟨_, List.getLast?_eq_some_getLast nonempty⟩
    have ending := line.ending
    rw [ends] at ending
    simpa [List.getLast?_append, ends] using ending

/-! ### Texts on lines -/

/-- The text consists of these lines, each ended by a newline. -/
structure OnLines (text : String) (ls : List String) : Prop where
  eq_join : text = String.join (ls.map (· ++ "\n"))
  isLine : ∀ l ∈ ls, IsLine l

/-- The part before the first newline is the first line. -/
theorem linesOf_append {piece : List Char} (free : '\n' ∉ piece) (rest : List Char) :
    linesOf (piece ++ '\n' :: rest) = dropReturn piece :: linesOf rest := by
  obtain ⟨first, others, pieces⟩ := List.exists_cons_of_ne_nil (List.splitOn_ne_nil '\n' rest)
  rw [linesOf, linesOf, List.splitOn_append_cons_self_of_not_mem free, pieces,
    List.dropLast_cons_cons, List.getLast?_cons_cons, List.map_cons]
  split <;> rfl

theorem dropLast?_concat (c : Char) (cs : List Char) : dropLast? c (cs ++ [c]) = some cs := by
  simp [dropLast?]

theorem dropLast?_of_ne {c : Char} {cs : List Char} (ending : cs.getLast? ≠ some c) :
    dropLast? c cs = none := by
  rw [List.getLast?_eq_head?_reverse] at ending
  unfold dropLast?
  split
  · next last before reversed =>
      rw [reversed, List.head?_cons, ne_eq, Option.some.injEq] at ending
      exact if_neg ending
  · rfl

theorem dropReturn_of_ne {piece : List Char} (ending : piece.getLast? ≠ some '\r') :
    dropReturn piece = piece := by
  rw [dropReturn, dropLast?_of_ne ending, Option.getD_none]

theorem lines_line_append {l : String} (isLine : IsLine l) (rest : String) :
    lines (l ++ "\n" ++ rest) = l :: lines rest := by
  have chars : (l ++ "\n" ++ rest).toList = l.toList ++ '\n' :: rest.toList := by
    simp
  rw [lines, chars, linesOf_append isLine.free, dropReturn_of_ne isLine.ending, List.map_cons,
    String.ofList_toList, lines]

namespace OnLines

theorem nil : OnLines "" [] := ⟨rfl, nofun⟩

theorem line {l : String} (isLine : IsLine l) : OnLines (l ++ "\n") [l] := by
  refine ⟨by simp, ?_⟩
  simpa using isLine

theorem append {a b : String} {as bs : List String} (linesA : OnLines a as)
    (linesB : OnLines b bs) : OnLines (a ++ b) (as ++ bs) where
  eq_join := by
    rw [List.map_append, String.join_append, ← linesA.eq_join, ← linesB.eq_join]
  isLine := by
    simpa [or_imp, forall_and] using ⟨linesA.isLine, linesB.isLine⟩

/-- Cutting gives the lines back, and goes on with what follows. -/
theorem lines_append {text : String} {ls : List String} (onLines : OnLines text ls)
    (rest : String) : lines (text ++ rest) = ls ++ lines rest := by
  obtain ⟨rfl, isLine⟩ := onLines
  induction ls with
  | nil => simp
  | cons l ls ih =>
      obtain ⟨here, isLine⟩ := List.forall_mem_cons.1 isLine
      rw [List.map_cons, String.join_cons, String.append_assoc, lines_line_append here,
        ih isLine, List.cons_append]

end OnLines

/-- The text consists of lines that have a property. -/
def Consists (P : String → Prop) (text : String) : Prop :=
  ∃ ls, OnLines text ls ∧ ∀ l ∈ ls, P l

namespace Consists

variable {P : String → Prop}

theorem append {a b : String} (consistsA : Consists P a) (consistsB : Consists P b) :
    Consists P (a ++ b) := by
  obtain ⟨as, linesA, eachA⟩ := consistsA
  obtain ⟨bs, linesB, eachB⟩ := consistsB
  exact ⟨as ++ bs, linesA.append linesB, by simpa [or_imp, forall_and] using ⟨eachA, eachB⟩⟩

theorem line {l : String} (isLine : IsLine l) (h : P l) : Consists P (l ++ "\n") :=
  ⟨[l], .line isLine, by simpa using h⟩

theorem nil : Consists P "" := ⟨[], .nil, nofun⟩

theorem join {texts : List String} (each : ∀ text ∈ texts, Consists P text) :
    Consists P (String.join texts) := by
  induction texts with
  | nil => exact nil
  | cons text texts ih =>
      obtain ⟨first, others⟩ := List.forall_mem_cons.1 each
      rw [String.join_cons]
      exact first.append (ih others)

/-- Texts on lines are joined by empty lines. -/
theorem intercalate {texts : List String} (empty : P "")
    (each : ∀ text ∈ texts, Consists P text) : Consists P ("\n".intercalate texts) := by
  induction texts with
  | nil => exact nil
  | cons text texts ih =>
      obtain ⟨first, others⟩ := List.forall_mem_cons.1 each
      cases texts with
      | nil => simpa using first
      | cons _ _ =>
          rw [String.intercalate_cons_cons]
          exact (first.append (line (l := "") (by decide) empty)).append (ih others)

end Consists

/-! ### Lines of any text -/

theorem mem_of_mem_dropReturn {piece : List Char} {c : Char} (mem : c ∈ dropReturn piece) :
    c ∈ piece := by
  unfold dropReturn dropLast? at mem
  split at mem
  · next last before reversed =>
      split at mem
      · rw [← List.mem_reverse, reversed]
        exact List.mem_cons_of_mem _ (List.mem_reverse.1 mem)
      · exact mem
  · exact mem

theorem mem_linesOf {cs line : List Char} (mem : line ∈ linesOf cs) :
    ∃ piece ∈ cs.splitOn '\n', line = dropReturn piece ∨ line = piece := by
  have ended : line ∈ (cs.splitOn '\n').dropLast.map dropReturn →
      ∃ piece ∈ cs.splitOn '\n', line = dropReturn piece ∨ line = piece := by
    intro mem
    obtain ⟨piece, listed, rfl⟩ := List.mem_map.1 mem
    exact ⟨piece, (List.dropLast_sublist _).subset listed, .inl rfl⟩
  simp only [linesOf] at mem
  split at mem
  · exact ended mem
  · exact ended mem
  · next rest _ last =>
      rcases List.mem_append.1 mem with mem | mem
      · exact ended mem
      · exact ⟨rest, List.mem_of_getLast? last, .inr (List.mem_singleton.1 mem)⟩

theorem newline_not_mem_lines {text line : String} (mem : line ∈ lines text) :
    '\n' ∉ line.toList := by
  obtain ⟨cs, listed, rfl⟩ := List.mem_map.1 mem
  rw [String.toList_ofList]
  obtain ⟨piece, isPiece, shape⟩ := mem_linesOf listed
  have free := not_mem_of_mem_splitOn isPiece
  rcases shape with rfl | rfl
  · exact fun mem => free (mem_of_mem_dropReturn mem)
  · exact free

/-- Without the blanks at its end a text ends in no carriage return. -/
theorem isLine_trimEnd {text : String} (free : '\n' ∉ text.toList) : IsLine (trimEnd text) where
  free := by
    rw [trimEnd, String.toList_ofList, dropBlanksRight, List.mem_reverse]
    intro mem
    exact free (List.mem_reverse.1 ((List.dropWhile_sublist _).subset mem))
  ending := by
    rw [trimEnd, String.toList_ofList, dropBlanksRight, List.getLast?_reverse]
    intro last
    have := List.head?_dropWhile_not isBlank text.toList.reverse
    rw [last] at this
    revert this
    decide

end WireSchema.Text
