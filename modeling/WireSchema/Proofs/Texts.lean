/-!
# Texts

What texts are made of, for the proofs about all kinds of them: the pieces between separators, texts
written one after the other, the two ends of a text, and the characters of a decimal number.
-/

namespace WireSchema.Text

/-! ### Pieces -/

/-- There is one piece more than there are separators. -/
theorem length_splitOn (sep : Char) (cs : List Char) :
    (cs.splitOn sep).length = cs.count sep + 1 := by
  induction cs with
  | nil => simp
  | cons c cs ih =>
      rw [List.splitOn_cons_eq_if_modifyHead]
      by_cases here : c = sep
      · simp [here, ih]
      · simp [here, ih]

theorem not_mem_of_mem_splitOn {sep : Char} {cs piece : List Char} (mem : piece ∈ cs.splitOn sep) :
    sep ∉ piece := by
  induction cs generalizing piece with
  | nil => simp_all
  | cons c cs ih =>
      rw [List.splitOn_cons_eq_if_modifyHead] at mem
      by_cases here : c = sep
      · simp only [here, beq_self_eq_true, if_true] at mem
        rcases List.mem_cons.1 mem with rfl | later
        · simp
        · exact ih later
      · obtain ⟨first, others, pieces⟩ := List.exists_cons_of_ne_nil (List.splitOn_ne_nil sep cs)
        rw [pieces] at ih mem
        simp only [beq_iff_eq, here, if_false, List.modifyHead_cons] at mem
        rcases List.mem_cons.1 mem with rfl | later
        · simpa [Ne.symm here] using ih (List.mem_cons_self ..)
        · exact ih (List.mem_cons_of_mem _ later)

/-! ### Texts written one after the other -/

theorem mem_of_mem_intercalate {separator : String} {texts : List String} {c : Char}
    (mem : c ∈ (separator.intercalate texts).toList) :
    c ∈ separator.toList ∨ ∃ text ∈ texts, c ∈ text.toList := by
  induction texts with
  | nil => simp at mem
  | cons first rest ih =>
      by_cases last : rest = []
      · subst last
        exact .inr ⟨first, List.mem_singleton_self _, by simpa using mem⟩
      · rw [String.intercalate_cons_of_ne_nil last, String.toList_append, String.toList_append,
          List.mem_append, List.mem_append] at mem
        rcases mem with (here | between) | later
        · exact .inr ⟨first, List.mem_cons_self .., here⟩
        · exact .inl between
        · refine (ih later).imp_right ?_
          rintro ⟨text, listed, there⟩
          exact ⟨text, List.mem_cons_of_mem _ listed, there⟩

theorem not_mem_intercalate {separator : String} {texts : List String} {c : Char}
    (free : c ∉ separator.toList) (each : ∀ text ∈ texts, c ∉ text.toList) :
    c ∉ (separator.intercalate texts).toList := by
  intro mem
  rcases mem_of_mem_intercalate mem with between | ⟨text, listed, there⟩
  · exact free between
  · exact each text listed there

theorem join_ne_empty {text : String} {texts : List String} (mem : text ∈ texts)
    (nonempty : text ≠ "") : String.join texts ≠ "" := by
  obtain ⟨before, after, rfl⟩ := List.append_of_mem mem
  simp [nonempty]

theorem intercalate_ne_empty {separator text : String} {texts : List String} (mem : text ∈ texts)
    (nonempty : text ≠ "") : separator.intercalate texts ≠ "" := by
  induction texts with
  | nil => cases mem
  | cons first rest ih =>
      by_cases last : rest = []
      · subst last
        rw [String.intercalate_singleton, ← List.mem_singleton.1 mem]
        exact nonempty
      · rw [String.intercalate_cons_of_ne_nil last, ne_eq, String.append_eq_empty_iff]
        intro both
        rcases List.mem_cons.1 mem with rfl | later
        · exact nonempty (String.append_eq_empty_iff.1 both.1).1
        · exact ih later both.2

/-! ### The ends of a text -/

theorem head?_append {s : String} {c : Char} (first : s.toList.head? = some c) (t : String) :
    (s ++ t).toList.head? = some c := by
  simp [String.toList_append, List.head?_append, first]

theorem getLast?_append {t : String} {c : Char} (last : t.toList.getLast? = some c)
    (s : String) : (s ++ t).toList.getLast? = some c := by
  simp [String.toList_append, List.getLast?_append, last]

/-! ### Decimal texts -/

theorem toList_toString_nat (k : Nat) : (toString k).toList = Nat.toDigits 10 k := by
  rw [Nat.toString_eq_ofList_toDigits, String.toList_ofList]

/-- An integer is written as the digits of its magnitude, behind a minus sign if it is negative. -/
theorem toList_toString (n : Int) :
    (toString n).toList =
      if n < 0 then '-' :: Nat.toDigits 10 n.natAbs else Nat.toDigits 10 n.natAbs := by
  cases n with
  | ofNat k => exact toList_toString_nat k
  | negSucc k =>
      have minus : toString (Int.negSucc k) = "-" ++ toString (k + 1) := rfl
      rw [minus, String.toList_append, toList_toString_nat, if_pos (Int.negSucc_lt_zero k)]
      rfl

theorem mem_toString {n : Int} {c : Char} (mem : c ∈ (toString n).toList) :
    c = '-' ∨ c.isDigit = true := by
  have digits : c ∈ Nat.toDigits 10 n.natAbs → c.isDigit = true :=
    Nat.isDigit_of_mem_toDigits (by decide) (by decide)
  rw [toList_toString] at mem
  split at mem
  · exact (List.mem_cons.1 mem).imp_right digits
  · exact .inr (digits mem)

theorem any_isDigit_toString (n : Int) : (toString n).toList.any Char.isDigit = true := by
  obtain ⟨c, mem⟩ := List.exists_mem_of_ne_nil _ (Nat.toDigits_ne_nil (n := n.natAbs) (b := 10))
  refine List.any_eq_true.2 ⟨c, ?_, Nat.isDigit_of_mem_toDigits (by decide) (by decide) mem⟩
  rw [toList_toString]
  split
  · exact List.mem_cons_of_mem _ mem
  · exact mem

end WireSchema.Text
