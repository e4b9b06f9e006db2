import Mathlib.Data.List.TakeWhile
import WireSchema.FieldType
import WireSchema.Json.Reader
import WireSchema.Proofs.Casing
import WireSchema.Proofs.Texts

/-!
# Integers in texts

The decimal text of an integer is read in two places: as a numeral, within the bounds of a type, and
as a JSON number. Both readers go through the digits with an accumulator. `valueFrom?` is that
accumulation without any bounds, so a numeral is read exactly if its digits have a value and the
value is within the bounds (`readUp_eq_ok`, `readDown_eq_ok`): the value only grows on the way, and
a check of every step is the same as a check of the last one.

* `Numeral.read_toString` — the decimal text of `n` is read as `n`, exactly if `n` is within bounds.
* `Numeral.read_of_isHex` — hexadecimal digits are read as their value.
* `Json.read?_toString`, `Json.read?_toString_cases` — the decimal text of `n` is one JSON number:
  `n` itself if that fits in 64 bits with a sign, and otherwise `n` or a finite double.
-/

namespace WireSchema

/-! ### The integers of a kind -/

/-- The integers of each kind, in numbers. -/
def IntWidth.Holds : IntWidth → Int → Prop
  | .int8, n => -128 ≤ n ∧ n ≤ 127
  | .int16, n => -32768 ≤ n ∧ n ≤ 32767
  | .uint16, n => 0 ≤ n ∧ n ≤ 65535
  | .int32, n => -2147483648 ≤ n ∧ n ≤ 2147483647
  | .uint32, n => 0 ≤ n ∧ n ≤ 4294967295
  | .int64, n => -9223372036854775808 ≤ n ∧ n ≤ 9223372036854775807

theorem IntWidth.contains_iff {width : IntWidth} {n : Int} :
    width.bounds.contains n = true ↔ width.Holds n := by
  have within {bounds : Bounds} {low high : Int} (same : bounds = ⟨low, high⟩) :
      bounds.contains n = true ↔ low ≤ n ∧ n ≤ high := by
    simp [same, Bounds.contains]
  cases width with
  | int8 => exact within (by decide)
  | int16 => exact within (by decide)
  | uint16 => exact within (by decide)
  | int32 => exact within (by decide)
  | uint32 => exact within (by decide)
  | int64 => exact within (by decide)

/-- Every kind fits in 64 bits with a sign. -/
theorem IntWidth.Holds.int64 {width : IntWidth} {n : Int} (holds : width.Holds n) :
    IntWidth.int64.Holds n := by
  cases width <;> simp only [IntWidth.Holds] at holds ⊢ <;> omega

/-! ### Digits -/

namespace Numeral

variable {radix value k : Nat} {cs : List Char}

/-- The value of digits that stand behind digits of the value `value`. -/
def valueFrom? (radix value : Nat) (cs : List Char) : Option Nat :=
  cs.foldlM (fun value c => (digitValue? radix c).map (value * radix + ·)) value

theorem valueFrom?_cons {c : Char} :
    valueFrom? radix value (c :: cs) = some k ↔
      ∃ d, digitValue? radix c = some d ∧ valueFrom? radix (value * radix + d) cs = some k := by
  simp [valueFrom?, Option.bind_eq_some_iff]

theorem valueFrom?_append {ds : List Char} :
    valueFrom? radix value (cs ++ ds) =
      (valueFrom? radix value cs).bind fun value => valueFrom? radix value ds :=
  List.foldlM_append

/-- Further digits do not make the value smaller. -/
theorem le_of_valueFrom? (positive : 0 < radix) (read : valueFrom? radix value cs = some k) :
    value ≤ k := by
  induction cs generalizing value with
  | nil => exact (Option.some.inj read).le
  | cons c cs ih =>
      obtain ⟨d, -, rest⟩ := valueFrom?_cons.1 read
      calc value ≤ value * radix := Nat.le_mul_of_pos_right value positive
        _ ≤ value * radix + d := Nat.le_add_right _ _
        _ ≤ k := ih rest

theorem digit_of_valueFrom? (read : valueFrom? radix value cs = some k) :
    ∀ c ∈ cs, ∃ d, digitValue? radix c = some d := by
  induction cs generalizing value with
  | nil => simp
  | cons c cs ih =>
      obtain ⟨d, digit, rest⟩ := valueFrom?_cons.1 read
      exact List.forall_mem_cons.2 ⟨⟨d, digit⟩, ih rest⟩

/-- Reading upwards gives the value of the digits, if that is not too large. -/
theorem readUp_eq_ok {high n : Int} (positive : 0 < radix) (start : (value : Int) ≤ high) :
    readUp radix high value cs = .ok n ↔
      ∃ k : Nat, valueFrom? radix value cs = some k ∧ (k : Int) ≤ high ∧ n = k := by
  induction cs generalizing value with
  | nil =>
      simp only [readUp, valueFrom?, List.foldlM_nil, Except.ok.injEq]
      constructor
      · intro same
        exact ⟨value, rfl, start, same.symm⟩
      · intro read
        obtain ⟨k, same, -, rfl⟩ := read
        cases same
        rfl
  | cons c cs ih =>
      simp only [readUp, valueFrom?_cons]
      cases digit : digitValue? radix c with
      | none => simp
      | some d =>
          by_cases large : high < ↑(value * radix + d)
          · simp only [if_pos large, Option.some.injEq, exists_eq_left', reduceCtorEq, false_iff]
            intro read
            obtain ⟨k, rest, small, -⟩ := read
            have grown := le_of_valueFrom? positive rest
            omega
          · simp only [if_neg large, Option.some.injEq, exists_eq_left']
            exact ih (by omega)

/-- Reading downwards mirrors reading upwards. -/
theorem readDown_eq_ok_iff_readUp {low n : Int} :
    readDown radix low value cs = .ok n ↔ readUp radix (-low) value cs = .ok (-n) := by
  induction cs generalizing value with
  | nil =>
      simp only [readDown, readUp, Except.ok.injEq]
      omega
  | cons c cs ih =>
      simp only [readDown, readUp]
      cases digitValue? radix c with
      | none => simp
      | some d =>
          have mirrored : -↑(value * radix + d) < low ↔ -low < ↑(value * radix + d) := by omega
          simp only [mirrored]
          split
          · simp
          · exact ih

/-- Reading downwards gives the opposite of the value of the digits, if that is not too small. -/
theorem readDown_eq_ok {low n : Int} (positive : 0 < radix) (start : low ≤ -(value : Int)) :
    readDown radix low value cs = .ok n ↔
      ∃ k : Nat, valueFrom? radix value cs = some k ∧ low ≤ -(k : Int) ∧ n = -k := by
  rw [readDown_eq_ok_iff_readUp, readUp_eq_ok positive (by omega)]
  refine exists_congr fun k => and_congr_right fun _ => ?_
  omega

/-! ### Signs -/

variable {bounds : Bounds} {n : Int}

/-- Digits without a sign are read as their value. -/
theorem read_of_valueFrom? (positive : 0 < radix) (high : 0 ≤ bounds.high) (nonempty : cs ≠ [])
    (digits : valueFrom? radix 0 cs = some k) :
    read radix bounds cs = .ok n ↔ (k : Int) ≤ bounds.high ∧ n = k := by
  have up : read radix bounds cs = readUp radix bounds.high 0 cs := by
    have unsigned := digit_of_valueFrom? digits
    unfold read
    split
    · exact absurd rfl nonempty
    all_goals first
      | rfl
      | obtain ⟨d, digit⟩ := unsigned _ (List.mem_cons_self ..)
        cases digit
  rw [up, readUp_eq_ok positive (by simpa using high), digits]
  simp

/-- Digits behind a minus sign are read as the opposite of their value. -/
theorem read_minus_of_valueFrom? (positive : 0 < radix) (low : bounds.low ≤ 0)
    (nonempty : cs ≠ []) (digits : valueFrom? radix 0 cs = some k) :
    read radix bounds ('-' :: cs) = .ok n ↔ bounds.low ≤ -(k : Int) ∧ n = -k := by
  obtain ⟨c, cs, rfl⟩ := List.exists_cons_of_ne_nil nonempty
  have down : read radix bounds ('-' :: c :: cs) = readDown radix bounds.low 0 (c :: cs) := rfl
  rw [down, readDown_eq_ok positive (by simpa using low), digits]
  simp

/-- What is read consists of digits and signs. -/
theorem mem_of_read (positive : 0 < radix) (high : 0 ≤ bounds.high) (low : bounds.low ≤ 0)
    (run : read radix bounds cs = .ok n) :
    ∀ c ∈ cs, c = '+' ∨ c = '-' ∨ ∃ d, digitValue? radix c = some d := by
  have up : ∀ {cs}, readUp radix bounds.high 0 cs = .ok n →
      ∀ c ∈ cs, ∃ d, digitValue? radix c = some d := by
    intro cs run
    obtain ⟨k, digits, -⟩ := (readUp_eq_ok positive (by simpa using high)).1 run
    exact digit_of_valueFrom? digits
  unfold read at run
  split at run
  · cases run
  · cases run
  · cases run
  · intro c mem
    rcases List.mem_cons.1 mem with sign | mem
    · exact .inl sign
    · exact .inr (.inr (up run c mem))
  · intro c mem
    obtain ⟨k, digits, -⟩ := (readDown_eq_ok positive (by simpa using low)).1 run
    rcases List.mem_cons.1 mem with sign | mem
    · exact .inr (.inl sign)
    · exact .inr (.inr (digit_of_valueFrom? digits c mem))
  · intro c mem
    exact .inr (.inr (up run c mem))

/-! ### Digits of a natural number -/

theorem digitValue?_digitChar (small : radix ≤ 16) {d : Nat} (digit : d < radix) :
    digitValue? radix d.digitChar = some d := by
  have hex : ∀ d < 16, hexValue? d.digitChar = some d := by decide
  rw [digitValue?, hex d (by omega)]
  simp [digit]

theorem valueFrom?_toDigits (large : 1 < radix) (small : radix ≤ 16) (k : Nat) :
    valueFrom? radix 0 (Nat.toDigits radix k) = some k := by
  induction k using Nat.strongRecOn with
  | ind k ih =>
      by_cases short : k < radix
      · rw [Nat.toDigits_of_lt_base short]
        exact valueFrom?_cons.2 ⟨k, digitValue?_digitChar small short, by simp [valueFrom?]⟩
      · have fewer : k / radix < k := Nat.div_lt_self (by omega) large
        rw [Nat.toDigits_of_base_le large (by omega), valueFrom?_append, ih _ fewer]
        have last := digitValue?_digitChar small (Nat.mod_lt k (by omega))
        refine valueFrom?_cons.2 ⟨k % radix, last, ?_⟩
        rw [Nat.div_add_mod' k radix]
        rfl

theorem valueFrom?_zeros (positive : 0 < radix) (zeros : Nat) :
    valueFrom? radix 0 (List.replicate zeros '0') = some 0 := by
  have zero : digitValue? radix '0' = some 0 := by
    have hex : hexValue? '0' = some 0 := rfl
    simp [digitValue?, hex, positive]
  induction zeros with
  | zero => rfl
  | succ zeros ih => exact valueFrom?_cons.2 ⟨0, zero, by simpa using ih⟩

/-- Letters stand for digits in either case. -/
theorem digitValue?_toLower (c : Char) : digitValue? radix c.toLower = digitValue? radix c := by
  have capitals : ∀ n < 91, 65 ≤ n →
      hexValue? (Char.ofNat n).toLower = hexValue? (Char.ofNat n) := by
    decide
  cases capital : c.isUpper with
  | false => rw [Text.toLower_of_not_isUpper capital]
  | true =>
      obtain ⟨low, high⟩ := Text.isUpper_iff.1 capital
      have same := capitals c.toNat (by omega) low
      rw [Char.ofNat_toNat] at same
      rw [digitValue?, digitValue?, same]

/-- The hexadecimal digits of a natural number: letters are of either case, and there may be zeros
in front. -/
def IsHex (k : Nat) (digits : List Char) : Prop :=
  ∃ zeros, digits.map Char.toLower = List.replicate zeros '0' ++ Nat.toDigits 16 k

theorem valueFrom?_of_isHex {digits : List Char} (hex : IsHex k digits) :
    valueFrom? 16 0 digits = some k := by
  obtain ⟨zeros, lower⟩ := hex
  have same : valueFrom? 16 0 digits = valueFrom? 16 0 (digits.map Char.toLower) := by
    simp only [valueFrom?, List.foldlM_map, digitValue?_toLower]
  rw [same, lower, valueFrom?_append, valueFrom?_zeros (by decide)]
  exact valueFrom?_toDigits (by decide) (by decide) k

theorem IsHex.ne_nil {digits : List Char} (hex : IsHex k digits) : digits ≠ [] := by
  obtain ⟨zeros, lower⟩ := hex
  intro none
  rw [none, List.map_nil] at lower
  exact Nat.toDigits_ne_nil (List.append_eq_nil_iff.1 lower.symm).2

theorem read_of_isHex {digits : List Char} (high : 0 ≤ bounds.high) (hex : IsHex k digits) :
    read 16 bounds digits = .ok n ↔ (k : Int) ≤ bounds.high ∧ n = k :=
  read_of_valueFrom? (by decide) high hex.ne_nil (valueFrom?_of_isHex hex)

/-! ### The decimal text of an integer -/

theorem read_toString (low : bounds.low ≤ 0) (high : 0 ≤ bounds.high) {n r : Int} :
    read 10 bounds (toString n).toList = .ok r ↔ bounds.contains n = true ∧ r = n := by
  have digits : valueFrom? 10 0 (Nat.toDigits 10 n.natAbs) = some n.natAbs :=
    valueFrom?_toDigits (by decide) (by decide) n.natAbs
  rw [Text.toList_toString]
  simp only [Bounds.contains, Bool.and_eq_true, decide_eq_true_eq]
  by_cases negative : n < 0
  · rw [if_pos negative, read_minus_of_valueFrom? (by decide) low Nat.toDigits_ne_nil digits]
    omega
  · rw [if_neg negative, read_of_valueFrom? (by decide) high Nat.toDigits_ne_nil digits]
    omega

end Numeral

/-! ### Integers in JSON texts -/

namespace Json

/-- The literal that an integer is written as. -/
def literalOf (n : Int) : NumberLiteral where
  decimal := ⟨n < 0, Nat.toDigits 10 n.natAbs, [], 0⟩
  isInteger := true

theorem spanDigits_toDigits (k : Nat) :
    Decimal.spanDigits (Nat.toDigits 10 k) = (Nat.toDigits 10 k, []) := by
  have digits : ∀ c ∈ Nat.toDigits 10 k, c.isDigit = true := fun c mem =>
    Nat.isDigit_of_mem_toDigits (by decide) (by decide) mem
  rw [Decimal.spanDigits, List.takeWhile_eq_self_iff.2 digits, List.dropWhile_eq_nil_iff.2 digits]

/-- The digits of a positive number do not start with a zero. -/
theorem head?_toDigits {k : Nat} (positive : 0 < k) : (Nat.toDigits 10 k).head? ≠ some '0' := by
  induction k using Nat.strongRecOn with
  | ind k ih =>
      by_cases short : k < 10
      · rw [Nat.toDigits_of_lt_base short]
        intro zero
        have none := Nat.digitChar_eq_zero.1 (Option.some.inj zero)
        omega
      · have shorter := ih (k / 10) (by omega) (by omega)
        obtain ⟨c, cs, digits⟩ :=
          List.exists_cons_of_ne_nil (Nat.toDigits_ne_nil (n := k / 10) (b := 10))
        rw [digits] at shorter
        rw [Nat.toDigits_of_base_le (by decide) (by omega), digits]
        exact shorter

theorem scanWhole_toDigits (k : Nat) :
    scanWhole (Nat.toDigits 10 k) = some (Nat.toDigits 10 k, []) := by
  rcases Nat.eq_zero_or_pos k with rfl | positive
  · rfl
  · have first := head?_toDigits positive
    unfold scanWhole
    split
    · rename_i digits
      rw [digits] at first
      exact absurd rfl first
    · rw [spanDigits_toDigits]
      split
      · rename_i none
        exact absurd (congrArg Prod.fst none) Nat.toDigits_ne_nil
      · rename_i same
        cases same
        rfl

theorem scanUnsigned_toDigits (negative : Bool) (k : Nat) :
    scanUnsigned negative (Nat.toDigits 10 k) =
      some (⟨⟨negative, Nat.toDigits 10 k, [], 0⟩, true⟩, []) := by
  rw [scanUnsigned, scanWhole_toDigits]
  rfl

theorem scanNumber_toString (n : Int) :
    scanNumber (toString n).toList = some (literalOf n, []) := by
  rw [Text.toList_toString]
  by_cases negative : n < 0
  · rw [if_pos negative, literalOf, decide_eq_true negative]
    exact scanUnsigned_toDigits true n.natAbs
  · rw [if_neg negative, literalOf, decide_eq_false negative, ← scanUnsigned_toDigits]
    unfold scanNumber
    split
    · rename_i minus
      have digit : '-' ∈ Nat.toDigits 10 n.natAbs := by simp [minus]
      exact absurd (Nat.isDigit_of_mem_toDigits (by decide) (by decide) digit) (by decide)
    · rfl

/-- Only numbers start with a digit or a minus sign. -/
theorem next?_of_number {c : Char} {cs : List Char} (first : c = '-' ∨ c.isDigit = true) :
    Token.next? c cs =
      (scanNumber (c :: cs)).map fun scanned => (.number scanned.1, scanned.2) := by
  unfold Token.next?
  split
  case h_11 => rfl
  all_goals
    rcases first with minus | digit
    · exact absurd minus (by decide)
    · exact absurd digit (by decide)

theorem tokens?_toString (n : Int) :
    tokens? (toString n).toList = some [.number (literalOf n)] := by
  have scanned := scanNumber_toString n
  cases written : (toString n).toList with
  | nil =>
      rw [written] at scanned
      cases scanned
  | cons c cs =>
      have first : c = '-' ∨ c.isDigit = true :=
        Text.mem_toString (n := n) (by rw [written]; exact List.mem_cons_self ..)
      have visible : isSpace c = false := by
        rcases first with rfl | digit
        · rfl
        · refine Bool.eq_false_iff.2 fun space => ?_
          simp only [isSpace, Bool.or_eq_true, beq_iff_eq] at space
          rcases space with ((rfl | rfl) | rfl) | rfl <;> exact absurd digit (by decide)
      rw [written] at scanned
      have next : Token.next? c cs = some (.number (literalOf n), []) := by
        rw [next?_of_number first, scanned]
        rfl
      rw [tokens?, if_neg (by simp [visible])]
      split
      · rename_i none
        rw [next] at none
        cases none
      · rename_i same
        rw [next] at same
        cases same
        rw [tokens?]
        rfl

theorem read?_toString_eq (n : Int) :
    read? (toString n) = (numberOf? (literalOf n)).map .number := by
  have tree : Written.ofText? (toString n) = some (.number (literalOf n)) := by
    rw [Written.ofText?, tokens?_toString]
    rfl
  rw [read?, tree]
  rfl

theorem digitsValue_toDigits (k : Nat) : Decimal.digitsValue (Nat.toDigits 10 k) = k := by
  have same : ∀ digits, Decimal.digitsValue digits = Nat.ofDigitChars 10 digits 0 := by
    intro digits
    simp only [Decimal.digitsValue, Nat.ofDigitChars_eq_foldl, Nat.mul_comm]
  rw [same, Nat.ofDigitChars_ten_toDigits]

/-- A literal is taken as an integer if it fits in 64 bits, with or without a sign. -/
theorem numberOf?_literalOf (n : Int) :
    numberOf? (literalOf n) =
      if -9223372036854775808 ≤ n ∧ n ≤ 18446744073709551615 then some (.integer n)
      else doubleOf? (literalOf n).decimal := by
  have signed : Bounds.signed 64 = ⟨-9223372036854775808, 9223372036854775807⟩ := by decide
  have unsigned : Bounds.unsigned 64 = ⟨0, 18446744073709551615⟩ := by decide
  simp only [numberOf?, literalOf, digitsValue_toDigits, signed, unsigned, Bounds.contains,
    Bool.not_true, Bool.false_eq_true, if_false, Bool.and_eq_true, decide_eq_true_eq]
  by_cases negative : n < 0
  · have magnitude : -(n.natAbs : Int) = n := by omega
    rw [if_pos negative, magnitude]
    exact if_congr (by omega) rfl rfl
  · have magnitude : (n.natAbs : Int) = n := by omega
    rw [if_neg negative, magnitude]
    exact if_congr (by omega) rfl rfl

/-- The decimal text of an integer is read as the integer, if that fits in 64 bits with a sign. -/
theorem read?_toString {n : Int} (fits : IntWidth.int64.Holds n) :
    read? (toString n) = some (.ofInt n) := by
  simp only [IntWidth.Holds] at fits
  rw [read?_toString_eq, numberOf?_literalOf, if_pos (by omega)]
  rfl

/-- Whatever its size, the decimal text of an integer is read as the integer or as a finite double,
if it is read at all. -/
theorem read?_toString_cases {n : Int} {json : Json} (read : read? (toString n) = some json) :
    json = .ofInt n ∨ ∃ literal : Decimal.Literal, literal.bits < Decimal.infinityBits ∧
      json = .number (.float literal.toDouble) := by
  rw [read?_toString_eq, numberOf?_literalOf] at read
  split at read
  · exact .inl (Option.some.inj read).symm
  · obtain ⟨number, rounded, rfl⟩ := Option.map_eq_some_iff.1 read
    rw [doubleOf?] at rounded
    split at rounded
    · rename_i finite
      cases rounded
      exact .inr ⟨_, finite, rfl⟩
    · cases rounded

end Json

end WireSchema
