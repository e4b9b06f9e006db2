import Mathlib
import WireSchema.Json.Printer
import WireSchema.Proofs.Numerals

/-!
# Doubles in texts

A double that is written as a default is a text again, and its text is looked at as a numeral. It
has a point or an exponent, so it is never one (`IsDoubleText.not_read`). A decimal that is not too
large gives a finite double (`isFinite_toDouble`): the bits of a double are kept, by a lemma on its
format that the library brings in only as a whole.
-/

namespace WireSchema

namespace Decimal

/-! ### Finite doubles -/

open Float.Model

/-- The bits of a double that is neither infinite nor a NaN are kept. -/
theorem toBits_ofBits {b : UInt64} (finite : b.toNat % signBit < infinityBits) :
    (Float.ofBits b).toBits = b := by
  let bits : BitVec Format.binary64.numBits := b.toBitVec
  have exponent : UnpackedFloat.unpackExponent bits ≠ -1#11 := by
    intro ones
    rw [UnpackedFloat.unpackExponent_def] at ones
    have value := congrArg BitVec.toNat ones
    have whole : bits.toNat = b.toNat := rfl
    rw [BitVec.extractLsb'_toNat, whole, Nat.shiftRight_eq_div_pow] at value
    simp [signBit, infinityBits] at value finite
    omega
  have number : UnpackedFloat.isNaNBits bits = false := decide_eq_false fun nan => exponent nan.1
  have kept := UnpackedFloat.pack_unpack bits
  rw [number] at kept
  exact congrArg UInt64.ofBitVec kept

theorem isFinite_toDouble {literal : Literal} (finite : literal.bits < infinityBits) :
    isFinite literal.toDouble = true := by
  have small : (UInt64.ofNat
      (if literal.negative then signBit + literal.bits else literal.bits)).toNat % signBit <
        infinityBits := by
    rw [UInt64.toNat_ofNat']
    simp only [signBit, infinityBits] at finite ⊢
    split <;> omega
  simp only [Literal.toDouble, doubleOfBits, Nat.min_eq_left finite.le, isFinite,
    decide_eq_true_eq, toBits_ofBits small]
  exact small

/-! ### Texts -/

/-- The characters that the text of a double consists of. -/
def isPart (c : Char) : Bool :=
  c.isDigit || ['.', 'e', '-', '+'].contains c

theorem isPart_of_mem_toDigits {k : Nat} {c : Char} (mem : c ∈ Nat.toDigits 10 k) :
    isPart c = true := by
  rw [isPart, Nat.isDigit_of_mem_toDigits (by decide) (by decide) mem, Bool.true_or]

theorem isPart_of_mem_zeros {count : Nat} {c : Char} (mem : c ∈ List.replicate count '0') :
    isPart c = true := by
  rw [(List.mem_replicate.1 mem).2]
  rfl

/-- A text that can be that of a double: it has a point or an exponent. -/
structure IsDoubleText (cs : List Char) : Prop where
  parts : ∀ c ∈ cs, isPart c = true
  mark : '.' ∈ cs ∨ 'e' ∈ cs

variable {digits cs : List Char}

theorem isDoubleText_positional (each : ∀ c ∈ digits, isPart c = true) (first : Int) :
    IsDoubleText (positional digits first) where
  parts := by
    intro c mem
    unfold positional at mem
    split at mem
    · simp only [List.cons_append, List.mem_cons, List.mem_append] at mem
      rcases mem with rfl | rfl | zero | digit
      · rfl
      · rfl
      · exact isPart_of_mem_zeros zero
      · exact each c digit
    · simp only [List.mem_append, List.mem_cons] at mem
      rcases mem with (digit | zero) | rfl | fraction
      · exact each c (List.mem_of_mem_take digit)
      · exact isPart_of_mem_zeros zero
      · rfl
      · split at fraction
        · rw [List.mem_singleton.1 fraction]
          rfl
        · exact each c (List.mem_of_mem_drop fraction)
  mark := by
    unfold positional
    split <;> simp

theorem isDoubleText_exponential (each : ∀ c ∈ digits, isPart c = true) (first : Int) :
    IsDoubleText (exponential digits first) where
  parts := by
    intro c mem
    simp only [exponential, List.mem_append, List.mem_cons] at mem
    rcases mem with mantissa | rfl | sign | digit
    · split at mantissa
      · rcases List.mem_cons.1 mantissa with leading | others
        · exact each c (leading ▸ List.mem_cons_self ..)
        · rcases List.mem_cons.1 others with rfl | digit
          · rfl
          · exact each c (List.mem_cons_of_mem _ digit)
      · exact each c mantissa
    · rfl
    · rw [sign]
      split <;> rfl
    · exact isPart_of_mem_toDigits digit
  mark := by simp [exponential]

theorem isDoubleText_write (layout : Layout) (s : Scientific) : IsDoubleText (layout.write s) := by
  have each : ∀ c ∈ s.digits.1, isPart c = true := by
    intro c mem
    have kept := List.dropWhile_subset _ (List.mem_reverse.1 mem)
    exact isPart_of_mem_toDigits (List.mem_reverse.1 kept)
  simp only [Layout.write]
  split
  · exact isDoubleText_positional each _
  · exact isDoubleText_exponential each _

theorem IsDoubleText.minus (text : IsDoubleText cs) : IsDoubleText ('-' :: cs) where
  parts := List.forall_mem_cons.2 ⟨rfl, text.parts⟩
  mark := by simpa using text.mark

theorem isDoubleText_writeDouble (layout : Layout) (x : Float) :
    IsDoubleText (layout.writeDouble x) := by
  have magnitude : IsDoubleText (if x.toBits.toNat % signBit = 0 then ['0', '.', '0']
      else layout.write (shortest (x.toBits.toNat % signBit))) := by
    split
    · refine ⟨?_, by simp⟩
      simp only [List.forall_mem_cons]
      exact ⟨rfl, rfl, rfl, by simp⟩
    · exact isDoubleText_write layout _
  simp only [Layout.writeDouble]
  split
  · exact magnitude.minus
  · exact magnitude

theorem IsDoubleText.not_read (text : IsDoubleText cs) {bounds : Bounds} (low : bounds.low ≤ 0)
    (high : 0 ≤ bounds.high) (n : Int) : Numeral.read 10 bounds cs ≠ .ok n := by
  intro run
  have each := Numeral.mem_of_read (by decide) high low run
  rcases text.mark with point | exponent
  · rcases each '.' point with sign | sign | ⟨d, digit⟩
    · exact absurd sign (by decide)
    · exact absurd sign (by decide)
    · cases digit
  · rcases each 'e' exponent with sign | sign | ⟨d, digit⟩
    · exact absurd sign (by decide)
    · exact absurd sign (by decide)
    · cases digit

end Decimal

end WireSchema
