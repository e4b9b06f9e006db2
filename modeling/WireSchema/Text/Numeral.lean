/-!
# Integer numerals

An integer is written as an optional sign and one or more digits of a radix. `Numeral.read` checks
the digits from left to right against the bounds of the type that is read, so that of two faults
the one further left is reported.
-/

namespace WireSchema

/-- The integers from `low` to `high`, both included. -/
structure Bounds where
  /-- The least integer. -/
  low : Int
  /-- The greatest integer. -/
  high : Int
deriving DecidableEq, Repr

namespace Bounds

/-- Whether `n` lies within the bounds. -/
def contains (b : Bounds) (n : Int) : Bool :=
  b.low ≤ n && n ≤ b.high

/-- The integers of `bits` bits with a sign. -/
def signed (bits : Nat) : Bounds :=
  ⟨-Int.ofNat (Nat.pow 2 (bits - 1)), Int.ofNat (Nat.pow 2 (bits - 1)) - 1⟩

/-- The integers of `bits` bits without a sign. -/
def unsigned (bits : Nat) : Bounds :=
  ⟨0, Int.ofNat (Nat.pow 2 bits) - 1⟩

theorem signed_32 : signed 32 = ⟨-2147483648, 2147483647⟩ := by decide

theorem signed_64 : signed 64 = ⟨-9223372036854775808, 9223372036854775807⟩ := by decide

end Bounds

namespace Numeral

/-- Why a text is not an integer numeral within bounds. -/
inductive Fault where
  /-- There is nothing to read. -/
  | empty
  /-- A character is not a digit, or there is a sign and nothing after it. -/
  | invalidDigit
  /-- The value exceeds the upper bound. -/
  | tooLarge
  /-- The value is below the lower bound. -/
  | tooSmall
deriving DecidableEq, Repr

/-- The wording of a fault. -/
def Fault.message : Fault → String
  | .empty => "cannot parse integer from empty string"
  | .invalidDigit => "invalid digit found in string"
  | .tooLarge => "number too large to fit in target type"
  | .tooSmall => "number too small to fit in target type"

/-- The value of a digit; letters of either case stand for ten to fifteen. -/
def hexValue? (c : Char) : Option Nat :=
  if '0' ≤ c ∧ c ≤ '9' then some (c.toNat - '0'.toNat)
  else if 'a' ≤ c ∧ c ≤ 'f' then some (c.toNat - 'a'.toNat + 10)
  else if 'A' ≤ c ∧ c ≤ 'F' then some (c.toNat - 'A'.toNat + 10)
  else none

/-- The value of a digit of the given radix (at most sixteen). -/
def digitValue? (radix : Nat) (c : Char) : Option Nat :=
  (hexValue? c).filter (· < radix)

/-- Continue a non-negative numeral whose digits so far have the value `value`. -/
def readUp (radix : Nat) (high : Int) (value : Nat) : List Char → Except Fault Int
  | [] => .ok value
  | c :: cs =>
    match digitValue? radix c with
    | none => .error .invalidDigit
    | some d =>
      if high < ↑(value * radix + d) then .error .tooLarge
      else readUp radix high (value * radix + d) cs

/-- Continue a numeral with a minus sign whose digits so far have the value `value`. -/
def readDown (radix : Nat) (low : Int) (value : Nat) : List Char → Except Fault Int
  | [] => .ok (-value)
  | c :: cs =>
    match digitValue? radix c with
    | none => .error .invalidDigit
    | some d =>
      if -↑(value * radix + d) < low then .error .tooSmall
      else readDown radix low (value * radix + d) cs

/-- Read an integer of the given radix within bounds. -/
def read (radix : Nat) (bounds : Bounds) : List Char → Except Fault Int
  | [] => .error .empty
  | ['+'] => .error .invalidDigit
  | ['-'] => .error .invalidDigit
  | '+' :: cs => readUp radix bounds.high 0 cs
  | '-' :: cs => readDown radix bounds.low 0 cs
  | cs => readUp radix bounds.high 0 cs

end Numeral

end WireSchema
