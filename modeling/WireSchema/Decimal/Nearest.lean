/-!
# The double nearest to a rational number

A finite double is `m · 2 ^ q` with `m < 2 ^ 53` and `-1074 ≤ q`. `nearestBits` gives the bits of
the double nearest to a quotient of natural numbers, where a tie goes to the even neighbour. All
arithmetic is exact, so decimal texts of any length are rounded once and correctly.
-/

namespace WireSchema.Decimal

/-- The bits of positive infinity; the bits of every finite positive double are below. -/
def infinityBits : Nat := 0x7FF0000000000000

/-- The bit that holds the sign. -/
def signBit : Nat := 0x8000000000000000

/-- The natural number nearest to `num / den`; a tie goes to the even one. -/
def roundHalfEven (num den : Nat) : Nat :=
  let quotient := num / den
  let twice := 2 * (num % den)
  if twice < den then quotient
  else if den < twice then quotient + 1
  else quotient + quotient % 2

/-- `num / den` in units of `2 ^ q`, as a quotient of natural numbers. -/
def inUnits (num den : Nat) (q : Int) : Nat × Nat :=
  if 0 ≤ q then (num, den * Nat.pow 2 q.toNat) else (num * Nat.pow 2 (-q).toNat, den)

/-- The exponent of the unit in which the double nearest to `num / den` counts: it leaves 53 bits
before the point, and is never below that of the least double. -/
def unitExponent (num den : Nat) : Int :=
  let guess := max ((num.log2 : Int) - den.log2 - 53) (-1074)
  let (n, d) := inUnits num den guess
  if n / d < Nat.pow 2 53 then guess else guess + 1

/-- The bits of `m · 2 ^ q`, for a `q` that leaves at most 53 bits to `m`: small doubles count in
the least unit, all others have a leading bit that is not stored. Rounding up to `2 ^ 53` carries
into the exponent, as it should. -/
def bitsOfUnits (m : Nat) (q : Int) : Nat :=
  if m < Nat.pow 2 52 then m
  else (q + 1075).toNat * Nat.pow 2 52 + (m - Nat.pow 2 52)

/-- The bits of the double nearest to `num / den`, for a positive `den`; at least `infinityBits`
if it is beyond all finite doubles. -/
def nearestBits (num den : Nat) : Nat :=
  if num = 0 then 0
  else
    let q := unitExponent num den
    let (n, d) := inUnits num den q
    bitsOfUnits (roundHalfEven n d) q

/-- The bits of the double nearest to `coefficient · 10 ^ exponent`, at least `infinityBits` on
overflow. Where the count of digits already decides between zero and overflow, no power of ten is
computed. -/
def nearestDecimalBits (coefficient : Nat) (exponent : Int) : Nat :=
  let magnitude := exponent + (Nat.toDigits 10 coefficient).length
  if coefficient = 0 ∨ magnitude < -330 then 0
  else if 310 < magnitude then infinityBits
  else if 0 ≤ exponent then nearestBits (coefficient * Nat.pow 10 exponent.toNat) 1
  else nearestBits coefficient (Nat.pow 10 (-exponent).toNat)

/-- The double with the given sign whose magnitude has the given bits, infinity from
`infinityBits` on. -/
def doubleOfBits (negative : Bool) (bits : Nat) : Float :=
  let magnitude := min bits infinityBits
  Float.ofBits (UInt64.ofNat (if negative then signBit + magnitude else magnitude))

/-- The double nearest to an integer. -/
def doubleOfInt (n : Int) : Float :=
  doubleOfBits (n < 0) (nearestBits n.natAbs 1)

end WireSchema.Decimal
