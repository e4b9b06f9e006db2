import WireSchema.Decimal.Nearest

/-!
# The shortest decimal of a double

The text of a double has the **fewest digits that read back** as the same double; of the decimals
with that many digits it is the nearest, and a tie goes to the even last digit. The search is plain:
for one digit, two digits, and so on, try the two decimals around the value and keep the first that
reads back.
-/

namespace WireSchema.Decimal

/-- A positive decimal number `coefficient · 10 ^ exponent`. -/
structure Scientific where
  /-- The digits, as a natural number. -/
  coefficient : Nat
  /-- The power of ten of the last digit. -/
  exponent : Int
deriving DecidableEq, Repr

/-- The value of the finite positive double with the given bits, as `m · 2 ^ q`. -/
def unitsOfBits (bits : Nat) : Nat × Int :=
  let stored := bits % Nat.pow 2 52
  let biased := bits / Nat.pow 2 52
  if biased = 0 then (stored, -1074) else (Nat.pow 2 52 + stored, Int.ofNat biased - 1075)

/-- A finite positive double as a quotient of natural numbers. -/
def quotientOfBits (bits : Nat) : Nat × Nat :=
  let (m, q) := unitsOfBits bits
  if 0 ≤ q then (m * Nat.pow 2 q.toNat, 1) else (m, Nat.pow 2 (-q).toNat)

/-- Whether `10 ^ e ≤ num / den`. -/
def powerAtMost (e : Int) (num den : Nat) : Bool :=
  if 0 ≤ e then den * Nat.pow 10 e.toNat ≤ num else den ≤ num * Nat.pow 10 (-e).toNat

/-- The exponent of the first decimal digit of `num / den`, for positive `num` and `den`. The
estimate from the binary logarithms is off by one at most. -/
def leadingExponent (num den : Nat) : Int :=
  let estimate := (((num.log2 : Int) - den.log2) * 30103).fdiv 100000
  if powerAtMost (estimate + 1) num den then estimate + 1
  else if powerAtMost estimate num den then estimate
  else estimate - 1

/-- `num / den` in units of `10 ^ e`, as a quotient of natural numbers. -/
def inPowers (num den : Nat) (e : Int) : Nat × Nat :=
  if 0 ≤ e then (num, den * Nat.pow 10 e.toNat) else (num * Nat.pow 10 (-e).toNat, den)

/-- The shortest decimal among those that count in units of `10 ^ e`: the two neighbours of the
value that read back, the nearer first, and the even one on a tie. -/
def readsBackAt? (bits num den : Nat) (e : Int) : Option Scientific :=
  let (n, d) := inPowers num den e
  let below := n / d
  let twice := 2 * (n % d)
  let candidates :=
    if twice < d ∨ (twice = d ∧ below % 2 = 0) then [below, below + 1] else [below + 1, below]
  (candidates.find? fun c => nearestDecimalBits c e == bits).map fun c => ⟨c, e⟩

/-- Try one more digit while there are digits left to try; seventeen digits always read back. -/
def searchFrom (bits num den : Nat) (e : Int) : Nat → Scientific
  | 0 => ⟨(inPowers num den e).1 / (inPowers num den e).2, e⟩
  | left + 1 =>
    match readsBackAt? bits num den e with
    | some found => found
    | none => searchFrom bits num den (e - 1) left

/-- The shortest decimal that reads back as the finite positive double with the given bits. -/
def shortest (bits : Nat) : Scientific :=
  let (num, den) := quotientOfBits bits
  searchFrom bits num den (leadingExponent num den) 17

/-! ### Text -/

/-- How decimals are laid out. -/
structure Layout where
  /-- The least exponent of the first digit that is written positionally. -/
  positionalFrom : Int
  /-- The greatest exponent of the first digit that is written positionally. -/
  positionalTo : Int

/-- The digits of a decimal without trailing zeros, and the exponent of the first digit. -/
def Scientific.digits (s : Scientific) : List Char × Int :=
  let all := Nat.toDigits 10 s.coefficient
  ((all.reverse.dropWhile (· == '0')).reverse, s.exponent + all.length - 1)

/-- Positional notation with at least one digit on each side of the point. -/
def positional (digits : List Char) (first : Int) : List Char :=
  if first < 0 then
    '0' :: '.' :: List.replicate (-first - 1).toNat '0' ++ digits
  else
    let whole := first.toNat + 1
    let fraction := digits.drop whole
    digits.take whole ++ List.replicate (whole - digits.length) '0' ++
      '.' :: (if fraction.isEmpty then ['0'] else fraction)

/-- One digit before the point, a point only if digits follow, and a signed exponent. -/
def exponential (digits : List Char) (first : Int) : List Char :=
  let mantissa :=
    match digits with
    | d :: rest@(_ :: _) => d :: '.' :: rest
    | ds => ds
  mantissa ++ 'e' :: (if first < 0 then '-' else '+') :: Nat.toDigits 10 first.natAbs

/-- The text of a positive decimal. -/
def Layout.write (layout : Layout) (s : Scientific) : List Char :=
  let (digits, first) := s.digits
  if layout.positionalFrom ≤ first ∧ first ≤ layout.positionalTo then positional digits first
  else exponential digits first

/-- Whether a double is neither infinite nor a NaN. -/
def isFinite (x : Float) : Bool :=
  x.toBits.toNat % signBit < infinityBits

/-- The text of a finite double; a zero keeps its sign. -/
def Layout.writeDouble (layout : Layout) (x : Float) : List Char :=
  let bits := x.toBits.toNat
  let magnitude := bits % signBit
  let text := if magnitude = 0 then ['0', '.', '0'] else layout.write (shortest magnitude)
  if signBit ≤ bits then '-' :: text else text

end WireSchema.Decimal
