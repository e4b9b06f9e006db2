import WireSchema.Decimal.Nearest

/-!
# Decimal literals

The written form of a decimal number, before it is rounded to a double, and the reader for
**floating-point texts**: an optional sign, then a decimal with digits on at least one side of the
point and an optional exponent, or one of the words for infinity and NaN in any case.
-/

namespace WireSchema.Decimal

/-- The value of a list of decimal digits. -/
def digitsValue (digits : List Char) : Nat :=
  digits.foldl (fun value c => value * 10 + (c.toNat - '0'.toNat)) 0

/-- A decimal as written: digits before and after the point, and an exponent. -/
structure Literal where
  /-- Whether there is a minus sign. -/
  negative : Bool
  /-- The digits before the point. -/
  whole : List Char
  /-- The digits after the point. -/
  fraction : List Char
  /-- The exponent. -/
  exponent : Int
deriving DecidableEq, Repr

/-- The bits of the magnitude of the nearest double, at least `infinityBits` on overflow. -/
def Literal.bits (l : Literal) : Nat :=
  nearestDecimalBits (digitsValue (l.whole ++ l.fraction)) (l.exponent - l.fraction.length)

/-- The nearest double, infinite on overflow. -/
def Literal.toDouble (l : Literal) : Float :=
  doubleOfBits l.negative l.bits

/-- The digits at the start of a text, and the rest. -/
def spanDigits (cs : List Char) : List Char × List Char :=
  (cs.takeWhile Char.isDigit, cs.dropWhile Char.isDigit)

/-! ### Floating-point texts -/

/-- Why a text is not a floating-point number. -/
inductive Fault where
  /-- There is nothing to read. -/
  | empty
  /-- The text has none of the accepted forms. -/
  | invalid
deriving DecidableEq, Repr

/-- The wording of a fault. -/
def Fault.message : Fault → String
  | .empty => "cannot parse float from empty string"
  | .invalid => "invalid float literal"

/-- The exponent of a floating-point text: nothing, or a letter, an optional sign and digits to the
end of the text. -/
def readExponent? : List Char → Option Int
  | [] => some 0
  | c :: cs =>
    if c = 'e' ∨ c = 'E' then
      let (negative, digits) :=
        match cs with
        | '-' :: ds => (true, ds)
        | '+' :: ds => (false, ds)
        | ds => (false, ds)
      if digits.isEmpty ∨ !digits.all Char.isDigit then none
      else some (if negative then -(digitsValue digits : Int) else digitsValue digits)
    else none

/-- An unsigned decimal to the end of the text. -/
def readUnsigned? (negative : Bool) (cs : List Char) : Option Literal :=
  let (whole, rest) := spanDigits cs
  let (fraction, rest) :=
    match rest with
    | '.' :: ds => spanDigits ds
    | ds => ([], ds)
  if whole.isEmpty ∧ fraction.isEmpty then none
  else (readExponent? rest).map fun exponent => ⟨negative, whole, fraction, exponent⟩

/-- Read a floating-point text. Overflow gives an infinity. -/
def readDouble (text : String) : Except Fault Float :=
  match text.toList with
  | [] => .error .empty
  | cs =>
    let (negative, body) :=
      match cs with
      | '-' :: ds => (true, ds)
      | '+' :: ds => (false, ds)
      | ds => (false, ds)
    let word := String.ofList (body.map Char.toLower)
    if word = "inf" ∨ word = "infinity" then .ok (doubleOfBits negative infinityBits)
    else if word = "nan" then .ok (Float.ofBits (UInt64.ofNat (infinityBits + Nat.pow 2 51)))
    else
      match readUnsigned? negative body with
      | some literal => .ok literal.toDouble
      | none => .error .invalid

end WireSchema.Decimal
