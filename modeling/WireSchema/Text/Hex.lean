import WireSchema.Text.Numeral

/-!
# Hexadecimal texts of byte strings

Opaque bytes are written as two lower-case digits a byte. Reading accepts digits of both cases and
works on the **bytes** of the text's UTF-8 form, so a fault is reported at a byte position and
names the offending byte.
-/

namespace WireSchema

namespace Text

/-- The UTF-8 bytes of a text. -/
def utf8 (cs : List Char) : List UInt8 :=
  cs.flatMap String.utf8EncodeChar

/-- The number of UTF-8 bytes of a text. -/
def utf8Length : List Char → Nat
  | [] => 0
  | c :: cs => c.utf8Size + utf8Length cs

end Text

namespace Hex

/-! ### Writing -/

/-- The lower-case digit of a value below sixteen. -/
def digit (n : Nat) : Char :=
  if n < 10 then Char.ofNat ('0'.toNat + n) else Char.ofNat ('a'.toNat + (n - 10))

/-- The two digits of a byte, the high half first. -/
def digitsOfByte (b : UInt8) : List Char :=
  [digit (b.toNat / 16), digit (b.toNat % 16)]

/-- The digits of a byte string. -/
def encodeChars (bytes : List UInt8) : List Char :=
  bytes.flatMap digitsOfByte

/-- The text of a byte string. -/
def encode (bytes : List UInt8) : String :=
  String.ofList (encodeChars bytes)

/-- The digits of a number without leading zeros. -/
def ofNat (n : Nat) : String :=
  String.ofList (Nat.toDigits 16 n)

/-! ### Reading -/

/-- Why a text is not the hexadecimal form of a byte string. -/
inductive Fault where
  /-- The number of bytes is odd. -/
  | oddLength
  /-- The byte at a position is not a digit. -/
  | invalidByte (byte : UInt8) (position : Nat)
deriving DecidableEq, Repr

/-- A byte taken as one of the first 256 characters and quoted: the usual escapes, a numbered
escape for what has no visible form, and the character itself otherwise. -/
def quoteByte (b : UInt8) : String :=
  let n := b.toNat
  let inner :=
    if n = 0x00 then "\\0"
    else if n = 0x09 then "\\t"
    else if n = 0x0A then "\\n"
    else if n = 0x0D then "\\r"
    else if n = 0x27 then "\\'"
    else if n = 0x5C then "\\\\"
    else if n < 0x20 ∨ (0x7F ≤ n ∧ n ≤ 0xA0) ∨ n = 0xAD then
      "\\u\x7b" ++ ofNat n ++ "\x7d"
    else String.singleton (Char.ofNat n)
  "'" ++ inner ++ "'"

/-- The wording of a fault. -/
def Fault.message : Fault → String
  | .oddLength => "Odd number of digits"
  | .invalidByte byte position =>
    "Invalid character " ++ quoteByte byte ++ " at position " ++ toString position

/-- The value of a byte that is an ASCII digit. -/
def byteValue? (b : UInt8) : Option Nat :=
  Numeral.hexValue? (Char.ofNat b.toNat)

/-- Read pairs of digits, the first of which stands at `position`. -/
def decodeFrom (position : Nat) : List UInt8 → Except Fault (List UInt8)
  | [] => .ok []
  | [_] => .error .oddLength
  | high :: low :: rest =>
    match byteValue? high with
    | none => .error (.invalidByte high position)
    | some h =>
      match byteValue? low with
      | none => .error (.invalidByte low (position + 1))
      | some l =>
        match decodeFrom (position + 2) rest with
        | .error fault => .error fault
        | .ok bytes => .ok (UInt8.ofNat (16 * h + l) :: bytes)

/-- Read a byte string. An odd length is reported before any byte is looked at. -/
def decode (text : String) : Except Fault (List UInt8) :=
  let bytes := Text.utf8 text.toList
  if bytes.length % 2 = 1 then .error .oddLength else decodeFrom 0 bytes

end Hex

end WireSchema
