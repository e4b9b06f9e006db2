import WireSchema.Decimal.Shortest
import WireSchema.Json.Basic
import WireSchema.Text.Hex

/-!
# Writing JSON texts

Values are written **compactly**, without any blank, or **indented** by two spaces a level. Strings
escape what they must and nothing else, and doubles have the shortest digits that read back.
-/

namespace WireSchema.Json

/-- A double is written positionally if its first digit has an exponent from -5 to 15. -/
def doubleLayout : Decimal.Layout := ⟨-5, 15⟩

/-- A character inside a string literal: quotes, backslashes and control characters are escaped,
with a letter where there is one. -/
def escapeChar (c : Char) : List Char :=
  if c = '"' then ['\\', '"']
  else if c = '\\' then ['\\', '\\']
  else if c = '\x08' then ['\\', 'b']
  else if c = '\x0c' then ['\\', 'f']
  else if c = '\n' then ['\\', 'n']
  else if c = '\r' then ['\\', 'r']
  else if c = '\t' then ['\\', 't']
  else if c.toNat < 0x20 then
    '\\' :: 'u' :: '0' :: '0' :: Hex.digitsOfByte (UInt8.ofNat c.toNat)
  else [c]

/-- A string literal. -/
def quote (s : String) : String :=
  "\"" ++ String.ofList (s.toList.flatMap escapeChar) ++ "\""

/-- The text of a number; a double that is not finite has none and is written as `null`. -/
def writeNumber : Number → String
  | .integer n => toString n
  | .float x =>
    if Decimal.isFinite x then String.ofList (doubleLayout.writeDouble x) else "null"

mutual

/-- The compact text of a value. -/
def compact : Json → String
  | .null => "null"
  | .bool b => if b then "true" else "false"
  | .number n => writeNumber n
  | .string s => quote s
  | .array items => "[" ++ ",".intercalate (compactItems items) ++ "]"
  | .object members => "\x7b" ++ ",".intercalate (compactMembers members) ++ "\x7d"

/-- The compact texts of the items of an array. -/
def compactItems : List Json → List String
  | [] => []
  | item :: items => compact item :: compactItems items

/-- The compact texts of the members of an object. -/
def compactMembers : List (String × Json) → List String
  | [] => []
  | (key, value) :: members => (quote key ++ ":" ++ compact value) :: compactMembers members

end

/-- The start of a line at a level of indentation. -/
def newline (level : Nat) : String :=
  "\n" ++ String.ofList (List.replicate (2 * level) ' ')

/-- A container on lines of its own; an empty one is written as two brackets. -/
def block (level : Nat) (opening closing : String) (texts : List String) : String :=
  match texts with
  | [] => opening ++ closing
  | _ =>
    opening ++ newline (level + 1) ++ ("," ++ newline (level + 1)).intercalate texts ++
      newline level ++ closing

mutual

/-- The indented text of a value at a level. -/
def indented (level : Nat) : Json → String
  | .null => "null"
  | .bool b => if b then "true" else "false"
  | .number n => writeNumber n
  | .string s => quote s
  | .array items => block level "[" "]" (indentedItems (level + 1) items)
  | .object members => block level "\x7b" "\x7d" (indentedMembers (level + 1) members)

/-- The indented texts of the items of an array. -/
def indentedItems (level : Nat) : List Json → List String
  | [] => []
  | item :: items => indented level item :: indentedItems level items

/-- The indented texts of the members of an object. -/
def indentedMembers (level : Nat) : List (String × Json) → List String
  | [] => []
  | (key, value) :: members =>
    (quote key ++ ": " ++ indented level value) :: indentedMembers level members

end

/-- The indented text of a value. -/
def pretty (value : Json) : String :=
  indented 0 value

end WireSchema.Json
