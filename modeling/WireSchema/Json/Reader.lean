import WireSchema.Json.Basic
import WireSchema.Json.Token

/-!
# Reading JSON texts

Reading has two steps. `Written.ofText?` arranges the tokens of a text into a tree in which numbers
and strings are still as written and every member of an object is kept. `Written.value?` then takes
the tree as a value: numbers must fit, strings must be well formed, containers may not nest deeper
than a limit, and of two members with one key the last decides.

The steps are apart because a document may hold parts that are never taken as values: those only
have to be written correctly.
-/

namespace WireSchema.Json

/-- A JSON text as a tree, with numbers and strings as they are written. -/
inductive Written where
  | null
  | bool (b : Bool)
  | number (literal : NumberLiteral)
  | string (pieces : List Piece)
  | array (items : List Written)
  | object (members : List (List Piece × Written))

/-! ### From tokens to a tree

The tokens are read one by one. What has been opened and not yet closed is kept as a stack of
frames, each with the items or members before the current one, the latest first. -/

/-- A container that is still open. -/
inductive Frame where
  /-- An array with the items so far. -/
  | array (items : List Written)
  /-- An object with the members so far and the key of the current one. -/
  | object (members : List (List Piece × Written)) (key : List Piece)

/-- What may come next. -/
inductive Reading where
  /-- A value. -/
  | value (stack : List Frame)
  /-- The first item of an array, or its end. -/
  | firstItem (stack : List Frame)
  /-- A comma and another item, or the end of the array. -/
  | afterItem (items : List Written) (stack : List Frame)
  /-- The first key of an object, or its end. -/
  | firstKey (stack : List Frame)
  /-- A key. -/
  | nextKey (members : List (List Piece × Written)) (stack : List Frame)
  /-- A colon. -/
  | colon (members : List (List Piece × Written)) (key : List Piece) (stack : List Frame)
  /-- A comma and another member, or the end of the object. -/
  | afterMember (members : List (List Piece × Written)) (stack : List Frame)
  /-- Nothing: the text is complete. -/
  | complete (tree : Written)

/-- A value has been read in the innermost open container. -/
def Reading.close (tree : Written) : List Frame → Reading
  | [] => .complete tree
  | .array items :: stack => .afterItem (tree :: items) stack
  | .object members key :: stack => .afterMember ((key, tree) :: members) stack

/-- Read the token that starts a value. -/
def Reading.openValue (stack : List Frame) : Token → Option Reading
  | .null => some (.close .null stack)
  | .bool b => some (.close (.bool b) stack)
  | .number literal => some (.close (.number literal) stack)
  | .string pieces => some (.close (.string pieces) stack)
  | .openArray => some (.firstItem stack)
  | .openObject => some (.firstKey stack)
  | _ => none

/-- Read one token. -/
def Reading.step : Reading → Token → Option Reading
  | .value stack, t => openValue stack t
  | .firstItem stack, .closeArray => some (.close (.array []) stack)
  | .firstItem stack, t => openValue (.array [] :: stack) t
  | .afterItem items stack, .comma => some (.value (.array items :: stack))
  | .afterItem items stack, .closeArray => some (.close (.array items.reverse) stack)
  | .firstKey stack, .closeObject => some (.close (.object []) stack)
  | .firstKey stack, .string key => some (.colon [] key stack)
  | .nextKey members stack, .string key => some (.colon members key stack)
  | .colon members key stack, .colon => some (.value (.object members key :: stack))
  | .afterMember members stack, .comma => some (.nextKey members stack)
  | .afterMember members stack, .closeObject => some (.close (.object members.reverse) stack)
  | _, _ => none

/-- The tree of a text. -/
def Written.ofText? (text : String) : Option Written := do
  let tokens ← tokens? text.toList
  match ← tokens.foldlM Reading.step (.value []) with
  | .complete tree => some tree
  | _ => none

/-! ### From a tree to a value -/

/-- The text of a string literal. A UTF-16 unit outside the surrogates is a character; a high
surrogate must be followed by a low one, and no other surrogate may occur. -/
def textOf? : List Piece → Option (List Char)
  | [] => some []
  | .char c :: rest => (textOf? rest).map (c :: ·)
  | .unit high :: .unit low :: rest =>
    if 0xD800 ≤ high ∧ high ≤ 0xDBFF then
      if 0xDC00 ≤ low ∧ low ≤ 0xDFFF then
        (textOf? rest).map (Char.ofNat (0x10000 + (high - 0xD800) * 0x400 + (low - 0xDC00)) :: ·)
      else none
    else if 0xDC00 ≤ high ∧ high ≤ 0xDFFF then none
    else (textOf? (.unit low :: rest)).map (Char.ofNat high :: ·)
  | .unit u :: rest =>
    if 0xD800 ≤ u ∧ u ≤ 0xDFFF then none else (textOf? rest).map (Char.ofNat u :: ·)

/-- The text of a string literal. -/
def stringOf? (pieces : List Piece) : Option String :=
  (textOf? pieces).map String.ofList

/-- The double of a literal, unless it is too large for one. -/
def doubleOf? (literal : Decimal.Literal) : Option Number :=
  if literal.bits < Decimal.infinityBits then some (.float literal.toDouble) else none

/-- The number of a literal: an integer if it is written as one and fits in 64 bits, with or
without a sign, and a double otherwise. A zero with a minus sign is a double, which keeps the
sign. -/
def numberOf? (literal : NumberLiteral) : Option Number :=
  let magnitude := Decimal.digitsValue literal.decimal.whole
  if !literal.isInteger then doubleOf? literal.decimal
  else if literal.decimal.negative then
    if 0 < magnitude ∧ (Bounds.signed 64).contains (-magnitude) then some (.integer (-magnitude))
    else doubleOf? literal.decimal
  else if (Bounds.unsigned 64).contains magnitude then some (.integer magnitude)
  else doubleOf? literal.decimal

/-- The number of containers that may stand inside each other. -/
def nestingLimit : Nat := 127

mutual

/-- The value of a tree in which at most `limit` containers stand inside each other. -/
def Written.value? (limit : Nat) : Written → Option Json
  | .null => some .null
  | .bool b => some (.bool b)
  | .number literal => (numberOf? literal).map .number
  | .string pieces => (stringOf? pieces).map .string
  | .array items =>
    match limit with
    | 0 => none
    | inner + 1 => (Written.values? inner items).map .array
  | .object members =>
    match limit with
    | 0 => none
    | inner + 1 => (Written.members? inner [] members).map .object

/-- The values of the items of an array. -/
def Written.values? (limit : Nat) : List Written → Option (List Json)
  | [] => some []
  | item :: items =>
    match Written.value? limit item, Written.values? limit items with
    | some value, some values => some (value :: values)
    | _, _ => none

/-- The members of an object, added to those before them. -/
def Written.members? (limit : Nat) (before : List (String × Json)) :
    List (List Piece × Written) → Option (List (String × Json))
  | [] => some before
  | (key, tree) :: members =>
    match stringOf? key, Written.value? limit tree with
    | some name, some value =>
      Written.members? limit (insertMember name value before) members
    | _, _ => none

end

/-- Read a JSON text. -/
def read? (text : String) : Option Json :=
  (Written.ofText? text).bind (Written.value? nestingLimit)

end WireSchema.Json
