import WireSchema.Text.Numeral

/-!
# JSON values

The values that fixtures and declared defaults are made of. Objects keep the **order** of their
members: the order in which a fixture writes its keys decides which of two faults is reported, and
the order in which an instance holds its fields is the order in which they are written.
-/

namespace WireSchema

/-- A JSON number: an integer that was written as one and fits in 64 bits, or a double. -/
inductive Number where
  /-- An integer. -/
  | integer (n : Int)
  /-- A double. -/
  | float (x : Float)

/-- A JSON value. -/
inductive Json where
  /-- The value `null`. -/
  | null
  /-- A truth value. -/
  | bool (b : Bool)
  /-- A number. -/
  | number (n : Number)
  /-- A text. -/
  | string (s : String)
  /-- A sequence. -/
  | array (items : List Json)
  /-- Members in order. -/
  | object (members : List (String × Json))

namespace Json

instance : Inhabited Json := ⟨.null⟩

/-- The kind of a value, as named in error texts. -/
inductive Kind where
  | null
  | boolean
  | number
  | string
  | array
  | object
deriving DecidableEq, Repr

/-- The wording of a kind. -/
def Kind.text : Kind → String
  | .null => "null"
  | .boolean => "a boolean"
  | .number => "a number"
  | .string => "a string"
  | .array => "an array"
  | .object => "an object"

/-- The kind of a value. -/
def kind : Json → Kind
  | .null => .null
  | .bool _ => .boolean
  | .number _ => .number
  | .string _ => .string
  | .array _ => .array
  | .object _ => .object

/-- An integer as a value. -/
def ofInt (n : Int) : Json :=
  .number (.integer n)

/-- The integer a value holds, if it is one that fits in 64 bits with a sign. -/
def integer? : Json → Option Int
  | .number (.integer n) => if (Bounds.signed 64).contains n then some n else none
  | _ => none

/-- The member of an object with the given key. -/
def member? (key : String) : Json → Option Json
  | .object members => members.lookup key
  | _ => none

/-- Add a member to an object. A key that is already there keeps its place and takes the new
value. -/
def insertMember (key : String) (value : Json) : List (String × Json) → List (String × Json)
  | [] => [(key, value)]
  | (k, v) :: members =>
    if k = key then (k, value) :: members else (k, v) :: insertMember key value members

end Json

end WireSchema
