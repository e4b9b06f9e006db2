import WireSchema.Text.Blank
import WireSchema.Text.Hex

/-!
# UUIDs

A UUID is sixteen bytes. It is written as 32 lower-case digits in the groups 8-4-4-4-12 and read in
four forms: 32 digits without hyphens, the hyphenated form, the hyphenated form in braces, and
behind `urn:uuid:`. Lengths and positions are counted in bytes of the text's UTF-8 form.

A refused text is **diagnosed**: the diagnosis looks for the first character that no form can hold,
then at the number of groups, then at the length of each group.
-/

namespace WireSchema

/-- A universally unique identifier: sixteen bytes. -/
structure Uuid where
  /-- The bytes, most significant first. -/
  bytes : List UInt8
  /-- There are sixteen of them. -/
  length_eq : bytes.length = 16
deriving DecidableEq, Repr

namespace Uuid

/-- The UUID of sixteen zero bytes. -/
def zero : Uuid :=
  ⟨List.replicate 16 0, by simp⟩

/-! ### Writing -/

/-- 32 digits in the groups 8-4-4-4-12. -/
def hyphenate (digits : List Char) : List Char :=
  digits.take 8 ++ '-' :: (digits.drop 8).take 4 ++ '-' :: (digits.drop 12).take 4 ++
    '-' :: (digits.drop 16).take 4 ++ '-' :: digits.drop 20

/-- The hyphenated text of a UUID. -/
def toText (u : Uuid) : String :=
  String.ofList (hyphenate (Hex.encodeChars u.bytes))

/-! ### Diagnosis of a refused text -/

/-- Why a text is not a UUID. -/
inductive Fault where
  /-- The text has a length that no form has. -/
  | length (found : Nat)
  /-- A character is neither a digit nor a hyphen. -/
  | character (c : Char) (position : Nat)
  /-- The number of groups is not five. -/
  | groupCount (found : Nat)
  /-- A group has the wrong length. -/
  | groupLength (group expected found : Nat)
deriving DecidableEq, Repr

/-- The wording of a fault. -/
def Fault.message : Fault → String
  | .length found => "invalid length: found " ++ toString found
  | .character c position =>
    "invalid character: found `" ++ String.singleton c ++ "` at " ++ toString position
  | .groupCount found => "invalid group count: expected 5, found " ++ toString found
  | .groupLength group expected found =>
    "invalid group length in group " ++ toString group ++ ": expected " ++ toString expected ++
      ", found " ++ toString found

/-- How the text under diagnosis is wrapped. -/
inductive Wrapping where
  /-- Not at all, and no hyphen is expected of it. -/
  | bare
  /-- Not at all, and it is known to have the length of the hyphenated form. -/
  | hyphenated
  /-- In braces or behind `urn:uuid:`, which leaves the first digit at `start`. -/
  | wrapped (start : Nat)
deriving DecidableEq, Repr

/-- The position of the first digit. -/
def Wrapping.start : Wrapping → Nat
  | .bare | .hyphenated => 0
  | .wrapped start => start

/-- The offsets of the hyphens of a text that starts at `offset`, or the first character that is
neither a digit nor a hyphen, with its offset. -/
def hyphens (offset : Nat) : List Char → Except (Char × Nat) (List Nat)
  | [] => .ok []
  | c :: cs =>
    if c = '-' then (hyphens (offset + 1) cs).map (offset :: ·)
    else if (Numeral.hexValue? c).isSome then hyphens (offset + 1) cs
    else .error (c, offset)

/-- Compare the hyphens with the ends of the first four groups. `groups` lists what is left to
compare: the number of a group, its first offset and its length. -/
def groupFault? : List Nat → List (Nat × Nat × Nat) → Option Fault
  | offset :: offsets, (group, first, expected) :: groups =>
    if offset = first + expected then groupFault? offsets groups
    else some (.groupLength group expected (offset - first))
  | _, _ => none

/-- Diagnose the characters `inside` of a text of `length` bytes. -/
def diagnoseInside (wrapping : Wrapping) (length : Nat) (inside : List Char) : Fault :=
  match hyphens 0 inside with
  | .error (c, offset) => .character c (wrapping.start + offset)
  | .ok offsets =>
    if wrapping = .bare ∧ offsets = [] then .length length
    else if offsets.length ≠ 4 then .groupCount (offsets.length + 1)
    else
      (groupFault? offsets [(0, 0, 8), (1, 9, 4), (2, 14, 4), (3, 19, 4)]).getD
        (.groupLength 4 12 (length - 24))

/-- The text after `urn:uuid:` in any case. -/
def dropUrn? (cs : List Char) : Option (List Char) :=
  if (cs.take 9).map Char.toLower = "urn:uuid:".toList then some (cs.drop 9) else none

/-- The text inside braces. -/
def dropBraces? : List Char → Option (List Char)
  | c :: cs => if c = '\x7b' then Text.dropLast? '\x7d' cs else none
  | [] => none

/-- Diagnose a text of `length` bytes that has the length and wrapping of none of the hyphenated
forms. -/
def diagnose (length : Nat) (cs : List Char) : Fault :=
  if length = 0 ∨ 45 < length then .length length
  else
    match dropBraces? cs with
    | some inside => diagnoseInside (.wrapped 1) length inside
    | none =>
      match dropUrn? cs with
      | some inside => diagnoseInside (.wrapped 9) length inside
      | none => diagnoseInside .bare length cs

/-! ### Reading -/

/-- The UUID of 32 digits. -/
def ofDigits? (digits : List Char) : Option Uuid :=
  match Hex.decodeFrom 0 (Text.utf8 digits) with
  | .error _ => none
  | .ok bytes => if h : bytes.length = 16 then some ⟨bytes, h⟩ else none

/-- The UUID of 32 digits in the groups 8-4-4-4-12. -/
def ofHyphenated? (cs : List Char) : Option Uuid :=
  let groups := cs.splitOn '-'
  if groups.map List.length = [8, 4, 4, 4, 12] then ofDigits? groups.flatten else none

/-- What must be the hyphenated form in a text of `length` bytes: the text itself or what its
wrapping holds. -/
def hyphenatedPart? (length : Nat) (cs : List Char) : Option (List Char) :=
  if length = 36 then some cs
  else if length = 38 then dropBraces? cs
  else if length = 45 then dropUrn? cs
  else none

/-- Read a UUID in one of its four forms. -/
def read (text : String) : Except Fault Uuid :=
  let cs := text.toList
  let length := Text.utf8Length cs
  match hyphenatedPart? length cs with
  | some part =>
    match ofHyphenated? part with
    | some u => .ok u
    | none => .error (diagnoseInside .hyphenated 36 part)
  | none =>
    match if length = 32 then ofDigits? cs else none with
    | some u => .ok u
    | none => .error (diagnose length cs)

end Uuid

end WireSchema
