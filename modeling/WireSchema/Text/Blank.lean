/-!
# Blanks and lines

Attribute texts are read after dropping the **blanks** around them, and documentation texts are
written line by line. Both work on the list of characters of a text, so that they can be reasoned
about by induction; the `String` forms only wrap them.

* `isBlank` — the Unicode property `White_Space`.
* `trim`, `trimEnd` — drop blanks on both sides, or at the end only.
* `lines` — the lines of a text, without their terminators.
-/

namespace WireSchema.Text

/-! ### Blanks -/

/-- The characters with the Unicode property `White_Space`: the ASCII controls from tab to carriage
return, the space, and the separators and line breaks beyond ASCII. -/
def isBlank (c : Char) : Bool :=
  let n := c.toNat
  (0x09 ≤ n && n ≤ 0x0D) || n == 0x20 || n == 0x85 || n == 0xA0 || n == 0x1680 ||
    (0x2000 ≤ n && n ≤ 0x200A) || n == 0x2028 || n == 0x2029 || n == 0x202F || n == 0x205F ||
    n == 0x3000

/-- Drop the blanks at the end. -/
def dropBlanksRight (cs : List Char) : List Char :=
  (cs.reverse.dropWhile isBlank).reverse

/-- Drop the blanks at both ends. -/
def dropBlanks (cs : List Char) : List Char :=
  dropBlanksRight (cs.dropWhile isBlank)

/-- A text without the blanks at its end. -/
def trimEnd (s : String) : String :=
  String.ofList (dropBlanksRight s.toList)

/-- A text without the blanks at its two ends. -/
def trim (s : String) : String :=
  String.ofList (dropBlanks s.toList)

/-! ### Cutting at a character -/

/-- The text before and after the first `sep`, if there is one. -/
def splitFirst? (sep : Char) : List Char → Option (List Char × List Char)
  | [] => none
  | c :: cs =>
    if c = sep then some ([], cs)
    else (splitFirst? sep cs).map fun (before, after) => (c :: before, after)

/-- The text without its last character, if that is `c`. -/
def dropLast? (c : Char) (cs : List Char) : Option (List Char) :=
  match cs.reverse with
  | d :: before => if d = c then some before.reverse else none
  | [] => none

/-! ### Lines -/

/-- A line ended by a newline loses one carriage return standing directly before it. -/
def dropReturn (line : List Char) : List Char :=
  (dropLast? '\r' line).getD line

/-- The lines of a text. Each newline ends a line; what follows the last newline is a line only
if it is not empty. -/
def linesOf (cs : List Char) : List (List Char) :=
  let pieces := cs.splitOn '\n'
  let ended := pieces.dropLast.map dropReturn
  match pieces.getLast? with
  | none | some [] => ended
  | some rest => ended ++ [rest]

/-- The lines of a text, as texts. -/
def lines (s : String) : List String :=
  (linesOf s.toList).map String.ofList

end WireSchema.Text
