/-!
# Casing of identifiers

Declared names are written in **Pascal case** (`ThrottleTimeMs`), generated identifiers and fixture
keys in **snake case** (`throttle_time_ms`). Only ASCII letters have case here; every other
character is carried over.
-/

namespace WireSchema.Text

/-- Whether a capital directly after `previous` opens a new word: it does unless it is the first
character, or follows another capital (`KRaft` is one word) or an underscore. -/
def opensWord : Option Char → Bool
  | none => false
  | some previous => !previous.isUpper && previous != '_'

/-- Snake case of the characters that follow `previous`. -/
def snakeAfter (previous : Option Char) : List Char → List Char
  | [] => []
  | c :: cs =>
    if c.isUpper then
      if opensWord previous then '_' :: c.toLower :: snakeAfter (some c) cs
      else c.toLower :: snakeAfter (some c) cs
    else c :: snakeAfter (some c) cs

/-- Snake case: capitals become small letters, with an underscore before each that opens a
word. -/
def snakeCase (name : String) : String :=
  String.ofList (snakeAfter none name.toList)

/-- A word with its first letter capital and all others small. -/
def capitalize (word : List Char) : List Char :=
  match word.map Char.toLower with
  | [] => []
  | c :: cs => c.toUpper :: cs

/-- Pascal case: the words between underscores, each capitalized, without the underscores. -/
def pascalCase (name : String) : String :=
  String.ofList ((name.toList.splitOn '_').flatMap capitalize)

end WireSchema.Text
