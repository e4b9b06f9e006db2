/-!
# Line comments

Schema documents may carry `//` comments that run to the end of the line. `stripComments` removes
them before the document is read. Two slashes inside a string literal are no comment, so the scan
keeps track of **where** it stands; newlines are kept, and with them the numbers of the lines.
-/

namespace WireSchema.Text

/-- Where the scan for comments stands. -/
inductive CommentScan where
  /-- Outside string literals and comments. -/
  | code
  /-- In a comment, until the next newline. -/
  | comment
  /-- In a string literal. -/
  | literal
  /-- In a string literal, directly after a backslash. -/
  | escape
deriving DecidableEq, Repr

/-- Drop the comments of what follows the position `scan`. -/
def dropComments : CommentScan → List Char → List Char
  | _, [] => []
  | .code, '/' :: '/' :: cs => dropComments .comment cs
  | .code, '"' :: cs => '"' :: dropComments .literal cs
  | .code, c :: cs => c :: dropComments .code cs
  | .comment, '\n' :: cs => '\n' :: dropComments .code cs
  | .comment, _ :: cs => dropComments .comment cs
  | .literal, '\\' :: cs => '\\' :: dropComments .escape cs
  | .literal, '"' :: cs => '"' :: dropComments .code cs
  | .literal, c :: cs => c :: dropComments .literal cs
  | .escape, c :: cs => c :: dropComments .literal cs

/-- A text without its line comments. -/
def stripComments (text : String) : String :=
  String.ofList (dropComments .code text.toList)

end WireSchema.Text
