import WireSchema.Backend.Basic
import WireSchema.Text.Casing

/-!
# The Rust backend

Structs are rendered as plain Rust structs with derived serialization. A field is public, has the
snake-case form of its declared name as identifier, and is wrapped in `Option` where it may be null.
The top-level struct of a message also gets the traits that mark its role.
-/

namespace WireSchema.Backend.Rust

/-! ### Identifiers -/

/-- The words that are no identifiers, but can be made ones by a mark in front. -/
def keywords : List String :=
  ["as", "break", "const", "continue", "else", "enum", "extern", "false", "fn", "for", "if", "impl",
    "in", "let", "loop", "match", "mod", "move", "mut", "pub", "ref", "return", "static", "struct",
    "trait", "true", "type", "unsafe", "use", "where", "while", "async", "await", "dyn", "abstract",
    "become", "box", "do", "final", "macro", "override", "priv", "typeof", "unsized", "virtual",
    "yield", "try"]

/-- The words that stand for paths, and cannot be marked. -/
def pathKeywords : List String :=
  ["crate", "self", "Self", "super"]

/-- A name as an identifier: a keyword is marked, or gets an underscore at its end. -/
def escapeKeyword (name : String) : String :=
  if keywords.contains name then "r#" ++ name
  else if pathKeywords.contains name then name ++ "_"
  else name

/-- The identifier of a field. -/
def fieldIdentifier (name : String) : String :=
  escapeKeyword (Text.snakeCase name)

/-! ### Types -/

/-- The symbol for UUIDs. -/
def uuidPath : ImportPath := ⟨"uuid", "Uuid"⟩

/-- The name of an integer type. -/
def intType : IntWidth → String
  | .int8 => "i8"
  | .int16 => "i16"
  | .uint16 => "u16"
  | .int32 => "i32"
  | .uint32 => "u32"
  | .int64 => "i64"

/-- The type for a kind of field, and the symbol that it needs. -/
def typeOf? : FieldType → Option (String × Option ImportPath)
  | .bool => some ("bool", none)
  | .int width => some (intType width, none)
  | .float64 => some ("f64", none)
  | .string => some ("String", none)
  | .bytes | .records => some ("Vec<u8>", none)
  | .uuid => some ("Uuid", some uuidPath)
  | .struct name => some (name, none)
  | .array element => (typeOf? element).map fun (text, path) => ("Vec<" ++ text ++ ">", path)
  | .unsupported _ => none

/-- The trait that marks the role of a message. -/
def marker : MessageRole → String
  | .request => "Request"
  | .response => "Response"
  | .header => "Header"
  | .data | .metadata => "Data"

/-! ### Declarations -/

/-- The name of the backend. -/
def languageName : String := "rust"

/-- The documentation of a field, line by line. -/
def docComment : Option String → String
  | none => ""
  | some about =>
    String.join ((Text.lines about).map fun line => "    /// " ++ Text.trimEnd line ++ "\n")

/-- The lines above a tagged field. -/
def tagComment (field : FieldAt) : String :=
  if field.tagged then
    (match field.tag with
      | some tag => "    // tag " ++ toString tag ++ "\n"
      | none => "") ++ "    #[serde(default)]\n"
  else ""

/-- The lines of a field of the given type. -/
def fieldText (field : FieldAt) (type : String) : String :=
  let type := if field.nullable then "Option<" ++ type ++ ">" else type
  docComment field.about ++ tagComment field ++
    "    pub " ++ fieldIdentifier field.name ++ ": " ++ type ++ ",\n"

/-- The fields of a struct; the first one without a type ends the rendering. -/
def fieldsDeclaration (m : MessageAt) : List FieldAt → Declaration
  | [] => ⟨[], .ok ""⟩
  | field :: fields =>
    match typeOf? field.type with
    | none =>
      ⟨[], .error (.unsupportedType languageName m.name m.version field.name field.type)⟩
    | some (type, path) =>
      let rest := fieldsDeclaration m fields
      ⟨path.toList ++ rest.imports, rest.text.map (fieldText field type ++ ·)⟩

/-- The symbols that every struct needs. -/
def serdePaths : List ImportPath :=
  [⟨"serde", "Serialize"⟩, ⟨"serde", "Deserialize"⟩]

/-- The symbol for tagged fields that the schema does not know. -/
def taggedFieldPath : ImportPath := ⟨"crate::tagged_fields", "RawTaggedField"⟩

/-- The symbols for the traits of the top-level struct. -/
def markerPaths (role : MessageRole) : List ImportPath :=
  [⟨"crate::markers", "ApiMessage"⟩, ⟨"crate::markers", marker role⟩]

/-- The first lines of a struct. -/
def structHead (name : String) : String :=
  "#[derive(Serialize, Deserialize, Debug, Clone, PartialEq, Default)]\n" ++
    "pub struct " ++ name ++ " \x7b\n"

/-- The field for tagged fields that the schema does not know. -/
def unknownTaggedText : String :=
  "    #[serde(default)]\n    pub _unknown_tagged_fields: Vec<RawTaggedField>,\n"

/-- The traits of the top-level struct. -/
def markerText (name : String) (role : MessageRole) : String :=
  "\nimpl ApiMessage for " ++ name ++ " \x7b\x7d\n\nimpl " ++ marker role ++ " for " ++ name ++
    " \x7b\x7d\n"

/-- The declaration of a struct. -/
def structDeclaration (m : MessageAt) (s : StructAt) : Declaration :=
  let fields := fieldsDeclaration m s.fields
  match fields.text with
  | .error e => ⟨serdePaths ++ fields.imports, .error e⟩
  | .ok text =>
    ⟨serdePaths ++ fields.imports ++ (if s.hasUnknownTagged then [taggedFieldPath] else []) ++
        (if s.isTopLevel then markerPaths m.role else []),
      .ok (structHead s.name ++ text ++ (if s.hasUnknownTagged then unknownTaggedText else "") ++
        "\x7d\n" ++ (if s.isTopLevel then markerText s.name m.role else ""))⟩

/-- A test that the top-level struct has a default. -/
def testModule (m : MessageAt) : String :=
  match m.topLevel? with
  | none => ""
  | some top =>
    "#[cfg(test)]\nmod tests \x7b\n    use super::*;\n\n    #[test]\n" ++
      "    fn default_is_constructible() \x7b\n        let _ = " ++ top.name ++
      "::default();\n    \x7d\n\x7d\n"

/-- The line of a manifest for a module. -/
def manifestLine (module : String) : String :=
  "pub mod " ++ escapeKeyword module ++ ";\n"

end Rust

/-- The Rust backend, with or without a test at the end of each unit. -/
def rust (withTests : Bool) : Backend where
  name := Rust.languageName
  fileExtension := "rs"
  declare := Rust.structDeclaration
  scaffold := fun m => if withTests then Rust.testModule m else ""
  manifestFile := "mod.rs"
  manifest := fun modules => String.join (modules.map Rust.manifestLine)

end WireSchema.Backend
