import WireSchema.AtVersion
import WireSchema.Imports

/-!
# Backends

A **backend** renders structs of one version in a target language. It decides nothing about which
structs and fields there are: that is settled before it is asked (`WireSchema.AtVersion`).

Rendering a struct gives a `Declaration`: the symbols it needs and its text. A field that cannot be
rendered leaves the symbols needed up to that field.
-/

namespace WireSchema

/-- Why a unit cannot be rendered. -/
inductive RenderError where
  /-- The schema is at fault. -/
  | schema (error : SchemaError)
  /-- The backend has no form for the type of a field. -/
  | unsupportedType (backend message : String) (version : Version) (field : String)
      (type : FieldType)
  /-- An import path has no module or no symbol. -/
  | malformedImport (path : String)
deriving DecidableEq, Repr

/-- The wording of a render error. -/
def RenderError.message : RenderError → String
  | .schema error => error.message
  | .unsupportedType backend owner version field type =>
    backend ++ " backend cannot render field '" ++ field ++ "' of kind '" ++ type.toText ++ "' (" ++
      owner ++ " v" ++ toString version ++ ")"
  | .malformedImport path => "malformed import '" ++ path ++ "': expected 'module::Symbol'"

/-- Add an import path given as a text. -/
def Imports.add (i : Imports) (path : String) : Except RenderError Imports :=
  match ImportPath.read? path with
  | none => .error (.malformedImport path)
  | some path => .ok (i.insert path)

/-- A rendered struct. -/
structure Declaration where
  /-- The symbols it needs; on failure, those needed before the fault. -/
  imports : List ImportPath
  /-- Its text. -/
  text : Except RenderError String

/-- A target language. -/
structure Backend where
  /-- The name of the language. -/
  name : String
  /-- The extension of the files that hold a unit. -/
  fileExtension : String
  /-- Render a struct of a message. -/
  declare : MessageAt → StructAt → Declaration
  /-- Render the imports of a unit. -/
  header : Imports → String := Imports.toText
  /-- What is added at the end of a unit. -/
  scaffold : MessageAt → String := fun _ => ""
  /-- The file that lists the modules of a directory. -/
  manifestFile : String
  /-- The content of that file. -/
  manifest : List String → String

namespace Backend

/-- The file that holds the unit of a version. -/
def unitFile (b : Backend) (v : Version) : String :=
  "v" ++ toString v ++ "." ++ b.fileExtension

/-- Render structs in order, collecting what they import. The first failure ends it. -/
def declareAll (b : Backend) (m : MessageAt) (imports : Imports) :
    List StructAt → Except RenderError (Imports × List String)
  | [] => .ok (imports, [])
  | struct :: structs => do
    let declaration := b.declare m struct
    let text ← declaration.text
    let (imports, texts) ← b.declareAll m (imports.insertAll declaration.imports) structs
    .ok (imports, text :: texts)

/-- The text of a unit: the imports, the declarations in order, and the scaffold, with a newline
between each two. Imports and scaffold are left out if they are empty. -/
def unitText (b : Backend) (m : MessageAt) : Except RenderError String := do
  let (imports, declarations) ← b.declareAll m .empty m.structs
  let header := b.header imports
  let scaffold := b.scaffold m
  .ok ("\n".intercalate
    ((if header = "" then [] else [header]) ++ declarations ++
      (if scaffold = "" then [] else [scaffold])))

/-- The unit of a message at a version. -/
def generate (b : Backend) (m : MessageSpec) (r : Registry) (v : Version) :
    Except RenderError String :=
  match m.atVersion r v with
  | .error e => .error (.schema e)
  | .ok view => b.unitText view

end Backend

end WireSchema
