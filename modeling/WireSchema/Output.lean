import WireSchema.Files.Tree
import WireSchema.Manifest
import WireSchema.Schema.Load

/-!
# Generated trees

A run reads the schema documents of a directory and writes, below an output directory, one directory
for each message with one file for each of its versions. Every directory has a manifest.

The run stops at the first failure and leaves what it has written. A failure is a **chain** of
causes, from what was attempted to why it could not be done.
-/

namespace WireSchema

/-! ### Failures -/

/-- A link in the chain of causes of a failure. -/
inductive Link where
  /-- A text. -/
  | text (message : String)
  /-- A fault of the file system. -/
  | file (fault : FileFault)
  /-- A text that is not the JSON that it should be. -/
  | json
deriving DecidableEq, Repr

/-- The wording of a link. -/
def Link.message : Link → String
  | .text message => message
  | .file fault => fault.message
  | .json => "json"

/-- The links of a schema error: its own text, and the cause it has beneath, if any. -/
def SchemaError.links (e : SchemaError) : List Link :=
  .text e.message ::
    match e with
    | .notJson => [.json]
    | .unreadable _ fault => [.file fault]
    | .badRange _ malformed => [.text malformed.message]
    | _ => []

/-- The links of a render error. -/
def RenderError.links : RenderError → List Link
  | .schema e => e.links
  | e => [.text e.message]

/-- Why a run failed. -/
inductive Failure where
  /-- A directory cannot be listed. -/
  | list (path : Path) (fault : FileFault)
  /-- A directory cannot be made. -/
  | makeDirectory (path : Path) (fault : FileFault)
  /-- A unit cannot be written. -/
  | write (path : Path) (fault : FileFault)
  /-- A manifest cannot be written. -/
  | writeManifest (path : Path) (fault : FileFault)
  /-- A schema cannot be loaded. -/
  | load (path : Path) (error : SchemaError)
  /-- A schema cannot be used. -/
  | schema (error : SchemaError)
  /-- A unit cannot be generated. -/
  | generate (message : String) (version : Version) (error : RenderError)
  /-- Two documents give one module. -/
  | sameModule (first second : Path) (module : String)
deriving DecidableEq, Repr

/-- The chain of causes of a failure, the outermost first. -/
def Failure.chain : Failure → List Link
  | .list path fault => [.text ("failed to read " ++ path.text), .file fault]
  | .makeDirectory path fault => [.text ("failed to create " ++ path.text), .file fault]
  | .write path fault => [.text ("failed to write " ++ path.text), .file fault]
  | .writeManifest path fault => [.text ("failed to write manifest " ++ path.text), .file fault]
  | .load path error => .text ("failed to load " ++ path.text) :: error.links
  | .schema error => error.links
  | .generate message version error =>
    .text ("failed to generate " ++ message ++ " version " ++ toString version) :: error.links
  | .sameModule first second module =>
    [.text (first.text ++ " and " ++ second.text ++ " both generate module '" ++ module ++ "'")]

/-! ### Runs -/

section

variable {m : Type → Type} [Monad m] [FileSystem m]

/-- An operation on files, with its fault explained. -/
def attempt {α : Type} (explain : FileFault → Failure) (operation : m (Except FileFault α)) :
    ExceptT Failure m α :=
  ExceptT.mk do
    match ← operation with
    | .ok a => pure (.ok a)
    | .error fault => pure (.error (explain fault))

/-- Load the schema in a file. -/
def loadFile (path : Path) : m (Except SchemaError MessageSpec) := do
  match ← FileSystem.readText path with
  | .error fault => pure (.error (.unreadable path.text fault))
  | .ok text => pure (MessageSpec.load text)

/-- Write the manifest of a directory. -/
def writeManifest (b : Backend) (dir : Path) (modules : List String) : ExceptT Failure m Unit :=
  let path := dir.child b.manifestFile
  attempt (.writeManifest path) (FileSystem.writeText path (Manifest.text b modules))

/-- Write the unit of a version. -/
def writeUnit (b : Backend) (spec : MessageSpec) (r : Registry) (dir : Path) (v : Version) :
    ExceptT Failure m Unit := do
  match b.generate spec r v with
  | .error e => throw (.generate spec.name v e)
  | .ok text =>
    let path := dir.child (b.unitFile v)
    attempt (.write path) (FileSystem.writeText path text)

/-- Check a message before anything is written for it, and collect its structs. -/
def prepare (spec : MessageSpec) : Except SchemaError Registry := do
  spec.checkVersion spec.validVersions.lowest
  Registry.ofMessage spec

/-- The name of the module of a version. -/
def versionModule (v : Version) : String :=
  "v" ++ toString v

/-- Write all versions of a message below `output`, and give the name of its module. -/
def generateMessage (b : Backend) (spec : MessageSpec) (output : Path) :
    ExceptT Failure m String := do
  match prepare spec with
  | .error e => throw (.schema e)
  | .ok r =>
    let dir := output.child spec.moduleName
    attempt (.makeDirectory dir) (FileSystem.makeDirectories dir)
    spec.validVersions.toList.forM (writeUnit b spec r dir)
    writeManifest b dir (spec.validVersions.toList.map versionModule)
    pure spec.moduleName

/-- Whether a text may stand before another in ascending order. -/
def ascending (a b : String) : Bool :=
  !(b < a)

/-- The schema documents of a directory: the files with the extension `json`, in ascending
order. -/
def schemaFiles (input : Path) : ExceptT Failure m (List Path) := do
  let names ← attempt (.list input) (FileSystem.fileNames input)
  let documents := names.filter fun name => Path.extension? name = some "json"
  pure ((documents.mergeSort ascending).map input.child)

/-- Generate the messages of some documents, after those in `written`. -/
def generateFiles (b : Backend) (output : Path) (written : List (String × Path)) :
    List Path → ExceptT Failure m (List (String × Path))
  | [] => pure written
  | file :: files => do
    match ← ExceptT.lift (loadFile file) with
    | .error e => throw (.load file e)
    | .ok spec =>
      let module ← generateMessage b spec output
      match written.lookup module with
      | some earlier => throw (.sameModule earlier file module)
      | none => generateFiles b output (written ++ [(module, file)]) files

/-- Generate all messages of a directory, and give the names of their modules in ascending
order. -/
def generateAll (b : Backend) (input output : Path) : ExceptT Failure m (List String) := do
  attempt (.makeDirectory output) (FileSystem.makeDirectories output)
  let files ← schemaFiles input
  let written ← generateFiles b output [] files
  let names := (written.map (·.1)).mergeSort ascending
  writeManifest b output names
  pure names

end

end WireSchema
