import WireSchema.Backend.Rust
import WireSchema.Fixture.Materialize
import WireSchema.Json.Printer
import WireSchema.Json.Reader
import WireSchema.Output

/-!
# The command line

There are two commands. `generate` writes the modules of a directory of schemas, `materialize`
prints the instance of a fixture. The arguments of a command are options only. A value stands in the
argument after its option or behind `=`; behind a short option it may also stand directly. Short
options may share one hyphen. No option may be given twice.

A command ends with an exit code: 0, or 1 for a failure, or 2 for arguments that are not understood.
-/

namespace WireSchema.CommandLine

/-! ### Arguments -/

/-- An option that a command understands. -/
structure Flag where
  /-- The long form, without its hyphens. -/
  long : String
  /-- The short form, if there is one. -/
  short : Option Char
  /-- Whether the option has a value. -/
  hasValue : Bool
deriving DecidableEq, Repr

/-- An option as given: its long form and its value, which is empty if it has none. -/
abbrev Setting := String × String

/-- What one argument gives: settings, and the option whose value the next argument is. -/
structure Reading where
  /-- The options given. -/
  settings : List Setting
  /-- The option that waits for its value. -/
  waiting : Option Flag
deriving DecidableEq, Repr

/-- Read a long option, without its hyphens. -/
def readLong (flags : List Flag) (cs : List Char) : Option Reading :=
  match Text.splitFirst? '=' cs with
  | none => do
    let flag ← flags.find? fun f => f.long.toList = cs
    if flag.hasValue then some ⟨[], some flag⟩ else some ⟨[(flag.long, "")], none⟩
  | some (name, value) => do
    let flag ← flags.find? fun f => f.long.toList = name
    if flag.hasValue then some ⟨[(flag.long, String.ofList value)], none⟩ else none

/-- Read short options that share a hyphen. The rest behind one with a value is its value. -/
def readShort (flags : List Flag) : List Char → Option Reading
  | [] => some ⟨[], none⟩
  | c :: cs => do
    let flag ← flags.find? fun f => f.short = some c
    if flag.hasValue then
      match cs with
      | [] => some ⟨[], some flag⟩
      | '=' :: value => some ⟨[(flag.long, String.ofList value)], none⟩
      | value => some ⟨[(flag.long, String.ofList value)], none⟩
    else
      let later ← readShort flags cs
      some { later with settings := (flag.long, "") :: later.settings }

/-- Read an argument that is not the value of an option. -/
def readArgument (flags : List Flag) (argument : String) : Option Reading :=
  match argument.toList with
  | '-' :: '-' :: cs => readLong flags cs
  | '-' :: c :: cs => readShort flags (c :: cs)
  | _ => none

/-- Whether an argument can be the value of the option before it. A lone hyphen can. -/
def isValue (argument : String) : Bool :=
  match argument.toList with
  | '-' :: _ :: _ => false
  | _ => true

/-- Read the arguments of a command. Nothing may follow the argument that ends the options. -/
def readArguments (flags : List Flag) : List String → Option (List Setting)
  | [] => some []
  | argument :: rest =>
    if argument = "--" then
      if rest.isEmpty then some [] else none
    else
      match readArgument flags argument with
      | none => none
      | some ⟨settings, none⟩ => (settings ++ ·) <$> readArguments flags rest
      | some ⟨settings, some flag⟩ =>
        match rest with
        | [] => none
        | value :: rest =>
          if isValue value then
            (settings ++ (flag.long, value) :: ·) <$> readArguments flags rest
          else none

/-- The settings of a command; no option may be given twice. -/
def readSettings (flags : List Flag) (arguments : List String) : Option (List Setting) := do
  let settings ← readArguments flags arguments
  if (settings.map (·.1)).Nodup then some settings else none

/-- Whether an option is given. -/
def isGiven (settings : List Setting) (long : String) : Bool :=
  (settings.lookup long).isSome

/-- The path that an option gives; it may not be empty. -/
def path? (settings : List Setting) (long : String) : Option Path := do
  let text ← settings.lookup long
  if text = "" then none else some ⟨text⟩

/-- The version that an option gives. -/
def version? (settings : List Setting) (long : String) : Option Version := do
  let text ← settings.lookup long
  (Numeral.read 10 Version.bounds text.toList).toOption

/-! ### Outcomes -/

/-- What a command leaves behind, apart from files. -/
structure Outcome where
  /-- The exit code. -/
  code : UInt32
  /-- What is printed. -/
  output : String
  /-- The causes of a failure, the outermost first. -/
  causes : List Link
deriving DecidableEq, Repr

namespace Outcome

/-- Success. -/
def success (output : String) : Outcome := ⟨0, output, []⟩

/-- Failure. -/
def failure (causes : List Link) : Outcome := ⟨1, "", causes⟩

/-- Arguments that are not understood. -/
def badUsage : Outcome := ⟨2, "", []⟩

/-- The causes beneath the outermost one, numbered if there are several. -/
def causeLines : List Link → List String
  | [] => []
  | [cause] => ["", "Caused by:", "    " ++ cause.message]
  | causes =>
    "" :: "Caused by:" ::
      causes.zipIdx.map fun (cause, n) => "    " ++ toString n ++ ": " ++ cause.message

/-- The report of a failure: what failed, and why. -/
def report? (o : Outcome) : Option String :=
  match o.causes with
  | [] => none
  | outermost :: beneath =>
    some ("\n".intercalate (("Error: " ++ outermost.message) :: causeLines beneath))

/-- The line that says what failed, which is the first line of the report. -/
def errorLine? (o : Outcome) : Option String :=
  o.report?.bind fun report => (Text.lines report).head?

end Outcome

/-! ### Generating -/

/-- What to generate. -/
structure Generate where
  /-- The directory of the schemas. -/
  input : Path
  /-- The directory to write to. -/
  output : Path
  /-- Whether the generated files have tests. -/
  withTests : Bool
deriving DecidableEq, Repr

/-- The options of `generate`. -/
def Generate.flags : List Flag :=
  [⟨"input", some 'i', true⟩,
   ⟨"output", some 'o', true⟩,
   ⟨"verbose", some 'v', false⟩,
   ⟨"no-test-scaffold", none, false⟩]

/-- Read the arguments of `generate`. -/
def Generate.read (arguments : List String) : Option Generate := do
  let settings ← readSettings Generate.flags arguments
  let input ← path? settings "input"
  let output ← path? settings "output"
  some ⟨input, output, !isGiven settings "no-test-scaffold"⟩

/-! ### Materializing -/

/-- What to materialize. -/
structure Materialize where
  /-- The file of the schema. -/
  schema : Path
  /-- The version. -/
  version : Version
  /-- The file of the fixture. -/
  fixture : Path
  /-- Whether the output is indented. -/
  indented : Bool
deriving DecidableEq, Repr

/-- The options of `materialize`. -/
def Materialize.flags : List Flag :=
  [⟨"schema", some 's', true⟩,
   ⟨"version", some 'V', true⟩,
   ⟨"fixture", some 'f', true⟩,
   ⟨"pretty", some 'p', false⟩,
   ⟨"verbose", some 'v', false⟩]

/-- Read the arguments of `materialize`. -/
def Materialize.read (arguments : List String) : Option Materialize := do
  let settings ← readSettings Materialize.flags arguments
  let schema ← path? settings "schema"
  let version ← version? settings "version"
  let fixture ← path? settings "fixture"
  some ⟨schema, version, fixture, isGiven settings "pretty"⟩

/-- The links of a fixture error. -/
def fixtureLinks : FixtureError → List Link
  | .schema e => e.links
  | e => [.text e.message]

/-- The text of the instance of a fixture, once the files are read. -/
def Materialize.print (c : Materialize) (message : MessageSpec) (r : Registry) (text : String) :
    Except (List Link) String := do
  let some fixture := Json.read? text
    | .error [.text ("fixture " ++ c.fixture.text ++ " is not valid JSON"), .json]
  let materializer ← (Materializer.new message r c.version).mapError fixtureLinks
  let result ← (materializer.materializeRoot fixture).mapError fun e =>
    .text ("failed to materialize " ++ message.name ++ " at version " ++ toString c.version)
      :: fixtureLinks e
  let json := result.toJson
  .ok ((if c.indented then json.pretty else json.compact) ++ "\n")

/-! ### Running -/

section

variable {m : Type → Type} [Monad m] [FileSystem m]

/-- Run `generate`. -/
def Generate.run (c : Generate) : m Outcome := do
  if ← FileSystem.isDirectory c.input then
    match ← (generateAll (Backend.rust c.withTests) c.input c.output).run with
    | .ok _ => pure (.success "")
    | .error failure =>
      pure (.failure
        (.text ("code generation from " ++ c.input.text ++ " failed") :: failure.chain))
  else
    pure (.failure [.text ("input path " ++ c.input.text ++ " is not a directory")])

/-- Run `materialize`. -/
def Materialize.run (c : Materialize) : m Outcome := do
  match ← loadFile c.schema with
  | .error e => pure (.failure (.text ("failed to load schema " ++ c.schema.text) :: e.links))
  | .ok message =>
    match Registry.ofMessage message with
    | .error e => pure (.failure e.links)
    | .ok r =>
      match ← FileSystem.readText c.fixture with
      | .error fault =>
        pure (.failure [.text ("failed to read fixture " ++ c.fixture.text), .file fault])
      | .ok text =>
        match c.print message r text with
        | .ok output => pure (.success output)
        | .error causes => pure (.failure causes)

/-- Run `generate` with the given arguments. -/
def runGenerate (arguments : List String) : m Outcome :=
  match Generate.read arguments with
  | none => pure .badUsage
  | some c => c.run

/-- Run `materialize` with the given arguments. -/
def runMaterialize (arguments : List String) : m Outcome :=
  match Materialize.read arguments with
  | none => pure .badUsage
  | some c => c.run

end

end WireSchema.CommandLine
