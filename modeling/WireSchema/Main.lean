import WireSchema.CommandLine

/-!
# The program

The commands run on the files of the machine. Nothing is decided here.
-/

namespace WireSchema

/-- The fault that an error of the machine reports. -/
def FileFault.ofError : IO.Error → FileFault
  | .noFileOrDirectory .. => .notFound
  | .inappropriateType _ code _ => if code = 21 then .isDirectory else .notDirectory
  | .alreadyExists .. => .alreadyExists
  | .invalidArgument _ code details => if code = 36 then .nameTooLong else .other details
  | e => .other (toString e)

/-- An operation on the machine, with its error as a fault. -/
def onMachine {α : Type} (operation : IO α) : IO (Except FileFault α) := do
  try
    return .ok (← operation)
  catch e =>
    return .error (FileFault.ofError e)

instance : FileSystem IO where
  isDirectory path := (System.mkFilePath [path.text]).isDir
  fileNames path := onMachine do
    let mut names := []
    for entry in ← (System.mkFilePath [path.text]).readDir do
      unless ← entry.path.isDir do
        names := entry.fileName :: names
    return names
  readText path := do
    match ← onMachine (IO.FS.readBinFile (System.mkFilePath [path.text])) with
    | .error fault => return .error fault
    | .ok bytes =>
      match Entry.ofBytes bytes with
      | .text content => return .ok content
      | _ => return .error .notText
  makeDirectory path := do
    let made ← onMachine (IO.FS.createDir (System.mkFilePath [path.text]))
    if ← (System.mkFilePath [path.text]).isDir then return .ok () else return made
  writeText path content := onMachine (IO.FS.writeFile (System.mkFilePath [path.text]) content)

/-- Print what a command leaves behind, and give its exit code. -/
def finish (outcome : CommandLine.Outcome) : IO UInt32 := do
  IO.print outcome.output
  if let some report := outcome.report? then
    IO.eprintln report
  return outcome.code

end WireSchema

/-- Run the command that the first argument names. -/
def main (arguments : List String) : IO UInt32 := do
  match arguments with
  | "gen" :: rest => WireSchema.finish (← WireSchema.CommandLine.runGenerate rest)
  | "materialize" :: rest => WireSchema.finish (← WireSchema.CommandLine.runMaterialize rest)
  | _ => WireSchema.finish .badUsage
