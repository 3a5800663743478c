import Stratagem.Command.Run

/-!
# The program

Reads the settings and the files that the command line names, runs it, and writes what its report holds.
-/

namespace Stratagem

def readText? (path : String) : IO (Option String) :=
  try (some ∘ Text.inward) <$> IO.FS.readFile (Text.outward path) catch _ => return none

def readSettings : IO (Except Failure Settings) := do
  let environment ← Settings.names.filterMapM fun name => do
    return (← IO.getEnv name).map fun value => (name, Text.inward value)
  let file := (← readText? ".env").getD ""
  return Settings.ofEnvironment (Settings.withFile environment file)

def readFiles (command? : Option Command) : IO Files := do
  let paths := command?.elim [] Command.inputs
  paths.filterMapM fun path => do
    return (← readText? path).map fun text => (Files.joined (Files.parts path), text)

/-- Writes a text, making the folders that its path names. -/
def writeText (path text : String) : IO Unit := do
  let path := Text.outward path
  let folders := (path.splitOn "/").dropLast
  unless folders.isEmpty do IO.FS.createDirAll ("/".intercalate folders)
  IO.FS.writeFile path (Text.outward text)

/-- The rank from which on entries of the journal are told. -/
def toldRank (invocation : Except Refusal Invocation) (settings : Except Failure Settings) : Nat :=
  match invocation, settings with
  | .ok i, .ok s => (Journal.Level.threshold (i.levelName s)).toOption.getD 0
  | _, _ => 0

def run (line : List String) : IO UInt32 := do
  let settings ← readSettings
  let invocation := Invocation.ofArguments line
  let files ← readFiles (invocation.toOption.bind (·.command?))
  let (result, journal) := (Invocation.runLine line settings files).run.run []
  for entry in journal do
    if !entry.errors && toldRank invocation settings ≤ entry.level.rank then
      IO.eprintln (Text.outward (entry.colouredLine.toOption.getD entry.text))
  match result with
  | .error f =>
    IO.eprintln (Text.outward f.message)
    return 1
  | .ok report =>
    for (path, text) in report.written do writeText path text
    for text in report.printed do IO.println (Text.outward text)
    return report.exit.toUInt32

end Stratagem

def main (line : List String) : IO UInt32 :=
  Stratagem.run (line.map Stratagem.Text.inward)
