import ScriptHost.CommandLine

/-!
# The program

Reads the files that a script needs, runs it, and writes what it wrote.
-/

namespace ScriptHost
namespace CommandLine

/-- Put a file into a file system if it can be read. -/
def loadFile
    (path : String)
    (files : FileSystem) : IO FileSystem := do
  try
    let content ← IO.FS.readBinFile path
    pure (Files.place path (.file content.toList) files)
  catch _ => pure files

/-- What is around a script now: its own file, the settings next to it and those that the
environment names, and the input. -/
def surroundingsOf (entry : String) : IO Surroundings := do
  let config? ← IO.getEnv Settings.variableName
  let directory := (Path.parent? entry).getD ""
  let names := Settings.fileName :: config?.toList
  let mut files := FileSystem.ofWorkspace "work"
  for path in entry :: names.map (Path.join directory) do
    files ← loadFile path files
  let input ← (← IO.getStdin).readToEnd
  pure {
    files := files
    environment := (config?.map fun path => (Settings.variableName, path)).toList
    input := Utf8.encode input
    script := .empty }

end CommandLine
end ScriptHost

/-- Run the script that the arguments name. -/
def main (arguments : List String) : IO UInt32 := do
  let surroundings ← ScriptHost.CommandLine.surroundingsOf (arguments.head?.getD "")
  let ending := ScriptHost.CommandLine.run surroundings arguments
  IO.print ending.output
  IO.eprint ending.errors
  return ending.code.toUInt32
