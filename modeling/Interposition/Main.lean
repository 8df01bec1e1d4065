import Interposition.Launch.Command

/-!
# Interposition.Main — the command line

Reads the environment and the files that a launch may touch, runs the command on them and
prints what it says.
-/

namespace Interposition.Main

/-- The variables that name the settings file and the log filter, and those that have settings. -/
def variableNames : List String :=
  Settings.fileVariable :: Command.filterVariable ::
    Settings.default.toDocument.fields.flatMap fun (table, settings) =>
      settings.fields.map fun (key, _) => s!"INTERPOSE_{table.toUpper}__{key.toUpper}"

def readVariables : IO Settings.Variables :=
  variableNames.filterMapM fun name => do
    return (← IO.getEnv name).map fun value => (name, value)

/-- Adds the file at a path, if there is one that can be read. -/
def addFile (tree : FileTree) (path : String) : IO FileTree := do
  try return tree.write path (← IO.FS.readBinFile path).data.toList
  catch _ => return tree

/-- Adds what is at a path, with everything below it. -/
partial def addAll (tree : FileTree) (path : String) : IO FileTree := do
  let real ← try some <$> IO.FS.realPath path catch _ => pure none
  match real with
  | none => return tree
  | some real =>
    if ← real.isDir then
      let mut tree := tree.makeDirectory path
      for entry in ← real.readDir do
        tree ← addAll tree (Path.join path entry.fileName)
      return tree
    else addFile tree path

/-- The files that may hold settings. -/
def settingsFiles (vars : Settings.Variables) : List String :=
  let name := (vars.value? Settings.fileVariable).getD Settings.defaultFile
  name :: Settings.pathsWithEnding name

/-- The settings files, and the places where the artifact may be. -/
def readTree (vars : Settings.Variables) : IO FileTree := do
  let tree ← (settingsFiles vars).foldlM addFile .empty
  match Settings.load tree vars with
  | .error _ => return tree
  | .ok settings => settings.searchOrder.foldlM addAll tree

def printLine : Stream × String → IO Unit
  | (.out, line) => IO.println line
  | (.err, line) => IO.eprintln line

end Interposition.Main

open Interposition in
def main : IO UInt32 := do
  let vars ← Main.readVariables
  let result := Command.run (← Main.readTree vars) vars
  for line in result.printed do Main.printLine line
  match result.report with
  | some report => IO.println (Json.render report.toDocument)
  | none => pure ()
  unless result.errors.isEmpty do
    IO.eprintln ("Error: " ++ String.intercalate ": " result.errors)
  return result.status.toUInt32
