import Interposition.Artifact.FileTree
import Interposition.Document.Ini
import Interposition.Document.Json
import Interposition.Document.Json5
import Interposition.Document.Ron
import Interposition.Document.Toml
import Interposition.Document.Yaml
import Interposition.Text.Utf8

/-!
# Interposition.Settings.File — settings files

The ending of a settings file's name tells its format. A file may be named without its ending.
-/

namespace Interposition.Settings

/-! ## Formats -/

inductive FileFormat where
  | toml
  | json
  | yaml
  | ini
  | ron
  | json5
deriving DecidableEq, Repr

def FileFormat.parse? : FileFormat → String → Option Document
  | .toml => Toml.parse?
  | .json => Json.parse?
  | .yaml => Yaml.parse?
  | .ini => Ini.parse?
  | .ron => Ron.parse?
  | .json5 => Json5.parse?

/-- The formats by the endings of names, which follow a dot. -/
def endings : List (String × FileFormat) :=
  [("toml", .toml), ("json", .json), ("yaml", .yaml), ("yml", .yaml), ("ini", .ini),
    ("ron", .ron), ("json5", .json5)]

/-- The format that the name of a file tells. A dot at its front starts no ending. -/
def format? (path : String) : Option FileFormat :=
  (endings.find? fun (ending, _) =>
    let ending := '.' :: ending.toList
    let name := ((Path.parts path).getLast?.getD "").toList
    ending.isSuffixOf name && ending.length < name.length).map Prod.snd

/-! ## Finding a file -/

/-- Whether there is a file at a path. -/
def isFile (tree : FileTree) (path : String) : Bool :=
  match tree.status path with
  | .ok (some (.file _)) => true
  | _ => false

/-- A path without the parts at its end that lead nowhere; none if a name is not what is left at
its end. -/
def stem? (path : String) : Option String :=
  match (Path.parts path).reverse.dropWhile fun part => part = "" || part = "." with
  | [] => none
  | ".." :: _ => none
  | parts => some (String.intercalate "/" parts.reverse)

/-- The paths that a name with each ending stands for. -/
def pathsWithEnding (name : String) : List String :=
  match stem? name with
  | some stem => endings.map fun (ending, _) => stem ++ "." ++ ending
  | none => []

/-- The settings file of a name: the file itself, or else the first file with an ending added. -/
def findFile? (tree : FileTree) (name : String) : Option String :=
  if isFile tree name then some name else (pathsWithEnding name).find? (isFile tree)

/-- The text of a file. -/
def readText? (tree : FileTree) (path : String) : Option String :=
  match tree.read path with
  | .ok (some bytes) => Text.decode? bytes
  | _ => none

/-- The settings file of a name: its format and its text, if both can be told. -/
def readFile? (tree : FileTree) (name : String) : Option (FileFormat × String) := do
  let path ← findFile? tree name
  return (← format? path, ← readText? tree path)

/-- The fields of a settings file. If none can be read there are none, unless it is required; what
is read must be a table. -/
def ofFile? (tree : FileTree) (name : String) (required : Bool) :
    Option (List (String × Document)) :=
  match readFile? tree name with
  | none => if required then none else some []
  | some (format, text) =>
    match format.parse? text with
    | some (.table fields) => some fields
    | _ => none

end Interposition.Settings
