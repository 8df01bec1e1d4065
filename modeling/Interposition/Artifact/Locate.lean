import Interposition.Artifact.FileTree
import Interposition.Image.Basic

/-!
# Interposition.Artifact.Locate — finding an artifact

An artifact is a directory of resources. It is looked for at a list of places, in order; the
first directory there is wins. A place that cannot be inspected ends the search.
-/

namespace Interposition

inductive DiscoveryError where
  | notFound (searched : List String)
  | unreadable (path : String) (fault : PathFault)
  | missingEntry (artifact entry : String)
deriving DecidableEq, Repr

namespace DiscoveryError

def message : DiscoveryError → String
  | notFound searched =>
    "no subsystem artifact found (searched: " ++ String.intercalate ", " searched ++ ")"
  | unreadable path _ => s!"cannot inspect artifact location {path}"
  | missingEntry artifact entry => s!"artifact {artifact} has no entry module `{entry}`"

/-- The messages of the errors beneath, outermost first. -/
def causes : DiscoveryError → List String
  | unreadable _ fault => [fault.message]
  | _ => []

end DiscoveryError

instance : Diagnostic DiscoveryError where
  kind
    | .notFound _ => "NotFound"
    | .unreadable .. => "Io"
    | .missingEntry .. => "MissingEntry"
  message := DiscoveryError.message
  causes := DiscoveryError.causes

namespace Artifact

/-- The first of the places, all of which were `searched`, that is a directory. -/
def locateIn (tree : FileTree) (searched : List String) :
    List String → Except DiscoveryError String
  | [] => .error (.notFound searched)
  | path :: rest =>
    match tree.status path with
    | .ok (some .directory) => .ok path
    | .ok _ => locateIn tree searched rest
    | .error fault => .error (.unreadable path fault)

/-- The root of the artifact to use. -/
def locate (tree : FileTree) (places : List String) : Except DiscoveryError String :=
  locateIn tree places places

/-- The artifact has a resource for a module. -/
def ensureEntry (tree : FileTree) (root moduleName : String) : Except DiscoveryError Unit :=
  let path := Path.join root (resourcePath moduleName)
  match tree.status path with
  | .ok (some _) => .ok ()
  | .ok none => .error (.missingEntry root moduleName)
  | .error fault => .error (.unreadable path fault)

end Artifact

end Interposition
