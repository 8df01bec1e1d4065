import Interposition.Text.Blank

/-!
# Interposition.Artifact.Version — the version stamp of an artifact

The stamp is the first line that is not blank. Its first word is a hash, its second one a
version; what follows is ignored.
-/

namespace Interposition

structure VersionStamp where
  hash : String
  version : String
deriving DecidableEq, Repr

namespace VersionStamp

/-- The resource that holds the stamp. -/
def resource : String := "META-INF/versions.list"

/-- The stamp in the text of the resource. -/
def parse? (text : List Char) : Option VersionStamp :=
  match ((Text.lines text).map Text.words).find? (!·.isEmpty) with
  | some (hash :: version :: _) => some ⟨String.ofList hash, String.ofList version⟩
  | _ => none

/-- The first eight characters of the hash. -/
def shortHash (v : VersionStamp) : String :=
  String.ofList (v.hash.toList.take 8)

def text (v : VersionStamp) : String :=
  s!"{v.version}-{v.shortHash}"

end VersionStamp

end Interposition
