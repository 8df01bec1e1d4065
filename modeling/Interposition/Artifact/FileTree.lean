/-!
# Interposition.Artifact.FileTree — directories and files

A tree of directories and files below a working directory, and the answers a file system gives
about a path in it: what is there, nothing, or that the question itself fails. A path is text
with slashes; it is walked from left to right, so the first part that is missing or cannot be
entered decides.
-/

namespace Interposition

/-! ## Faults -/

/-- Why a path cannot be followed or read. -/
inductive PathFault where
  | notADirectory
  | isADirectory
  | nameTooLong
  | nulByte
deriving DecidableEq, Repr

def PathFault.message : PathFault → String
  | .notADirectory => "Not a directory (os error 20)"
  | .isADirectory => "Is a directory (os error 21)"
  | .nameTooLong => "File name too long (os error 36)"
  | .nulByte => "file name contained an unexpected NUL byte"

/-! ## Paths -/

namespace Path

/-- The parts of a path between slashes. Some may be empty. -/
def parts (path : String) : List String :=
  path.splitToList (· = '/')

def isAbsolute (path : String) : Bool :=
  path.toList.head? = some '/'

/-- A path below a directory. An absolute path stands for itself. -/
def join (directory path : String) : String :=
  if isAbsolute path || directory.isEmpty then path
  else if directory.toList.getLast? = some '/' then directory ++ path
  else directory ++ "/" ++ path

/-- Whether a path only ever leads downwards: it is relative, does not start with a dot part
and has no part that goes up. -/
def isDownward (path : String) : Bool :=
  !isAbsolute path && (parts path).head? ≠ some "." && !(parts path).contains ".."

end Path

/-! ## Trees -/

inductive Node where
  | directory
  | file (bytes : List UInt8)
deriving DecidableEq

/-- What is at each place, latest first. A place is the list of names that lead to it from the
working directory, which is the empty place. The places of absolute paths start with the name
of the top directory, a slash. -/
structure FileTree where
  nodes : List (List String × Node)

namespace FileTree

def empty : FileTree := ⟨[]⟩

/-- The place of the top directory. -/
def top : List String := ["/"]

/-- What is at a place. -/
def node? (t : FileTree) : List String → Option Node
  | [] => some .directory
  | place => t.nodes.lookup place

/-- The place of a path that goes down only. -/
def place (path : String) : List String :=
  (if Path.isAbsolute path then top else []) ++
    (Path.parts path).filter fun part => part ≠ "" && part ≠ "."

/-- Makes directories along a place that has been entered up to `entered`. -/
def makeFrom (t : FileTree) (entered : List String) : List String → FileTree
  | [] => t
  | name :: rest =>
    let here := entered ++ [name]
    let t := if (t.node? here).isSome then t else ⟨(here, .directory) :: t.nodes⟩
    t.makeFrom here rest

/-- Makes a directory and those above it. -/
def makeDirectory (t : FileTree) (path : String) : FileTree :=
  t.makeFrom [] (place path)

/-- Writes a file, making the directories above it. -/
def write (t : FileTree) (path : String) (bytes : List UInt8) : FileTree :=
  let target := place path
  let t := t.makeFrom [] target.dropLast
  ⟨(target, .file bytes) :: t.nodes⟩

/-- Longest name and longest path, in bytes. -/
def maxName : Nat := 255

def maxPath : Nat := 4095

/-- Follows the parts of a path from a directory. `above` counts how far the walk is above the
working directory, where nothing is known to be. -/
def walk (t : FileTree) (above : Nat) (here : List String) :
    List String → Except PathFault (Option Node)
  | [] => .ok (some .directory)
  | part :: rest =>
    if part = "" ∨ part = "." then t.walk above here rest
    else if part = ".." then
      if here.isEmpty then t.walk (above + 1) [] rest
      -- The top directory is above itself.
      else if here = top then t.walk above here rest
      else t.walk above here.dropLast rest
    else if maxName < part.utf8ByteSize then .error .nameTooLong
    else if 0 < above then .ok none
    else
      match t.node? (here ++ [part]) with
      | none => .ok none
      | some .directory => t.walk above (here ++ [part]) rest
      | some (.file bytes) =>
        -- A slash after the name of a file asks for a directory.
        if rest.isEmpty then .ok (some (.file bytes)) else .error .notADirectory

/-- What is at a path. -/
def status (t : FileTree) (path : String) : Except PathFault (Option Node) :=
  if path.toList.contains '\x00' then .error .nulByte
  else if maxPath < path.utf8ByteSize then .error .nameTooLong
  else if path.isEmpty then .ok none
  else if Path.isAbsolute path then
    if (t.node? top).isSome then t.walk 0 top (Path.parts path) else .ok none
  else t.walk 0 [] (Path.parts path)

/-- The bytes of the file at a path; nothing if there is no such file. -/
def read (t : FileTree) (path : String) : Except PathFault (Option (List UInt8)) :=
  match t.status path with
  | .error fault => .error fault
  | .ok none => .ok none
  | .ok (some .directory) => .error .isADirectory
  | .ok (some (.file bytes)) => .ok (some bytes)

end FileTree

end Interposition
