import Interposition.Error

/-!
# Interposition.Linking.Space — the modules a loader has defined

Defining is the only way into a space. It decodes and verifies the bytes first, and a name is
defined once.
-/

namespace Interposition

/-- A defined module. -/
structure Module where
  name : String
  /-- The bytes it was defined from. -/
  bytes : List UInt8
  image : Image
  /-- The byte offset of every instruction, by method. -/
  offsets : Array (Array Nat)
  /-- Whether its calls were redirected, or could have been, before it was defined. -/
  derived : Bool
  /-- The loader that resolves its references, by its level in a stack of loaders; `none` for
  a module that was defined without a loader. -/
  level : Option Nat

namespace Module

/-- The byte offsets of the instructions of a method; none for a method that is not there. -/
def methodOffsets (m : Module) (index : Nat) : Array Nat :=
  m.offsets[index]?.getD #[]

/-- The module that bytes define under a name. -/
def define (name : String) (bytes : List UInt8) (derived : Bool) (level : Option Nat) :
    Except Error Module := do
  let image ← (Image.decode bytes).mapError .decode
  (image.verifyNamed name).mapError (.verify name)
  return ⟨name, bytes, image, image.methods.map fun m => Code.offsets m.code, derived, level⟩

end Module

/-- Defined modules, latest first. -/
structure Space where
  modules : List Module

namespace Space

def empty : Space := ⟨[]⟩

def find? (s : Space) (name : String) : Option Module :=
  s.modules.find? (·.name = name)

def contains (s : Space) (name : String) : Bool :=
  (s.find? name).isSome

def size (s : Space) : Nat :=
  s.modules.length

/-- The names of the defined modules in order. -/
def names (s : Space) : List String :=
  (s.modules.map Module.name).mergeSort (· ≤ ·)

/-- Adds a module, unless its name is taken. -/
def insert (s : Space) (m : Module) : Except Error Space :=
  if s.contains m.name then .error (.defineConflict m.name) else .ok ⟨m :: s.modules⟩

/-- Defines bytes under a name. -/
def define (s : Space) (name : String) (bytes : List UInt8) (derived : Bool)
    (level : Option Nat) : Except Error (Module × Space) := do
  let m ← Module.define name bytes derived level
  return (m, ← s.insert m)

end Space

end Interposition
