import Interposition.Image.Code
import Interposition.Image.Pool

/-!
# Interposition.Image.Basic — module images

A module image is a constant pool, the module's name and its methods. Names and descriptors
are positions in the pool.
-/

namespace Interposition

/-- A failure in the bytes from `start` up to `stop` goes on at `target`. -/
structure Handler where
  start : UInt32
  stop : UInt32
  target : UInt32
deriving DecidableEq, Repr

def Handler.covers (h : Handler) (offset : Nat) : Bool :=
  h.start.toNat ≤ offset && offset < h.stop.toNat

structure Method where
  flags : UInt16
  name : UInt16
  descriptor : UInt16
  maxLocals : UInt16
  code : Array Instruction
  handlers : List Handler
deriving DecidableEq

/-- The flag of a method without a receiver. -/
def Method.staticFlag : UInt16 := 1

def Method.isStatic (m : Method) : Bool :=
  m.flags &&& staticFlag ≠ 0

structure Image where
  major : UInt16
  minor : UInt16
  pool : Pool
  thisName : UInt16
  methods : Array Method
deriving DecidableEq

namespace Image

/-- The only major version there is. Every minor version of it is readable. -/
def majorVersion : UInt16 := 1

def minorVersion : UInt16 := 0

/-- The module's name. -/
def name? (image : Image) : Option String :=
  image.pool.utf8? image.thisName

def methodName? (image : Image) (m : Method) : Option String :=
  image.pool.utf8? m.name

def methodDescriptor? (image : Image) (m : Method) : Option String :=
  image.pool.utf8? m.descriptor

/-- The first method of a name and descriptor. -/
def findMethod? (image : Image) (name descriptor : String) : Option Nat :=
  image.methods.findIdx? fun m =>
    image.methodName? m = some name && image.methodDescriptor? m = some descriptor

/-- Name and descriptor of a method, with a question mark for a text that is not there. -/
def methodLabel (image : Image) (m : Method) : String :=
  (image.methodName? m).getD "?" ++ (image.methodDescriptor? m).getD "?"

/-- The label of the method at an index, or the index if there is no such method. -/
def describeMethod (image : Image) (index : Nat) : String :=
  match image.methods[index]? with
  | some m => image.methodLabel m
  | none => s!"#{index}"

end Image

/-- Where an artifact keeps a module: dots become directories. -/
def resourcePath (moduleName : String) : String :=
  String.ofList (moduleName.toList.map fun c => if c = '.' then '/' else c) ++ ".rmod"

end Interposition
