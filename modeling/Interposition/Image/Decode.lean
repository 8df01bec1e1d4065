import Interposition.Image.Encode
import Interposition.Text.Numeral

/-!
# Interposition.Image.Decode — images from bytes

`Image.decode` reads the encoding of an image. It is a sequence of readings from a cursor,
each of which takes bytes from the front or fails; an image ends where the input ends.
-/

namespace Interposition

/-! ## Faults -/

/-- Why bytes are no image. -/
inductive DecodeError where
  /-- The input ends at `offset`, `needed` bytes short of what is read there. -/
  | truncated (offset needed : Nat)
  | badMagic (found : UInt32)
  | unsupportedVersion (major minor : UInt16)
  | unknownTag (index : Nat) (tag : UInt8)
  | invalidUtf8 (index : Nat)
  | unknownOpcode (method offset : Nat) (opcode : UInt8)
  | truncatedInstruction (method offset : Nat)
  | trailingBytes (count : Nat)
deriving DecidableEq, Repr

def DecodeError.message : DecodeError → String
  | .truncated offset needed =>
    s!"unexpected end of input at byte {offset} (needed {needed} more)"
  | .badMagic found => s!"bad magic 0x{Text.hex 8 found.toNat}"
  | .unsupportedVersion major minor => s!"unsupported format version {major}.{minor}"
  | .unknownTag index tag => s!"constant #{index} has unknown tag {tag}"
  | .invalidUtf8 index => s!"constant #{index} is not valid UTF-8"
  | .unknownOpcode method offset opcode =>
    s!"method #{method}: unknown opcode 0x{Text.hex 2 opcode.toNat} at offset {offset}"
  | .truncatedInstruction method offset =>
    s!"method #{method}: instruction at offset {offset} runs past the end of code"
  | .trailingBytes count => s!"{count} trailing bytes after last method"

instance : Diagnostic DecodeError where
  kind
    | .truncated .. => "Truncated"
    | .badMagic _ => "BadMagic"
    | .unsupportedVersion .. => "UnsupportedVersion"
    | .unknownTag .. => "UnknownTag"
    | .invalidUtf8 _ => "InvalidUtf8"
    | .unknownOpcode .. => "UnknownOpcode"
    | .truncatedInstruction .. => "TruncatedInstruction"
    | .trailingBytes _ => "TrailingBytes"
  message := DecodeError.message
  causes _ := []

/-! ## Cursors -/

/-- What is left of an input, and how much of it was read. -/
structure Cursor where
  offset : Nat
  rest : List UInt8
deriving DecidableEq, Repr

/-- A step that takes a value from the front of the input. -/
abbrev Reader (α : Type) :=
  StateT Cursor (Except DecodeError) α

namespace Reader

/-- The failure to read `size` bytes. -/
def short {α : Type} (size : Nat) : Reader α := fun c =>
  .error (.truncated c.offset (size - c.rest.length))

def byte : Reader UInt8 := fun c =>
  match c.rest with
  | a :: rest => .ok (a, ⟨c.offset + 1, rest⟩)
  | _ => short 1 c

def word16 : Reader UInt16 := fun c =>
  match c.rest with
  | a :: b :: rest => .ok (Word.ofBytes16 a b, ⟨c.offset + 2, rest⟩)
  | _ => short 2 c

def word32 : Reader UInt32 := fun c =>
  match c.rest with
  | a :: b :: d :: e :: rest => .ok (Word.ofBytes32 a b d e, ⟨c.offset + 4, rest⟩)
  | _ => short 4 c

def word64 : Reader UInt64 := fun c =>
  match c.rest with
  | a :: b :: d :: e :: a' :: b' :: d' :: e' :: rest =>
    .ok (Word.ofHalves (Word.ofBytes32 a b d e) (Word.ofBytes32 a' b' d' e'),
      ⟨c.offset + 8, rest⟩)
  | _ => short 8 c

/-- Takes the next `size` bytes. -/
def take (size : Nat) : Reader (List UInt8) := fun c =>
  let front := c.rest.take size
  if front.length = size then .ok (front, ⟨c.offset + size, c.rest.drop size⟩)
  else short size c

/-- Reads `count` items after those in `done`; an item is read knowing its index. -/
def repeated {α : Type} (item : Nat → Reader α) (done : Array α) : Nat → Reader (Array α)
  | 0 => pure done
  | count + 1 => do
    let a ← item done.size
    repeated item (done.push a) count

end Reader

/-! ## Parts of an image -/

def Member.read : Reader Member := do
  let owner ← Reader.word16
  let name ← Reader.word16
  let descriptor ← Reader.word16
  return ⟨owner, name, descriptor⟩

/-- Reads the constant at an index of the pool. -/
def Constant.read (index : Nat) : Reader Constant := do
  match ← Reader.byte with
  | 1 =>
    let length ← Reader.word16
    match Text.decode? (← Reader.take length.toNat) with
    | some text => return .utf8 text
    | none => throw (.invalidUtf8 index)
  | 2 => return .int (← Reader.word64).toInt64
  | 3 => return .str (← Reader.word16)
  | 4 => return .method (← Member.read)
  | 5 => return .field (← Member.read)
  | tag => throw (.unknownTag index tag)

def Handler.read : Reader Handler := do
  let start ← Reader.word32
  let stop ← Reader.word32
  let target ← Reader.word32
  return ⟨start, stop, target⟩

/-- The fault of the code of a method, as a fault of the image. -/
def Code.Fault.inMethod (method : Nat) : Code.Fault → DecodeError
  | .unknownOpcode offset opcode => .unknownOpcode method offset opcode
  | .truncated offset => .truncatedInstruction method offset

/-- Reads the method at an index. Its code is decoded before its handlers are read. -/
def Method.read (index : Nat) : Reader Method := do
  let flags ← Reader.word16
  let name ← Reader.word16
  let descriptor ← Reader.word16
  let maxLocals ← Reader.word16
  let length ← Reader.word32
  match Code.decode (← Reader.take length.toNat) with
  | .error fault => throw (fault.inMethod index)
  | .ok code =>
    let count ← Reader.word16
    let handlers ← Reader.repeated (fun _ => Handler.read) #[] count.toNat
    return ⟨flags, name, descriptor, maxLocals, code, handlers.toList⟩

/-- Reads magic word and version. -/
def Image.readHeader : Reader (UInt16 × UInt16) := do
  let magic ← Reader.word32
  if magic ≠ Image.magic then throw (.badMagic magic)
  let major ← Reader.word16
  let minor ← Reader.word16
  if major ≠ Image.majorVersion then throw (.unsupportedVersion major minor)
  return (major, minor)

def Image.read : Reader Image := do
  let (major, minor) ← Image.readHeader
  let constants ← Reader.repeated Constant.read #[] (← Reader.word16).toNat
  let thisName ← Reader.word16
  let methods ← Reader.repeated Method.read #[] (← Reader.word16).toNat
  return ⟨major, minor, ⟨constants⟩, thisName, methods⟩

/-- The image that the whole input encodes. -/
def Image.decode (input : List UInt8) : Except DecodeError Image :=
  match Image.read.run ⟨0, input⟩ with
  | .error e => .error e
  | .ok (image, ⟨_, []⟩) => .ok image
  | .ok (_, ⟨_, rest⟩) => .error (.trailingBytes rest.length)

end Interposition
