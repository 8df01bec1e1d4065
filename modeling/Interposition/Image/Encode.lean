import Interposition.Image.Basic
import Interposition.Text.Utf8

/-!
# Interposition.Image.Encode — images as bytes

The encoding of an image: a header, the counted constants, the name, the counted methods.
`Image.bytes` writes it down and `Image.checkEncodable` says whether every count and length
fits its field and every position that code and name refer to exists. `Image.encode` is the
first, guarded by the second.
-/

namespace Interposition

/-! ## Layout -/

/-- The word an image starts with. -/
def Image.magic : UInt32 := 0x524D4F44

/-- The byte in front of a constant, by its kind. -/
def Constant.tag : Constant → UInt8
  | .utf8 _ => 1
  | .int _ => 2
  | .str _ => 3
  | .method _ => 4
  | .field _ => 5

def Member.bytes (m : Member) : List UInt8 :=
  Word.bytes16 m.owner ++ Word.bytes16 m.name ++ Word.bytes16 m.descriptor

def Constant.bytes (c : Constant) : List UInt8 :=
  c.tag ::
    match c with
    | .utf8 text => Word.bytes16 text.utf8ByteSize.toUInt16 ++ Text.utf8 text
    | .int value => Word.bytes64 value.toUInt64
    | .str text => Word.bytes16 text
    | .method m | .field m => m.bytes

def Handler.bytes (h : Handler) : List UInt8 :=
  Word.bytes32 h.start ++ Word.bytes32 h.stop ++ Word.bytes32 h.target

def Method.bytes (m : Method) : List UInt8 :=
  Word.bytes16 m.flags ++ Word.bytes16 m.name ++ Word.bytes16 m.descriptor ++
    Word.bytes16 m.maxLocals ++
    Word.bytes32 (Code.byteLength m.code).toUInt32 ++ m.code.toList.flatMap Instruction.encode ++
    Word.bytes16 m.handlers.length.toUInt16 ++ m.handlers.flatMap Handler.bytes

def Image.bytes (image : Image) : List UInt8 :=
  Word.bytes32 Image.magic ++ Word.bytes16 image.major ++ Word.bytes16 image.minor ++
    Word.bytes16 image.pool.size.toUInt16 ++ image.pool.entries.toList.flatMap Constant.bytes ++
    Word.bytes16 image.thisName ++
    Word.bytes16 image.methods.size.toUInt16 ++ image.methods.toList.flatMap Method.bytes

/-! ## Limits -/

/-- Why an image has no encoding. -/
inductive EncodeError where
  | poolTooLarge (size : Nat)
  | danglingName (index : UInt16)
  | tooManyMethods (count : Nat)
  | stringTooLong (index length : Nat)
  | codeTooLarge (method length : Nat)
  | tooManyHandlers (method count : Nat)
  | danglingOperand (method position : Nat) (index : UInt16)
deriving DecidableEq, Repr

def EncodeError.message : EncodeError → String
  | .poolTooLarge size =>
    s!"constant pool has {size} entries, the format allows {Pool.capacity}"
  | .danglingName index => s!"module name refers to missing constant #{index}"
  | .tooManyMethods count => s!"{count} methods exceed the u16 method table"
  | .stringTooLong index length =>
    s!"constant #{index} is {length} bytes, longer than a u16 length"
  | .codeTooLarge method length =>
    s!"method #{method} code is {length} bytes, longer than a u32 length"
  | .tooManyHandlers method count =>
    s!"method #{method} has {count} handlers, more than a u16 table"
  | .danglingOperand method position index =>
    s!"method #{method}: operand at instruction {position} refers to missing constant #{index}"

instance : Diagnostic EncodeError where
  kind
    | .poolTooLarge _ => "PoolTooLarge"
    | .danglingName _ => "DanglingName"
    | .tooManyMethods _ => "TooManyMethods"
    | .stringTooLong .. => "StringTooLong"
    | .codeTooLarge .. => "CodeTooLarge"
    | .tooManyHandlers .. => "TooManyHandlers"
    | .danglingOperand .. => "DanglingOperand"
  message := EncodeError.message
  causes _ := []

/-- Applies a check to the elements of a list in order, each with its index. -/
def checkEach {α ε : Type} (check : Nat → α → Except ε Unit) (start : Nat) :
    List α → Except ε Unit
  | [] => .ok ()
  | a :: rest =>
    match check start a with
    | .error e => .error e
    | .ok () => checkEach check (start + 1) rest

def Constant.checkEncodable (index : Nat) : Constant → Except EncodeError Unit
  | .utf8 text =>
    if text.utf8ByteSize ≤ 65535 then .ok ()
    else .error (.stringTooLong index text.utf8ByteSize)
  | _ => .ok ()

/-- An operand refers to an entry of a pool of the given size. -/
def Instruction.checkEncodable (poolSize method position : Nat) (i : Instruction) :
    Except EncodeError Unit :=
  match i.poolOperand? with
  | some index =>
    if index.toNat < poolSize then .ok () else .error (.danglingOperand method position index)
  | none => .ok ()

def Method.checkEncodable (poolSize index : Nat) (m : Method) : Except EncodeError Unit :=
  let length := Code.byteLength m.code
  -- The tables of a method are measured before its operands are looked at.
  if 4294967295 < length then .error (.codeTooLarge index length)
  else if 65535 < m.handlers.length then .error (.tooManyHandlers index m.handlers.length)
  else checkEach (Instruction.checkEncodable poolSize index) 0 m.code.toList

/-- Looks for the first thing that keeps an image from being encoded: the counts, then the
constants, then the methods. -/
def Image.checkEncodable (image : Image) : Except EncodeError Unit :=
  if Pool.capacity < image.pool.size then .error (.poolTooLarge image.pool.size)
  else if image.pool.size ≤ image.thisName.toNat then .error (.danglingName image.thisName)
  else if 65535 < image.methods.size then .error (.tooManyMethods image.methods.size)
  else
    match checkEach Constant.checkEncodable 0 image.pool.entries.toList with
    | .error e => .error e
    | .ok () => checkEach (Method.checkEncodable image.pool.size) 0 image.methods.toList

/-- The encoding of an image. -/
def Image.encode (image : Image) : Except EncodeError (List UInt8) :=
  match image.checkEncodable with
  | .error e => .error e
  | .ok () => .ok image.bytes

end Interposition
