import Interposition.Call.Symbol
import Interposition.Image.Word

/-!
# Interposition.Image.Instruction — instructions and their bytes

An instruction is an opcode byte and an operand whose width depends on the opcode alone: none,
two bytes or four. The two forms of a call share a width, so one can
take the place of the other without moving what follows. There are two tables of opcodes, one of
the widths of their operands and one of the instructions they make.
-/

namespace Interposition

/-! ## Instructions -/

inductive Instruction where
  | nop
  /-- Pushes an integer or string constant. -/
  | const (index : UInt16)
  | pushTrue
  | pushFalse
  | load (slot : UInt16)
  | store (slot : UInt16)
  | pop
  | dup
  | add
  | sub
  | equal
  | negate
  | concat
  /-- Pushes a static field of the host. -/
  | getStatic (index : UInt16)
  /-- Makes an instance of the type named at `index`. -/
  | new (index : UInt16)
  | jump (target : UInt32)
  | jumpIfFalse (target : UInt32)
  /-- Calls the method at `index`. -/
  | invoke (kind : CallKind) (index : UInt16)
  | ret
  | retValue
  | throw
deriving DecidableEq, Repr

namespace Instruction

def opcode : Instruction → UInt8
  | nop => 0x00
  | const _ => 0x01
  | pushTrue => 0x02
  | pushFalse => 0x03
  | load _ => 0x04
  | store _ => 0x05
  | pop => 0x06
  | dup => 0x07
  | add => 0x08
  | sub => 0x09
  | equal => 0x0A
  | negate => 0x0B
  | concat => 0x0C
  | getStatic _ => 0x10
  | new _ => 0x11
  | jump _ => 0x20
  | jumpIfFalse _ => 0x21
  | invoke .static _ => 0x30
  | invoke .virtual _ => 0x31
  | ret => 0x40
  | retValue => 0x41
  | throw => 0x50

/-- The word for an instruction in listings. -/
def mnemonic : Instruction → String
  | nop => "nop"
  | const _ => "const"
  | pushTrue => "true"
  | pushFalse => "false"
  | load _ => "load"
  | store _ => "store"
  | pop => "pop"
  | dup => "dup"
  | add => "add"
  | sub => "sub"
  | equal => "eq"
  | negate => "not"
  | concat => "concat"
  | getStatic _ => "get_static"
  | new _ => "new"
  | jump _ => "jump"
  | jumpIfFalse _ => "jump_if_false"
  | invoke .static _ => "invoke_static"
  | invoke .virtual _ => "invoke_instance"
  | ret => "return"
  | retValue => "return_value"
  | throw => "throw"

/-- The bytes after the opcode. -/
def operandBytes : Instruction → List UInt8
  | const w | load w | store w | getStatic w | new w | invoke _ w => Word.bytes16 w
  | jump w | jumpIfFalse w => Word.bytes32 w
  | _ => []

def encode (i : Instruction) : List UInt8 :=
  i.opcode :: i.operandBytes

/-- The number of operand bytes after an opcode; `none` for a byte that is none. -/
def operandWidth? : UInt8 → Option Nat
  | 0x00 | 0x02 | 0x03 | 0x06 | 0x07 | 0x08 | 0x09 | 0x0A | 0x0B | 0x0C | 0x40 | 0x41 | 0x50 =>
    some 0
  | 0x01 | 0x04 | 0x05 | 0x10 | 0x11 | 0x30 | 0x31 => some 2
  | 0x20 | 0x21 => some 4
  | _ => none

/-- The number of bytes of an instruction. -/
def width (i : Instruction) : Nat :=
  1 + (operandWidth? i.opcode).getD 0

/-- The constant an instruction refers to. A local slot is no constant. -/
def poolOperand? : Instruction → Option UInt16
  | const i | getStatic i | new i | invoke _ i => some i
  | _ => none

/-- Where a jump goes, as a byte offset into the code. -/
def jumpTarget? : Instruction → Option UInt32
  | jump t | jumpIfFalse t => some t
  | _ => none

/-- Whether control never goes on to the next instruction. -/
def isTerminal : Instruction → Bool
  | jump _ | ret | retValue | throw => true
  | _ => false

end Instruction

/-! ## Opcodes -/

/-- What follows an opcode, and the instruction it makes with that. -/
inductive Layout where
  | bare (instruction : Instruction)
  | short (make : UInt16 → Instruction)
  | wide (make : UInt32 → Instruction)

namespace Layout

/-- The layout of an opcode; `none` for a byte that is none. -/
def ofOpcode? : UInt8 → Option Layout
  | 0x00 => some (bare .nop)
  | 0x01 => some (short .const)
  | 0x02 => some (bare .pushTrue)
  | 0x03 => some (bare .pushFalse)
  | 0x04 => some (short .load)
  | 0x05 => some (short .store)
  | 0x06 => some (bare .pop)
  | 0x07 => some (bare .dup)
  | 0x08 => some (bare .add)
  | 0x09 => some (bare .sub)
  | 0x0A => some (bare .equal)
  | 0x0B => some (bare .negate)
  | 0x0C => some (bare .concat)
  | 0x10 => some (short .getStatic)
  | 0x11 => some (short .new)
  | 0x20 => some (wide .jump)
  | 0x21 => some (wide .jumpIfFalse)
  | 0x30 => some (short (.invoke .static))
  | 0x31 => some (short (.invoke .virtual))
  | 0x40 => some (bare .ret)
  | 0x41 => some (bare .retValue)
  | 0x50 => some (bare .throw)
  | _ => none

/-- The layout of a mnemonic; `none` for a word that is none. -/
def ofMnemonic? : String → Option Layout
  | "nop" => some (bare .nop)
  | "const" => some (short .const)
  | "true" => some (bare .pushTrue)
  | "false" => some (bare .pushFalse)
  | "load" => some (short .load)
  | "store" => some (short .store)
  | "pop" => some (bare .pop)
  | "dup" => some (bare .dup)
  | "add" => some (bare .add)
  | "sub" => some (bare .sub)
  | "eq" => some (bare .equal)
  | "not" => some (bare .negate)
  | "concat" => some (bare .concat)
  | "get_static" => some (short .getStatic)
  | "new" => some (short .new)
  | "jump" => some (wide .jump)
  | "jump_if_false" => some (wide .jumpIfFalse)
  | "invoke_static" => some (short (.invoke .static))
  | "invoke_instance" => some (short (.invoke .virtual))
  | "return" => some (bare .ret)
  | "return_value" => some (bare .retValue)
  | "throw" => some (bare .throw)
  | _ => none

def operandWidth : Layout → Nat
  | bare _ => 0
  | short _ => 2
  | wide _ => 4

/-- The instruction made with the operand that starts the input and what follows it, or the
number of bytes that the operand lacks. -/
def read : Layout → List UInt8 → Except Nat (Instruction × List UInt8)
  | bare i, rest => .ok (i, rest)
  | short make, a :: b :: rest => .ok (make (Word.ofBytes16 a b), rest)
  | wide make, a :: b :: c :: d :: rest => .ok (make (Word.ofBytes32 a b c d), rest)
  | layout, rest => .error (layout.operandWidth - rest.length)

/-- An operand is read from the front of the input. -/
theorem read_length_le {layout : Layout} {input rest : List UInt8} {i : Instruction}
    (h : layout.read input = .ok (i, rest)) : rest.length ≤ input.length := by
  unfold read at h
  split at h <;> simp_all <;> omega

end Layout

/-- The instruction of an opcode, with the operand that starts the input, and what follows it. The
input has to hold all of the operand. -/
def Instruction.decode? (opcode : UInt8) (input : List UInt8) :
    Option (Instruction × List UInt8) :=
  (Layout.ofOpcode? opcode).bind fun layout => (layout.read input).toOption

theorem Instruction.decode?_length_le {opcode : UInt8} {input rest : List UInt8} {i : Instruction}
    (h : decode? opcode input = some (i, rest)) : rest.length ≤ input.length := by
  rcases Option.bind_eq_some_iff.1 h with ⟨layout, -, hread⟩
  cases hresult : layout.read input with
  | error lacking => simp [hresult, Except.toOption] at hread
  | ok read =>
    obtain rfl : read = (i, rest) := by simpa [hresult, Except.toOption] using hread
    exact Layout.read_length_le hresult

end Interposition
