import Interposition.Image.Instruction

/-!
# Interposition.Image.Code — instruction sequences

Code is addressed in two ways: an instruction has a position in the sequence, and its opcode
has a byte offset in the encoding. `offsets` gives the offset of every position and
`position?` goes back. `decode` reads an encoded sequence.
-/

namespace Interposition.Code

/-! ## Offsets -/

/-- The number of bytes of a sequence. -/
def byteLength (code : Array Instruction) : Nat :=
  code.foldl (fun length i => length + i.width) 0

/-- Where each element starts when elements of the given widths are laid out from `start`
on, and where the last one ends. -/
def layOut (start : Nat) (widths : List Nat) : Array Nat × Nat :=
  widths.foldl (fun (starts, offset) width => (starts.push offset, offset + width)) (#[], start)

/-- The byte offset of every instruction. -/
def offsets (code : Array Instruction) : Array Nat :=
  (layOut 0 (code.toList.map Instruction.width)).1

/-- Looks for `target` in the increasing table `starts`, at the positions from `low` up to
`high`. -/
def search (starts : Array Nat) (target low high : Nat) : Option Nat :=
  if low < high then
    let middle := (low + high) / 2
    match starts[middle]? with
    | none => none
    | some start =>
      if start = target then some middle
      else if start < target then search starts target (middle + 1) high
      else search starts target low middle
  else none
termination_by high - low

/-- The position of the instruction that starts at a byte offset. -/
def position? (starts : Array Nat) (target : Nat) : Option Nat :=
  search starts target 0 starts.size

/-! ## Decoding -/

/-- Why bytes are no code. The offset is that of the opcode. -/
inductive Fault where
  | unknownOpcode (offset : Nat) (opcode : UInt8)
  /-- The operand of the instruction ends after the code. -/
  | truncated (offset : Nat)
deriving DecidableEq, Repr

/-- Reads instructions to the end of the input. `done` holds those before `offset`. -/
def decodeFrom (done : Array Instruction) (offset : Nat) :
    List UInt8 → Except Fault (Array Instruction)
  | [] => .ok done
  | opcode :: rest =>
    -- A byte that is no opcode is reported even if nothing follows it.
    match Instruction.operandWidth? opcode with
    | none => .error (.unknownOpcode offset opcode)
    | some width =>
      if rest.length < width then .error (.truncated offset)
      else
        match _h : Instruction.decode? opcode rest with
        | none => .error (.unknownOpcode offset opcode)
        | some (i, tail) => decodeFrom (done.push i) (offset + 1 + width) tail
termination_by input => input.length
decreasing_by exact Nat.lt_succ_of_le (Instruction.decode?_length_le _h)

/-- The instructions whose encodings make up the input. -/
def decode (input : List UInt8) : Except Fault (Array Instruction) :=
  decodeFrom #[] 0 input

end Interposition.Code
