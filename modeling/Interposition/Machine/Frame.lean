import Interposition.Linking.Space
import Interposition.Machine.Host

/-!
# Interposition.Machine.Frame — one activation of a method

A frame stands at an instruction, with its local slots and its operand stack. This module has
what happens inside one frame: entering, moving on, catching a failure, and executing every
instruction but a call, for which it takes the operands and says what is called.
-/

namespace Interposition

/-- An activation of the method at `index` of `module`, about to execute the instruction at
`position`. -/
structure Frame where
  module : Module
  index : Nat
  method : Method
  locals : Array Value
  /-- Top first. -/
  stack : List Value
  position : Nat
  method_found : module.image.methods[index]? = some method
  position_lt : position < method.code.size

namespace Frame

/-! ## Position -/

/-- The instruction about to be executed. -/
def instruction (f : Frame) : Instruction :=
  have := f.position_lt
  f.method.code[f.position]

/-- Its byte offset. -/
def offset (f : Frame) : Nat :=
  (f.module.methodOffsets f.index)[f.position]?.getD 0

def place (f : Frame) : Place :=
  ⟨f.module.name, f.module.image.describeMethod f.index, f.offset⟩

/-- The frame at another position, which may be after the end of the code. -/
def moveTo (f : Frame) (position : Nat) : Except Failure Frame :=
  if h : position < f.method.code.size then .ok { f with position, position_lt := h }
  else .error (.malformed .offEnd)

/-- The frame at the next instruction. -/
def advance (f : Frame) : Except Failure Frame :=
  f.moveTo (f.position + 1)

/-- The frame at the instruction that starts at a byte offset. -/
def jump (f : Frame) (target : UInt32) : Except Failure Frame :=
  match Code.position? (f.module.methodOffsets f.index) target.toNat with
  | some position => f.moveTo position
  | none => .error (.malformed (.badBranch target))

/-- A method about to run on its arguments. The other slots are void. -/
def enter (module : Module) (index : Nat) (args : List Value) : Except Failure Frame :=
  match found : module.image.methods[index]? with
  | none => .error (.malformed (.noMethod index module.name))
  | some method =>
    let slots := method.maxLocals.toNat
    if slots < args.length then .error (.malformed (.tooManyArguments args.length slots))
    else if nonempty : 0 < method.code.size then
      .ok {
        module, index, method
        locals := args.toArray ++ Array.replicate (slots - args.length) .void
        stack := []
        position := 0
        method_found := found
        position_lt := nonempty }
    else .error (.malformed .offEnd)

/-! ## Failures -/

/-- A failure at the current instruction: the first handler that covers it goes on with the
message on an otherwise empty stack. Without one, or for a failure that is never caught, the
failure leaves the frame. -/
def raise (f : Frame) (failure : Failure) : Except Failure Frame :=
  let handler := if failure.isCatchable then f.method.handlers.find? (·.covers f.offset) else none
  match handler with
  -- Layers of frames are dropped: a handler sees the message of the root.
  | some h => { f with stack := [.str failure.root.message] }.jump h.target
  | none => .error (.frame f.place failure)

/-! ## Operands -/

def push (f : Frame) (v : Value) : Frame :=
  { f with stack := v :: f.stack }

def pop (f : Frame) : Except Failure (Value × Frame) :=
  match f.stack with
  | v :: stack => .ok (v, { f with stack })
  | [] => .error (.malformed .underflow)

/-- The two topmost operands, the lower one first. -/
def pop2 (f : Frame) : Except Failure (Value × Value × Frame) := do
  let (right, f) ← f.pop
  let (left, f) ← f.pop
  return (left, right, f)

def popBool (f : Frame) : Except Failure (Bool × Frame) := do
  match ← f.pop with
  | (.bool b, f) => return (b, f)
  | (v, _) => throw (.mismatch "bool" v)

/-- Two integers; the lower operand is checked first. -/
def popInts (f : Frame) : Except Failure (Int64 × Int64 × Frame) := do
  match ← f.pop2 with
  | (.int a, .int b, f) => return (a, b, f)
  | (.int _, b, _) => throw (.mismatch "int" b)
  | (a, _, _) => throw (.mismatch "int" a)

/-! ## Instructions -/

/-- A call about to happen. -/
structure Call where
  symbol : Symbol
  /-- The descriptor as it is written at the call. -/
  descriptor : String
  args : List Value

/-- Whether the caller keeps the result. -/
def Call.keepsResult (c : Call) : Bool :=
  !c.symbol.signature.isVoid

/-- The call that a call instruction makes, and the frame with its operands taken. An instance
call goes to the type of its receiver. -/
def call (f : Frame) (kind : CallKind) (index : UInt16) : Except Failure (Call × Frame) := do
  let some m := f.module.image.pool.method? index | throw (.malformed (.notAMethod index))
  let signature ← (Signature.parse m.descriptor).mapError (.malformed <| .badDescriptor ·)
  let arity := signature.arity + kind.receivers
  let args := (f.stack.take arity).reverse
  -- The operands are counted before the receiver is looked at.
  if args.length < arity then throw (.malformed .underflow)
  let owner ←
    match kind, args with
    | .static, _ => pure m.owner
    | .virtual, .object receiver :: _ => pure receiver.typeName
    | .virtual, receiver :: _ => throw (.mismatch m.owner receiver)
    | .virtual, [] => throw (.malformed .underflow)
  return (⟨⟨owner, m.name, signature, kind⟩, m.descriptor, args⟩,
    { f with stack := f.stack.drop arity })

/-- What executing an instruction comes to. -/
inductive Flow where
  | next (frame : Frame)
  | jump (frame : Frame) (target : UInt32)
  | ret (value : Value)
  /-- An object is to be made and pushed. -/
  | allocate (frame : Frame) (typeName : String)
  | call (frame : Frame) (call : Call)

/-- Executes the current instruction. -/
def execute (host : Host) (f : Frame) : Except Failure Flow :=
  let pool := f.module.image.pool
  match f.instruction with
  | .nop => return .next f
  | .const index =>
    match pool.get? index with
    | some (.int v) => return .next (f.push (.int v))
    | some (.str _) => return .next (f.push (.str ((pool.str? index).getD "")))
    | _ => throw (.malformed (.notLoadable index))
  | .pushTrue => return .next (f.push (.bool true))
  | .pushFalse => return .next (f.push (.bool false))
  | .load slot =>
    match f.locals[slot.toNat]? with
    | some v => return .next (f.push v)
    | none => throw (.malformed (.localOutOfRange slot))
  | .store slot => do
    let (v, f) ← f.pop
    if slot.toNat < f.locals.size then
      return .next { f with locals := f.locals.setIfInBounds slot.toNat v }
    else throw (.malformed (.localOutOfRange slot))
  | .pop => do
    let (_, f) ← f.pop
    return .next f
  | .dup => do
    let (v, _) ← f.pop
    return .next (f.push v)
  | .add => do
    let (a, b, f) ← f.popInts
    return .next (f.push (.int (a + b)))
  | .sub => do
    let (a, b, f) ← f.popInts
    return .next (f.push (.int (a - b)))
  | .equal => do
    let (a, b, f) ← f.pop2
    return .next (f.push (.bool (a.same b)))
  | .negate => do
    let (b, f) ← f.popBool
    return .next (f.push (.bool !b))
  | .concat => do
    let (a, b, f) ← f.pop2
    return .next (f.push (.str (a.text ++ b.text)))
  | .getStatic index =>
    match pool.field? index with
    | none => throw (.malformed (.notAField index))
    | some m =>
      match host.field? m.owner m.name with
      | some v => return .next (f.push v)
      | none => throw (.unresolved s!"{m.owner}.{m.name}")
  | .new index =>
    match pool.utf8? index with
    | none => throw (.malformed (.notATypeName index))
    | some typeName => return .allocate f typeName
  | .jump target => return .jump f target
  | .jumpIfFalse target => do
    let (b, f) ← f.popBool
    return if b then .next f else .jump f target
  | .invoke kind index => do
    let (call, f) ← f.call kind index
    return .call f call
  | .ret => return .ret .void
  | .retValue => do
    let (v, _) ← f.pop
    return .ret v
  | .throw => do
    let (v, _) ← f.pop
    throw (.raised v.text)

end Frame

end Interposition
