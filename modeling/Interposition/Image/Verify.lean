import Interposition.Image.Basic
import Interposition.Image.Encode

/-!
# Interposition.Image.Verify — well-formed images

An image is well formed when its pool refers to itself correctly, its methods are distinct,
and in each method

1. the arguments fit the local slots,
2. handlers name ranges and targets that are instructions,
3. there is one stack height for every instruction that control can reach: it starts at
   nothing at the entry and at the failure message at a handler, every instruction finds its
   operands, and all paths to an instruction agree,
4. control never runs off the end.

`Image.verify` reports the first violation. The heights of a method are found by following
control from the entry and the handlers, each instruction once.
-/

namespace Interposition

/-! ## Faults -/

/-- Why an image is not well formed. Methods are named by their labels and instructions by
their offsets. -/
inductive VerifyError where
  | badConstant (index : UInt16) (expected : String)
  | badDescriptor (index : UInt16) (error : DescriptorError)
  | nameMismatch (expected found : String)
  | duplicateMethod (label : String)
  | tooFewLocals (method : String) (needed : Nat) (maxLocals : UInt16)
  | badOperand (method : String) (offset : Nat) (index : UInt16) (expected : String)
  | localOutOfRange (method : String) (offset : Nat) (slot : UInt16)
  | badBranchTarget (method : String) (offset : Nat) (target : UInt32)
  | badHandler (method : String) (index : Nat)
  | stackUnderflow (method : String) (offset : Nat)
  | stackMismatch (method : String) (offset expected found : Nat)
  | returnMismatch (method : String) (offset : Nat)
  | fallsOffEnd (method : String)
deriving DecidableEq, Repr

namespace VerifyError

def message : VerifyError → String
  | badConstant index expected => s!"constant #{index} should be {expected}"
  | badDescriptor index error => s!"constant #{index}: {error.message}"
  | nameMismatch expected found => s!"module is named `{found}`, expected `{expected}`"
  | duplicateMethod label => s!"duplicate method {label}"
  | tooFewLocals method needed maxLocals =>
    s!"{method}: max_locals {maxLocals} is smaller than the {needed} argument slots"
  | badOperand method offset index expected =>
    s!"{method} @{offset}: operand #{index} should be {expected}"
  | localOutOfRange method offset slot => s!"{method} @{offset}: local slot {slot} out of range"
  | badBranchTarget method offset target =>
    s!"{method} @{offset}: branch target {target} is not an instruction boundary"
  | badHandler method index => s!"{method}: handler #{index} has an invalid range or target"
  | stackUnderflow method offset => s!"{method} @{offset}: stack underflow"
  | stackMismatch method offset expected found =>
    s!"{method} @{offset}: stack height {found} differs from {expected} on another path"
  | returnMismatch method offset =>
    s!"{method} @{offset}: return kind does not match the descriptor"
  | fallsOffEnd method => s!"{method}: control reaches the end of the code"

/-- The messages of the errors beneath, outermost first. -/
def causes : VerifyError → List String
  | badDescriptor _ error => [error.message]
  | _ => []

end VerifyError

instance : Diagnostic VerifyError where
  kind
    | .badConstant .. => "BadConstant"
    | .badDescriptor .. => "BadDescriptor"
    | .nameMismatch .. => "NameMismatch"
    | .duplicateMethod _ => "DuplicateMethod"
    | .tooFewLocals .. => "TooFewLocals"
    | .badOperand .. => "BadOperand"
    | .localOutOfRange .. => "LocalOutOfRange"
    | .badBranchTarget .. => "BadBranchTarget"
    | .badHandler .. => "BadHandler"
    | .stackUnderflow .. => "StackUnderflow"
    | .stackMismatch .. => "StackMismatch"
    | .returnMismatch .. => "ReturnMismatch"
    | .fallsOffEnd _ => "FallsOffEnd"
  message := VerifyError.message
  causes := VerifyError.causes

/-! ## The pool -/

/-- The entry at an index is text. -/
def Pool.requireUtf8 (p : Pool) (index : UInt16) : Except VerifyError String :=
  match p.utf8? index with
  | some text => .ok text
  | none => .error (.badConstant index "Utf8")

/-- The descriptor at position `at` reads as what `parse` reads; a fault is reported under
`index`. -/
def Pool.requireDescriptor {α : Type} (p : Pool) (parse : String → Except DescriptorError α)
    (index position : UInt16) : Except VerifyError α := do
  let text ← p.requireUtf8 position
  (parse text).mapError (.badDescriptor index)

/-- What the constant at an index refers to is there and of the right kind. -/
def Pool.checkConstant (p : Pool) (index : Nat) : Constant → Except VerifyError Unit
  | .utf8 _ | .int _ => .ok ()
  | .str text => do
    let _ ← p.requireUtf8 text
  | .method m => do
    let _ ← p.requireUtf8 m.owner
    let _ ← p.requireUtf8 m.name
    let _ ← p.requireDescriptor Signature.parse index.toUInt16 m.descriptor
  | .field m => do
    let _ ← p.requireUtf8 m.owner
    let _ ← p.requireUtf8 m.name
    let _ ← p.requireDescriptor ValueType.parse index.toUInt16 m.descriptor

def Pool.verify (p : Pool) : Except VerifyError Unit :=
  checkEach p.checkConstant 0 p.entries.toList

/-! ## Routines -/

/-- A method with what its instructions are checked against. -/
structure Routine where
  pool : Pool
  method : Method
  label : String
  signature : Signature
  /-- The byte offset of every instruction. -/
  starts : Array Nat

namespace Routine

/-- The local slots that a call fills. -/
def argumentSlots (m : Method) (signature : Signature) : Nat :=
  signature.arity + if m.isStatic then 0 else 1

/-- The routine of a method whose name and descriptor are there and whose arguments fit. -/
def ofMethod (image : Image) (m : Method) : Except VerifyError Routine := do
  let label := image.methodLabel m
  -- The descriptor is asked for before the name: of two faults it is the one reported.
  let descriptor ← image.pool.requireUtf8 m.descriptor
  let _ ← image.pool.requireUtf8 m.name
  let signature ← (Signature.parse descriptor).mapError (.badDescriptor m.descriptor)
  let needed := argumentSlots m signature
  if m.maxLocals.toNat < needed then throw (.tooFewLocals label needed m.maxLocals)
  return ⟨image.pool, m, label, signature, Code.offsets m.code⟩

/-- The position of the instruction at a byte offset. -/
def position? (r : Routine) (offset : UInt32) : Option Nat :=
  Code.position? r.starts offset.toNat

/-- The byte offset of the instruction at a position. -/
def offset (r : Routine) (position : Nat) : Nat :=
  r.starts[position]?.getD 0

/-! ## Handlers -/

/-- Range and target of a handler are instructions; the range may also end with the code. -/
def handlerOk (r : Routine) (h : Handler) : Bool :=
  h.start < h.stop &&
    (r.position? h.start).isSome &&
    (h.stop.toNat == Code.byteLength r.method.code || (r.position? h.stop).isSome) &&
    (r.position? h.target).isSome

def checkHandlers (r : Routine) : Except VerifyError Unit :=
  checkEach (fun index h => if r.handlerOk h then .ok () else .error (.badHandler r.label index))
    0 r.method.handlers

/-! ## Stack effects -/

/-- How many operands an instruction takes and how many it leaves. -/
structure Effect where
  pops : Nat
  pushes : Nat
deriving DecidableEq, Repr

/-- The effect of an instruction, if its operand is of the right kind. -/
def effect (r : Routine) (offset : Nat) : Instruction → Except VerifyError Effect
  | .nop | .jump _ => .ok ⟨0, 0⟩
  | .pushTrue | .pushFalse => .ok ⟨0, 1⟩
  | .const index =>
    match r.pool.get? index with
    | some (.int _) | some (.str _) => .ok ⟨0, 1⟩
    | _ => .error (.badOperand r.label offset index "Int or Str")
  | .load slot =>
    if slot < r.method.maxLocals then .ok ⟨0, 1⟩
    else .error (.localOutOfRange r.label offset slot)
  | .store slot =>
    if slot < r.method.maxLocals then .ok ⟨1, 0⟩
    else .error (.localOutOfRange r.label offset slot)
  | .pop | .jumpIfFalse _ | .throw => .ok ⟨1, 0⟩
  | .dup => .ok ⟨1, 2⟩
  | .add | .sub | .equal | .concat => .ok ⟨2, 1⟩
  | .negate => .ok ⟨1, 1⟩
  | .getStatic index =>
    match r.pool.field? index with
    | some _ => .ok ⟨0, 1⟩
    | none => .error (.badOperand r.label offset index "Field")
  | .new index =>
    match r.pool.utf8? index with
    | some _ => .ok ⟨0, 1⟩
    | none => .error (.badOperand r.label offset index "Utf8")
  | .invoke kind index =>
    match r.pool.method? index with
    | none => .error (.badOperand r.label offset index "Method")
    | some m =>
      match Signature.parse m.descriptor with
      | .error error => .error (.badDescriptor index error)
      | .ok signature =>
        .ok ⟨signature.arity + kind.receivers, if signature.isVoid then 0 else 1⟩
  | .ret =>
    if r.signature.isVoid then .ok ⟨0, 0⟩ else .error (.returnMismatch r.label offset)
  | .retValue =>
    if r.signature.isVoid then .error (.returnMismatch r.label offset) else .ok ⟨1, 0⟩

/-! ## Heights -/

/-- The heights found so far, and the positions whose successors are still to be visited,
first come first. -/
structure Flow where
  heights : Array (Option Nat)
  pending : List Nat
  /-- Positions found after those in `pending`, last one first. -/
  later : List Nat

/-- Control arrives at a position with a stack of the given height. -/
def arrive (r : Routine) (flow : Flow) (position height : Nat) : Except VerifyError Flow :=
  match flow.heights[position]?.join with
  | some known =>
    if known = height then .ok flow
    else .error (.stackMismatch r.label (r.offset position) known height)
  | none =>
    .ok { flow with
      heights := flow.heights.setIfInBounds position (some height)
      later := position :: flow.later }

/-- Control starts at the entry on an empty stack, and at every handler's target on a stack
that holds the message. -/
def entries (r : Routine) : Except VerifyError Flow := do
  let start : Flow := ⟨Array.replicate r.method.code.size none, [], []⟩
  r.method.handlers.foldlM
    (fun flow h => r.arrive flow ((r.position? h.target).getD 0) 1)
    (← r.arrive start 0 0)

/-- Executes the instruction at a position on a stack of the given height: control arrives at
each of its successors with the height after it. -/
def visit (r : Routine) (flow : Flow) (position height : Nat) (i : Instruction) :
    Except VerifyError Flow := do
  let offset := r.offset position
  let effect ← r.effect offset i
  if height < effect.pops then throw (.stackUnderflow r.label offset)
  let after := height - effect.pops + effect.pushes
  -- The target of a jump is reached before the next instruction.
  let flow ←
    match i.jumpTarget? with
    | none => pure flow
    | some target =>
      match r.position? target with
      | none => throw (.badBranchTarget r.label offset target)
      | some goal => r.arrive flow goal after
  if i.isTerminal then return flow
  else if position + 1 < r.method.code.size then r.arrive flow (position + 1) after
  else throw (.fallsOffEnd r.label)

/-- The next position to visit. -/
def Flow.next? (flow : Flow) : Option (Nat × Flow) :=
  match flow.pending with
  | position :: pending => some (position, { flow with pending })
  | [] =>
    match flow.later.reverse with
    | position :: pending => some (position, { flow with pending, later := [] })
    | [] => none

/-- Visits pending positions, at most `steps` of them. A position becomes pending once, so
there are never more than there are instructions. -/
def follow (r : Routine) : Nat → Flow → Except VerifyError Unit
  | 0, _ => .ok ()
  | steps + 1, flow =>
    match flow.next? with
    | none => .ok ()
    | some (position, flow) =>
      match r.method.code[position]?, flow.heights[position]?.join with
      | some i, some height =>
        match r.visit flow position height i with
        | .error e => .error e
        | .ok flow => r.follow steps flow
      -- Not reached: a pending position has an instruction and a height.
      | _, _ => r.follow steps flow

/-- The flow of control keeps the stack discipline. -/
def checkFlow (r : Routine) : Except VerifyError Unit := do
  if r.method.code.isEmpty then throw (.fallsOffEnd r.label)
  r.follow r.method.code.size (← r.entries)

def check (r : Routine) : Except VerifyError Unit := do
  r.checkHandlers
  r.checkFlow

end Routine

/-! ## Images -/

/-- Checks methods in order. The labels in `seen` are taken. -/
def Image.checkMethods (image : Image) (seen : List String) :
    List Method → Except VerifyError Unit
  | [] => .ok ()
  | m :: rest =>
    let label := image.methodLabel m
    -- A method whose texts are missing has a label too, with question marks.
    if label ∈ seen then .error (.duplicateMethod label)
    else
      match Routine.ofMethod image m >>= Routine.check with
      | .error e => .error e
      | .ok () => image.checkMethods (label :: seen) rest

/-- The image is well formed. -/
def Image.verify (image : Image) : Except VerifyError Unit := do
  image.pool.verify
  let _ ← image.pool.requireUtf8 image.thisName
  image.checkMethods [] image.methods.toList

/-- The image is well formed and has the expected name. -/
def Image.verifyNamed (image : Image) (expected : String) : Except VerifyError Unit := do
  image.verify
  let found := image.name?.getD ""
  if image.name? ≠ some expected then throw (.nameMismatch expected found)

end Interposition
