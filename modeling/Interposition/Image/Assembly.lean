import Interposition.Image.Basic
import Interposition.Image.Intern

/-!
# Interposition.Image.Assembly — images from symbolic code

A draft of a module collects methods; a draft of a method collects instructions whose jumps go
to labels and whose operands are texts and numbers. Operands are interned as they are emitted,
labels become byte offsets when the method is finished. Emitting never stops at a fault: the
first one is kept and is what building the module answers.
-/

namespace Interposition

/-! ## Faults -/

inductive AssemblyError where
  | poolOverflow (error : PoolOverflow)
  | badDescriptor (error : DescriptorError)
  | unboundLabel (method : String) (label : Nat)
deriving DecidableEq, Repr

def AssemblyError.message : AssemblyError → String
  | .poolOverflow error => error.message
  | .badDescriptor error => error.message
  | .unboundLabel method label => s!"method {method}: label {label} was never bound"

instance : Diagnostic AssemblyError where
  kind
    | .poolOverflow _ => "Pool"
    | .badDescriptor _ => "Descriptor"
    | .unboundLabel .. => "UnboundLabel"
  message := AssemblyError.message
  causes _ := []

/-! ## Modules -/

structure ModuleDraft where
  pool : Pool
  methods : Array Method
  /-- The first fault met. -/
  fault : Option AssemblyError

namespace ModuleDraft

/-- A module of the given name, which is its first constant. -/
def named (name : String) : ModuleDraft :=
  ⟨⟨#[.utf8 name]⟩, #[], none⟩

/-- Keeps a fault, unless there was one before. -/
def fail (d : ModuleDraft) (error : AssemblyError) : ModuleDraft :=
  { d with fault := d.fault <|> some error }

/-- Interns a constant. Its position is 0 if there is no room for it. -/
def intern (d : ModuleDraft) (operation : Interning UInt16) : UInt16 × ModuleDraft :=
  match operation d.pool with
  | (.ok index, pool) => (index, { d with pool })
  | (.error overflow, pool) => (0, { d with pool }.fail (.poolOverflow overflow))

/-- Appends constants as they are. -/
def pad (d : ModuleDraft) (constants : Array Constant) : ModuleDraft :=
  { d with pool := ⟨d.pool.entries ++ constants⟩ }

/-- The image of the module. -/
def build (d : ModuleDraft) : Except AssemblyError Image :=
  match d.fault with
  | some error => .error error
  | none => .ok ⟨Image.majorVersion, Image.minorVersion, d.pool, 0, d.methods⟩

end ModuleDraft

/-! ## Methods -/

/-- An emitted instruction. Jumps name a label. -/
inductive Item where
  | plain (instruction : Instruction)
  | jump (label : Nat)
  | jumpIfFalse (label : Nat)
deriving DecidableEq, Repr

def Item.width : Item → Nat
  | .plain i => i.width
  | .jump _ => (Instruction.jump 0).width
  | .jumpIfFalse _ => (Instruction.jumpIfFalse 0).width

/-- A handler between labels. -/
structure HandlerLabels where
  start : Nat
  stop : Nat
  target : Nat
deriving DecidableEq, Repr

structure MethodDraft where
  module : ModuleDraft
  label : String
  flags : UInt16
  name : UInt16
  descriptor : UInt16
  /-- The local slots that the arguments need. -/
  argumentSlots : Nat
  /-- The local slots, if they were given. -/
  locals : Option UInt16
  items : Array Item
  /-- For each label the number of items before the place it is bound to. -/
  labels : Array (Option Nat)
  handlers : Array HandlerLabels

/-- Starts a method. Nothing is added to the module before the method is finished. -/
def ModuleDraft.method (d : ModuleDraft) (name descriptor : String) (flags : UInt16) :
    MethodDraft :=
  let receivers := if flags &&& Method.staticFlag = 0 then 1 else 0
  let (argumentSlots, d) :=
    match Signature.parse descriptor with
    | .ok signature => (signature.arity + receivers, d)
    | .error error => (0, d.fail (.badDescriptor error))
  -- The texts are interned even if the descriptor cannot be read.
  let (nameIndex, d) := d.intern (Pool.internUtf8 name)
  let (descriptorIndex, d) := d.intern (Pool.internUtf8 descriptor)
  { module := d
    label := name ++ descriptor
    flags
    name := nameIndex
    descriptor := descriptorIndex
    argumentSlots
    locals := none
    items := #[]
    labels := #[]
    handlers := #[] }

namespace MethodDraft

/-! ### Emitting -/

def emit (d : MethodDraft) (item : Item) : MethodDraft :=
  { d with items := d.items.push item }

/-- Emits an instruction whose operand is interned first. -/
def emitInterned (d : MethodDraft) (operation : Interning UInt16)
    (make : UInt16 → Instruction) : MethodDraft :=
  let (index, module) := d.module.intern operation
  { d with module }.emit (.plain (make index))

def int (d : MethodDraft) (value : Int64) : MethodDraft :=
  d.emitInterned (Pool.internInt value) .const

def str (d : MethodDraft) (text : String) : MethodDraft :=
  d.emitInterned (Pool.internStr text) .const

def getStatic (d : MethodDraft) (field : MemberTexts) : MethodDraft :=
  d.emitInterned (Pool.internField field) .getStatic

def new (d : MethodDraft) (typeName : String) : MethodDraft :=
  d.emitInterned (Pool.internUtf8 typeName) .new

def invoke (d : MethodDraft) (kind : CallKind) (method : MemberTexts) : MethodDraft :=
  d.emitInterned (Pool.internMethod method) (.invoke kind)

/-- Fixes the number of local slots. -/
def setLocals (d : MethodDraft) (count : UInt16) : MethodDraft :=
  { d with locals := some count }

/-- A label of this method, not bound yet. Labels are counted from 0. -/
def newLabel (d : MethodDraft) : MethodDraft :=
  { d with labels := d.labels.push none }

/-- Binds a label to the next item. A label of another method is left alone. -/
def bind (d : MethodDraft) (label : Nat) : MethodDraft :=
  { d with labels := d.labels.setIfInBounds label (some d.items.size) }

def handler (d : MethodDraft) (labels : HandlerLabels) : MethodDraft :=
  { d with handlers := d.handlers.push labels }

/-! ### Finishing -/

/-- The byte offset of every item, and of the end. -/
def offsets (d : MethodDraft) : Array Nat :=
  let (starts, length) := Code.layOut 0 (d.items.toList.map Item.width)
  starts.push length

/-- The byte offset a label stands for. -/
def resolve (d : MethodDraft) (offsets : Array Nat) (label : Nat) :
    Except AssemblyError UInt32 :=
  match d.labels[label]?.join with
  | some position => .ok (offsets[position]?.getD 0).toUInt32
  | none => .error (.unboundLabel d.label label)

def resolveItem (d : MethodDraft) (offsets : Array Nat) : Item → Except AssemblyError Instruction
  | .plain i => .ok i
  | .jump label => (d.resolve offsets label).map .jump
  | .jumpIfFalse label => (d.resolve offsets label).map .jumpIfFalse

def resolveHandler (d : MethodDraft) (offsets : Array Nat) (h : HandlerLabels) :
    Except AssemblyError Handler := do
  let start ← d.resolve offsets h.start
  let stop ← d.resolve offsets h.stop
  let target ← d.resolve offsets h.target
  return ⟨start, stop, target⟩

/-- The number of local slots that the code uses. -/
def usedSlots (d : MethodDraft) : Nat :=
  d.items.foldl (fun used item =>
    match item with
    | .plain (.load slot) | .plain (.store slot) => max used (slot.toNat + 1)
    | _ => used) 0

/-- The method with its labels resolved. -/
def assemble (d : MethodDraft) : Except AssemblyError Method := do
  let offsets := d.offsets
  -- Jumps are resolved before handlers: their labels are reported first.
  let code ← d.items.mapM (d.resolveItem offsets)
  let handlers ← d.handlers.toList.mapM (d.resolveHandler offsets)
  let maxLocals := d.locals.getD (min (max d.usedSlots d.argumentSlots) 65535).toUInt16
  return ⟨d.flags, d.name, d.descriptor, maxLocals, code, handlers⟩

/-- Adds the method to its module. It can be finished again. -/
def finish (d : MethodDraft) : MethodDraft :=
  match d.assemble with
  | .ok m => { d with module := { d.module with methods := d.module.methods.push m } }
  | .error error => { d with module := d.module.fail error }

end MethodDraft

end Interposition
