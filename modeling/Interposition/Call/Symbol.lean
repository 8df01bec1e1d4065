import Interposition.Call.Signature

/-!
# Interposition.Call.Symbol — the identity of a call target

A callable is named by its owner, its name, its signature and the way it is called. Two
targets are the same exactly when all four agree.
-/

namespace Interposition

/-- How a call dispatches. -/
inductive CallKind where
  | static
  /-- The receiver lies on the operand stack, below the arguments. -/
  | virtual
deriving DecidableEq, Repr

def CallKind.word : CallKind → String
  | .static => "static"
  | .virtual => "instance"

/-- The number of operands a call takes besides its arguments. -/
def CallKind.receivers : CallKind → Nat
  | .static => 0
  | .virtual => 1

structure Symbol where
  owner : String
  name : String
  signature : Signature
  kind : CallKind
deriving DecidableEq, Repr

namespace Symbol

/-- A symbol from the texts of a call site. -/
def ofDescriptor (kind : CallKind) (owner name descriptor : String) :
    Except DescriptorError Symbol :=
  (Signature.parse descriptor).map fun signature => ⟨owner, name, signature, kind⟩

def isStatic (s : Symbol) : Bool :=
  s.kind = .static

/-- Owner, name and descriptor run together; the kind of call in brackets. -/
def text (s : Symbol) : String :=
  s!"{s.owner}.{s.name}{s.signature.descriptor} [{s.kind.word}]"

/-- The signature of a static call that replaces a call of `s`: the receiver of an instance
call becomes the first argument. -/
def staticSignature (s : Symbol) : Signature :=
  match s.kind with
  | .static => s.signature
  | .virtual => s.signature.withReceiver s.owner

end Symbol

end Interposition
