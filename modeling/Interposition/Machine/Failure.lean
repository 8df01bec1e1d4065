import Interposition.Error
import Interposition.Machine.Value

/-!
# Interposition.Machine.Failure — how execution fails

A failure has a root, which is what went wrong, inside one layer for every activation it has
left. Ordinary failures may be caught by a handler on the way out. Exit requests and exhausted
limits never are.
-/

namespace Interposition

/-! ## Defects of code -/

/-- What code does that no well-formed module does. -/
inductive Defect where
  | noMethod (index : Nat) (module : String)
  | tooManyArguments (arguments slots : Nat)
  | offEnd
  | badBranch (target : UInt32)
  | notLoadable (index : UInt16)
  | localOutOfRange (slot : UInt16)
  | underflow
  | notAField (index : UInt16)
  | notATypeName (index : UInt16)
  | notAMethod (index : UInt16)
  | badDescriptor (error : DescriptorError)
  /-- A defect that is only described. -/
  | other (description : String)
deriving DecidableEq, Repr

def Defect.message : Defect → String
  | .noMethod index module => s!"no method #{index} in {module}"
  | .tooManyArguments arguments slots => s!"{arguments} arguments for {slots} local slots"
  | .offEnd => "control ran off the end of the code"
  | .badBranch target => s!"branch to {target} is not an instruction"
  | .notLoadable index => s!"constant #{index} is not loadable"
  | .localOutOfRange slot => s!"local {slot} out of range"
  | .underflow => "operand stack underflow"
  | .notAField index => s!"constant #{index} is not a field"
  | .notATypeName index => s!"constant #{index} is not a type name"
  | .notAMethod index => s!"constant #{index} is not a method"
  | .badDescriptor error => error.message
  | .other description => description

/-! ## Failures -/

/-- Where an activation stood when a failure left it. -/
structure Place where
  module : String
  method : String
  offset : Nat
deriving DecidableEq, Repr

inductive Failure where
  /-- A request to end with a code, on its way to whoever started the run. -/
  | exitRequest (code : Int32)
  /-- Thrown by the program. -/
  | raised (message : String)
  | native (name message : String)
  | unresolved (reference : String)
  | link (module : String) (error : Error)
  | typeMismatch (expected found : String)
  | malformed (defect : Defect)
  | fuelExhausted (executed : Nat)
  | callDepthExceeded (limit : Nat)
  /-- A failure that left the activation at `place`. -/
  | frame (place : Place) (inner : Failure)
deriving DecidableEq

namespace Failure

def message : Failure → String
  | exitRequest code => s!"subsystem requested exit with code {code}"
  | raised message => message
  | native name message => s!"{name} failed: {message}"
  | unresolved reference => s!"unresolved reference {reference}"
  | link module _ => s!"cannot link `{module}`"
  | typeMismatch expected found => s!"type mismatch: expected {expected}, found {found}"
  | malformed defect => s!"malformed code: {defect.message}"
  | fuelExhausted executed => s!"fuel exhausted after {executed} instructions"
  | callDepthExceeded limit => s!"call depth limit {limit} exceeded"
  | frame place _ => s!"at {place.module}.{place.method} @{place.offset}"

/-- The messages of what a failure was made from, outermost first. -/
def causes : Failure → List String
  | link _ error => error.message :: error.causes
  | frame _ inner => inner.message :: inner.causes
  | _ => []

/-- The failure beneath all layers. -/
def root : Failure → Failure
  | frame _ inner => inner.root
  | failure => failure

/-- The code of the exit request beneath all layers. -/
def exitCode? (f : Failure) : Option Int32 :=
  match f.root with
  | exitRequest code => some code
  | _ => none

/-- Whether a handler may catch the failure. -/
def isCatchable (f : Failure) : Bool :=
  match f.root with
  | exitRequest _ | fuelExhausted _ | callDepthExceeded _ => false
  | _ => true

/-- The value found where another type was expected. -/
def mismatch (expected : String) (found : Value) : Failure :=
  typeMismatch expected found.typeName

end Failure

/-! ## Chains -/

/-- One of the errors that a failure was made from. -/
inductive Cause where
  | failure (failure : Failure)
  /-- An error of a loader, or one beneath it. A loader does not run anything, so none of these is
  the failure of a run, and a chain goes no further than what `Error.causes` has. -/
  | error (message : String)
deriving DecidableEq

namespace Cause

def message : Cause → String
  | .failure f => f.message
  | .error message => message

/-- The code of the exit request beneath all layers. -/
def exitCode? : Cause → Option Int32
  | .failure f => f.exitCode?
  | .error _ => none

end Cause

/-- A failure and the errors it was made from, outermost first. -/
def Failure.chain : Failure → List Cause
  | link module error =>
    .failure (link module error) :: (error.message :: error.causes).map .error
  | frame place inner => .failure (frame place inner) :: inner.chain
  | failure => [.failure failure]

instance : Diagnostic Failure where
  kind
    | .exitRequest _ => "Trap"
    | .raised _ => "Raised"
    | .native .. => "Native"
    | .unresolved _ => "Unresolved"
    | .link .. => "Link"
    | .typeMismatch .. => "TypeMismatch"
    | .malformed _ => "Malformed"
    | .fuelExhausted _ => "FuelExhausted"
    | .callDepthExceeded _ => "CallDepthExceeded"
    | .frame .. => "Frame"
  message := Failure.message
  causes := Failure.causes

end Interposition
