import Interposition.Artifact.Locate
import Interposition.Call.Registry
import Interposition.Image.Decode
import Interposition.Image.Redirect
import Interposition.Image.Verify

/-!
# Interposition.Error — what can stop a load or a launch

Every error has a message and a chain of causes: the messages of the errors it was made from,
outermost first.
-/

namespace Interposition

inductive Error where
  | resourceNotFound (module : String)
  | decode (error : DecodeError)
  | redirect (error : RedirectError)
  | encode (error : EncodeError)
  | verify (module : String) (error : VerifyError)
  | defineConflict (module : String)
  | ruleConflict (source existing requested : Symbol)
  | registryFrozen (source : Symbol)
  | invalidRule (reason : String)
  | entryPoint (entry reason : String)
  | discovery (error : DiscoveryError)
  | settings (reason : String)
  | observability (reason : String)
  /-- A file that cannot be read. Reading files is all the input and output that a load or a launch
  does itself, so a fault of a path is all that such an error is made from. One that wraps an error
  of somebody else's making has no counterpart here. -/
  | unreadable (fault : PathFault)
  | timeout
  | worker (reason : String)
  | nonZeroExit (code : Int32)
  | crash (chain : List String)
deriving DecidableEq

namespace Error

def message : Error → String
  | resourceNotFound module => s!"no resource for module `{module}`"
  | decode error => s!"malformed module image: {error.message}"
  | redirect error => s!"rewrite failed: {error.message}"
  | encode error => s!"serialization failed: {error.message}"
  | verify module error => s!"module `{module}` failed verification: {error.message}"
  | defineConflict module => s!"module `{module}` is already defined"
  | ruleConflict source existing requested =>
    s!"{source.text} is already redirected to {existing.text}, refusing {requested.text}"
  | registryFrozen source => s!"rule registry is frozen, cannot register {source.text}"
  | invalidRule reason => s!"invalid rule: {reason}"
  | entryPoint entry reason => s!"entry point {entry}: {reason}"
  | discovery error => error.message
  | settings reason => s!"configuration error: {reason}"
  | observability reason => s!"observability setup failed: {reason}"
  | unreadable fault => s!"I/O error: {fault.message}"
  | timeout => "execution timed out"
  | worker reason => s!"worker failed: {reason}"
  | nonZeroExit code => s!"subsystem exited with a non-zero code ({code})"
  | crash chain => "subsystem crashed: " ++ String.intercalate ": " chain

/-- The messages of the errors beneath, outermost first. -/
def causes : Error → List String
  | decode error => [error.message]
  | redirect error => error.message :: error.causes
  | encode error => [error.message]
  | verify _ error => error.message :: error.causes
  | discovery error => error.causes
  | unreadable fault => [fault.message]
  | _ => []

/-- A refused registration as an error. -/
def ofRegistry : RegistryError → Error
  | .conflict source existing requested => ruleConflict source existing requested
  | .frozen source => registryFrozen source
  | .invalid reason => invalidRule reason.message

end Error

instance : Diagnostic Error where
  kind
    | .resourceNotFound _ => "ResourceNotFound"
    | .decode _ => "Parse"
    | .redirect _ => "Rewrite"
    | .encode _ => "Serialize"
    | .verify .. => "Verify"
    | .defineConflict _ => "DefineConflict"
    | .ruleConflict .. => "RuleConflict"
    | .registryFrozen _ => "RegistryFrozen"
    | .invalidRule _ => "InvalidRule"
    | .entryPoint .. => "EntryPoint"
    | .discovery _ => "Discovery"
    | .settings _ => "Config"
    | .observability _ => "Observability"
    | .unreadable _ => "Io"
    | .timeout => "ExecutionTimeout"
    | .worker _ => "Worker"
    | .nonZeroExit _ => "NonZeroExit"
    | .crash _ => "SubsystemCrash"
  message := Error.message
  causes := Error.causes

end Interposition
