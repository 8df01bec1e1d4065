import Interposition.Machine.Run

/-!
# Interposition.Sandbox.Outcome — how a run looks from outside

A run that returns has succeeded. A run that asked to exit has succeeded or failed by its code,
however deep the request was. Any other failure is a crash, which keeps the failure.
-/

namespace Interposition

inductive Outcome where
  /-- Returned, or asked to exit with code 0. -/
  | success (value : Value)
  /-- Asked to exit with another code. -/
  | controlledFailure (code : Int32)
  | crash (entry : String) (failure : Failure)

/-- The code of the first exit request that a chain of errors comes to. -/
def Failure.requestedExit? (failure : Failure) : Option Int32 :=
  failure.chain.findSome? Cause.exitCode?

namespace Outcome

/-- The outcome of a failure that left the entry. An exit request anywhere in the failure decides
it. Any other failure is kept as it is. -/
def ofFailure (entry : String) (failure : Failure) : Outcome :=
  match failure.requestedExit? with
  | some code => if code = 0 then success .void else controlledFailure code
  | none => crash entry failure

/-- The exit code of a crash. -/
def crashExitCode : Int32 := 1

def isSuccess : Outcome → Bool
  | success _ => true
  | _ => false

def exitCode : Outcome → Int32
  | success _ => 0
  | controlledFailure code => code
  | crash .. => crashExitCode

def kind : Outcome → String
  | success _ => "success"
  | controlledFailure _ => "controlled_failure"
  | crash .. => "crash"

/-- The message of a crash, then those of the failure and its causes. -/
def crashChain (entry : String) (failure : Failure) : List String :=
  s!"subsystem crashed in {entry}" :: failure.message :: failure.causes

end Outcome

/-! ## Summaries -/

/-- An outcome in the form reports keep. -/
inductive Summary where
  /-- The text of the value, unless it is void. -/
  | success (value : Option String)
  | controlledFailure (code : Int32)
  | crash (chain : List String)
deriving DecidableEq, Repr

namespace Summary

def ofOutcome : Outcome → Summary
  | .success .void => success none
  | .success value => success (some value.text)
  | .controlledFailure code => controlledFailure code
  | .crash entry failure => crash (Outcome.crashChain entry failure)

def isSuccess : Summary → Bool
  | success _ => true
  | _ => false

/-- Success, or the error that a failed run is to its caller. -/
def toResult : Summary → Except Error Unit
  | success _ => .ok ()
  | controlledFailure code => .error (.nonZeroExit code)
  | crash chain => .error (.crash chain)

end Summary

end Interposition
