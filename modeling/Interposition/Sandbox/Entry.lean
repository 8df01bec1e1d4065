import Interposition.Sandbox.Outcome

/-!
# Interposition.Sandbox.Entry — running a program from an entry point

The entry point is resolved through the loader and must be a static method that takes the
arguments given. If it is not, there is no run and the answer is an error. What happens in the
run is an outcome.
-/

namespace Interposition

/-- The method a program starts at. -/
structure EntryPoint where
  module : String
  method : String
  descriptor : String
deriving DecidableEq, Repr

namespace EntryPoint

/-- The method `main` without parameters and result. -/
def main (module : String) : EntryPoint :=
  ⟨module, "main", "()V"⟩

def text (e : EntryPoint) : String :=
  s!"{e.module}.{e.method}{e.descriptor}"

/-- An entry point that cannot be run. -/
def refuse (e : EntryPoint) (reason : String) : Error :=
  .entryPoint e.text reason

/-- The first argument that is not of its parameter's type, with its index. -/
def firstMisfit? (index : Nat) : List Value → List ValueType → Option (Nat × ValueType)
  | arg :: args, type :: types =>
    if arg.conformsTo type then firstMisfit? (index + 1) args types else some (index, type)
  | _, _ => none

/-- The index of the entry method in its module, if it can be run on the arguments. -/
def find (e : EntryPoint) (module : Module) (args : List Value) : Except Error Nat := do
  let some index := module.image.findMethod? e.method e.descriptor
    | throw (e.refuse "method not found")
  unless module.image.methods[index]?.any Method.isStatic do
    throw (e.refuse "method is not static")
  -- Arguments are checked by number first, then one by one.
  let signature ← (Signature.parse e.descriptor).mapError fun error => e.refuse error.message
  if signature.arity ≠ args.length then
    throw (e.refuse s!"expects {signature.arity} arguments, got {args.length}")
  match firstMisfit? 0 args signature.params with
  | some (position, type) =>
    throw (e.refuse s!"argument {position} is not {type.descriptor}")
  | none => return index

end EntryPoint

/-- What keeps an invocation from having an outcome. -/
inductive Interruption where
  | error (error : Error)
  /-- The process ended. -/
  | exited (code : Int32)

/-- The outcome of a run, unless the process ended in it. -/
def Ending.outcome (entry : String) : Ending → Except Interruption Outcome
  | .returned value => .ok (.success value)
  | .failed failure => .ok (.ofFailure entry failure)
  | .exited code => .error (.exited code)

/-- Loaders and a host under limits, and the world they have made so far. -/
structure Sandbox where
  env : Environment
  loader : Loader
  world : World

namespace Sandbox

/-- Resolves the module of an entry point. A module that is not there is a fault of the entry
point. -/
def resolveEntry (s : Sandbox) (entry : EntryPoint) : Except Error Module × Loader :=
  match s.loader.resolve entry.module with
  | (.error (.resourceNotFound _), loader) => (.error (entry.refuse "module not found"), loader)
  | answer => answer

/-- Runs an entry point on arguments, with all of the fuel. -/
def invoke (s : Sandbox) (entry : EntryPoint) (args : List Value) :
    Except Interruption Outcome × Sandbox :=
  let (answer, loader) := s.resolveEntry entry
  let s := { s with loader }
  match answer >>= fun module => (module, ·) <$> entry.find module args with
  | .error e => (.error (.error e), s)
  | .ok (module, index) =>
    let (m, ending) := Machine.call s.env ⟨0, some s.loader, s.world⟩ module index args
    (ending.outcome entry.text,
      { s with loader := m.loader.getD s.loader, world := m.world })

end Sandbox

end Interposition
