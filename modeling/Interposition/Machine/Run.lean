import Interposition.Linking.Loader
import Interposition.Machine.Frame

/-!
# Interposition.Machine.Run — running methods

A machine executes one instruction at a time in the innermost of a stack of frames. A call goes
to the host's native of the symbol called if there is one, and else to the method of the module
that the caller's loader resolves. Every instruction costs one unit of fuel, so a run ends after
as many steps as there is fuel, whatever the code does.
-/

namespace Interposition

/-! ## Machines -/

/-- The budget of a run. -/
structure Limits where
  /-- How many instructions may be executed. -/
  fuel : Nat
  /-- How many frames may be active at once. -/
  maxCallDepth : Nat
deriving DecidableEq, Repr

def Limits.default : Limits :=
  ⟨50000000, 512⟩

/-- What stays the same during a run. -/
structure Environment where
  host : Host
  limits : Limits

/-- What a run changes, besides its frames. -/
structure Machine where
  /-- The instructions executed so far. -/
  executed : Nat
  /-- The loaders of the modules that run, unless they are gone. -/
  loader : Option Loader
  world : World

/-- How a call ended. -/
inductive Ending where
  | returned (value : Value)
  | failed (failure : Failure)
  /-- The process ended inside the call. -/
  | exited (code : Int32)

/-! ## Frames that wait -/

/-- A frame that waits at its call. -/
structure Caller where
  frame : Frame
  /-- Whether it takes the result. -/
  keepsResult : Bool

/-- Waiting frames, innermost first. -/
structure Callers where
  list : List Caller
  depth : Nat
  depth_eq : depth = list.length

namespace Callers

def empty : Callers := ⟨[], 0, rfl⟩

def push (cs : Callers) (c : Caller) : Callers :=
  ⟨c :: cs.list, cs.depth + 1, congrArg (· + 1) cs.depth_eq⟩

/-- The innermost frame and those behind it. -/
def pop? : Callers → Option (Caller × Callers)
  | ⟨[], _, _⟩ => none
  | ⟨c :: list, depth, h⟩ => some (c, ⟨list, depth - 1, congrArg (· - 1) h⟩)

end Callers

/-- What comes after a step. -/
inductive Progress where
  | running (frame : Frame) (callers : Callers)
  | ended (ending : Ending)

/-! ## Steps -/

/-- A failure that left a frame goes on through the frames that wait for it, to the first that
catches it. -/
def unwind (failure : Failure) : List Caller → Progress
  | [] => .ended (.failed failure)
  | c :: rest =>
    match c.frame.raise failure with
    | .ok frame => .running frame ⟨rest, rest.length, rfl⟩
    | .error failure => unwind failure rest

/-- Goes on with a frame, or with the failure that left it. -/
def proceed (callers : Callers) : Except Failure Frame → Progress
  | .ok frame => .running frame callers
  | .error failure => unwind failure callers.list

/-- A value is returned to the innermost waiting frame. -/
def giveBack (value : Value) (callers : Callers) : Progress :=
  match callers.pop? with
  | none => .ended (.returned value)
  | some (c, callers) =>
    let frame := if c.keepsResult then c.frame.push value else c.frame
    proceed callers frame.advance

/-- The frame of the method a call reaches through the loader of its caller. -/
def link (env : Environment) (m : Machine) (caller : Module) (call : Frame.Call) (depth : Nat) :
    Except Failure Frame × Machine :=
  match m.loader, caller.level with
  | some loader, some level =>
    let (answer, loader) := loader.resolveAt level call.symbol.owner
    let m := { m with loader := some loader }
    match answer with
    -- A module that is not there makes the reference dangle; any other error breaks the link.
    | .error (.resourceNotFound _) => (.error (.unresolved call.symbol.text), m)
    | .error e => (.error (.link call.symbol.owner e), m)
    | .ok target =>
      let isOfKind (index : Nat) : Bool :=
        target.image.methods[index]?.any fun method => method.isStatic == call.symbol.isStatic
      match (target.image.findMethod? call.symbol.name call.descriptor).filter isOfKind with
      | none => (.error (.unresolved call.symbol.text), m)
      | some index =>
        if env.limits.maxCallDepth ≤ depth then
          (.error (.callDepthExceeded env.limits.maxCallDepth), m)
        else (Frame.enter target index call.args, m)
  | _, _ =>
    (.error (.unresolved s!"{call.symbol.text} (loader of {caller.name} is gone)"), m)

/-- Performs a call made by `waiting`, the frame with the operands already taken. A failure is
one of the calling instruction, in the frame `before` it. -/
def perform (env : Environment) (m : Machine) (before waiting : Frame) (call : Frame.Call)
    (callers : Callers) : Machine × Progress :=
  -- A native goes before a method of a module, also one of the same name.
  match env.host.native? call.symbol with
  | some native =>
    let (answer, world) := native call.args m.world
    let m := { m with world }
    match answer with
    | .value v =>
      let frame := if call.keepsResult then waiting.push v else waiting
      (m, proceed callers frame.advance)
    | .failure failure => (m, proceed callers (before.raise failure))
    | .exit code => (m, .ended (.exited code))
  | none =>
    let (answer, m) := link env m before.module call (callers.depth + 1)
    match answer with
    | .ok frame => (m, .running frame (callers.push ⟨waiting, call.keepsResult⟩))
    | .error failure => (m, proceed callers (before.raise failure))

/-- Executes one instruction. -/
def step (env : Environment) (m : Machine) (f : Frame) (callers : Callers) :
    Machine × Progress :=
  let m := { m with executed := m.executed + 1 }
  match f.execute env.host with
  | .error failure => (m, proceed callers (f.raise failure))
  | .ok (.next frame) => (m, proceed callers frame.advance)
  | .ok (.jump frame target) => (m, proceed callers (frame.jump target))
  | .ok (.ret value) => (m, giveBack value callers)
  | .ok (.allocate frame typeName) =>
    let (object, world) := m.world.allocate typeName
    ({ m with world }, proceed callers (frame.push object).advance)
  | .ok (.call waiting call) => perform env m f waiting call callers

/-! ## Runs -/

/-- A failure that no frame may catch leaves them all. -/
def abandon (failure : Failure) (frame : Frame) (callers : Callers) : Failure :=
  callers.list.foldl (fun failure c => .frame c.frame.place failure) (.frame frame.place failure)

/-- Runs on, for `fuel` more instructions at most. -/
def run (env : Environment) (fuel : Nat) (m : Machine) (f : Frame) (callers : Callers) :
    Machine × Ending :=
  match fuel with
  -- No handler is asked: a program cannot catch that its fuel is gone.
  | 0 => (m, .failed (abandon (.fuelExhausted m.executed) f callers))
  | fuel + 1 =>
    match step env m f callers with
    | (m, .running f callers) => run env fuel m f callers
    | (m, .ended ending) => (m, ending)

/-- Calls the method at an index of a module. A machine that has run before has that much less
fuel. -/
def Machine.call (env : Environment) (m : Machine) (target : Module) (index : Nat)
    (args : List Value) : Machine × Ending :=
  if env.limits.maxCallDepth = 0 then (m, .failed (.callDepthExceeded 0))
  else
    match Frame.enter target index args with
    | .error failure => (m, .failed failure)
    | .ok frame => run env (env.limits.fuel - m.executed) m frame .empty

end Interposition
