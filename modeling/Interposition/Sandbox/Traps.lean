import Interposition.Call.Registry
import Interposition.Machine.Host

/-!
# Interposition.Sandbox.Traps — stand-ins for the system calls of a program

Calls of the core library's exit, print and property natives are redirected to natives of the
sandbox: exit raises an exit request, print goes to the captured console, and chosen properties
always read as true.
-/

namespace Interposition.Traps

/-- The owner of the stand-ins. -/
def owner : String := "sandbox.Trap"

/-! ## Natives -/

/-- Asks to exit instead of exiting. -/
def handleExit : Native :=
  .ofArgs (Native.intArg "sandbox.Trap.handleExit" · 0) fun code w =>
    (.failure (.exitRequest (clampExitCode code)), { w with exitsTrapped := w.exitsTrapped + 1 })

/-- Captures a printed line under a tag. The receiver comes first. -/
def handlePrint (tag : String) : Native :=
  .ofArgs (Native.strArg "sandbox.Trap.handlePrint" · 1) fun line w =>
    (.value .void, w.emit ⟨tag, line⟩)

/-- Reads a property, true for those in `forced`. -/
def handleGetBoolean (forced : List String) : Native :=
  .ofArgs (Native.strArg "sandbox.Trap.handleGetBoolean" · 0) fun key w =>
    (.value (.bool (forced.contains key || w.booleanProperty key)), w)

/-! ## Installation -/

def exitRule : Rule :=
  .redirect Core.exitSymbol owner "handleExit"

def printRule : Rule :=
  .redirect Core.printSymbol owner "handlePrint"

def getBooleanRule : Rule :=
  .redirect Core.getBooleanSymbol owner "handleGetBoolean"

/-- Registers rules in order. A refused rule ends it; those before stay. -/
def registerAll (registry : Registry) : List Rule → Except RegistryError Unit × Registry
  | [] => (.ok (), registry)
  | rule :: rest =>
    match registry.insert rule with
    | .error e => (.error e, registry)
    | .ok registry => registerAll registry rest

/-- Registers the three rules and, if none was refused, the three natives. -/
def install (tag : String) (forced : List String) (host : Host) (registry : Registry) :
    Except RegistryError Host × Registry :=
  match registerAll registry [exitRule, printRule, getBooleanRule] with
  -- Rules that were registered before the refused one stay, the host stays as it was.
  | (.error e, registry) => (.error e, registry)
  | (.ok (), registry) =>
    let host := host
      |>.register exitRule.target handleExit
      |>.register printRule.target (handlePrint tag)
      |>.register getBooleanRule.target (handleGetBoolean forced)
    (.ok host, registry)

end Interposition.Traps
