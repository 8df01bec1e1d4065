import Interposition.Call.Symbol
import Interposition.Machine.Console
import Interposition.Machine.Failure

/-!
# Interposition.Machine.Host — what a program runs on

The host offers natives, found by the exact symbol of a call, and static fields. What natives
change is the world: a property table, the captured console, what was really printed, and the
objects made. Which addresses the allocator gives to objects is up to the world. A native answers
with a value, with a failure or by ending the process.
-/

namespace Interposition

/-! ## The world -/

/-- A stream that the process really writes to. -/
inductive Stream where
  | out
  | err
deriving DecidableEq, Repr

/-- Lines really printed, oldest first. -/
abbrev Printout :=
  Array (Stream × String)

/-- The text that one of the streams gets. -/
def Printout.on (p : Printout) (stream : Stream) : String :=
  String.join ((p.toList.filter (·.1 = stream)).map fun (_, line) => line ++ "\n")

structure World where
  /-- System properties, latest first. -/
  properties : List (String × String)
  console : Console
  printed : Printout
  /-- Exit requests that took the place of a real exit. -/
  exitsTrapped : Nat
  /-- Calls of recorded natives with their arguments, oldest first. -/
  calls : Array (Symbol × List Value)
  /-- How many objects have been made. -/
  made : Nat
  /-- The address that the allocator gives to each object, in the order in which they are made. -/
  addresses : Nat → Nat

namespace World

/-- The identities of the two console streams of the core library. These are tagged, so nothing
shows their addresses. -/
def outIdentity : Identity := ⟨0, 0⟩

def errIdentity : Identity := ⟨1, 0⟩

/-- The addresses of an allocator that gives out one block after the other. -/
def blocks (number : Nat) : Nat :=
  0x7f0000000000 + 16 * number

/-- A world in which nothing has happened, but that there are the two console streams. -/
def initial (consoleCapacity : Nat) (addresses : Nat → Nat := blocks) : World :=
  ⟨[], .ofCapacity consoleCapacity, #[], 0, #[], 2, addresses⟩

/-- The identity of the object that is made after `later` others. -/
def identity (w : World) (later : Nat) : Identity :=
  ⟨w.made + later, w.addresses (w.made + later)⟩

/-- The identity of the next object. -/
def nextIdentity (w : World) : Identity :=
  w.identity 0

def setProperty (w : World) (key value : String) : World :=
  { w with properties := (key, value) :: w.properties }

def property? (w : World) (key : String) : Option String :=
  w.properties.lookup key

/-- Whether a property is set to "true", in any mix of ASCII cases. -/
def booleanProperty (w : World) (key : String) : Bool :=
  match w.property? key with
  | some value => value.toList.map Char.toLower == "true".toList
  | none => false

def emit (w : World) (line : Line) : World :=
  { w with console := w.console.emit line }

def print (w : World) (stream : Stream) (line : String) : World :=
  { w with printed := w.printed.push (stream, line) }

def record (w : World) (symbol : Symbol) (args : List Value) : World :=
  { w with calls := w.calls.push (symbol, args) }

/-- A new untagged object. -/
def allocate (w : World) (typeName : String) : Value × World :=
  (.object ⟨w.nextIdentity, typeName, none⟩, { w with made := w.made + 1 })

end World

/-! ## Natives -/

inductive Answer where
  | value (value : Value)
  | failure (failure : Failure)
  /-- The process ends here. -/
  | exit (code : Int32)

abbrev Native :=
  List Value → World → Answer × World

namespace Native

/-- The integer argument at an index. -/
def intArg (name : String) (args : List Value) (index : Nat) : Except Failure Int64 :=
  match args[index]? with
  | some (.int v) => .ok v
  | _ => .error (.native name s!"argument {index} must be an int")

/-- The string argument at an index. -/
def strArg (name : String) (args : List Value) (index : Nat) : Except Failure String :=
  match args[index]? with
  | some (.str v) => .ok v
  | _ => .error (.native name s!"argument {index} must be a string")

/-- A native that reads its arguments before it does anything. -/
def ofArgs {α : Type} (read : List Value → Except Failure α) (act : α → World → Answer × World) :
    Native := fun args w =>
  match read args with
  | .error failure => (.failure failure, w)
  | .ok a => act a w

/-- A native that answers from its arguments alone and is recorded under a symbol. -/
def recorded (symbol : Symbol) (answer : List Value → Answer) : Native := fun args w =>
  (answer args, w.record symbol args)

end Native

/-- An exit code has 32 bits. A wider number becomes the nearest one that fits. -/
def clampExitCode (code : Int64) : Int32 :=
  Int32.ofInt (max (-2147483648) (min code.toInt 2147483647))

/-! ## Hosts -/

/-- Natives and fields, latest first. -/
structure Host where
  natives : List (Symbol × Native)
  fields : List ((String × String) × Value)

namespace Host

def empty : Host := ⟨[], []⟩

/-- Registers a native. It hides an older one of the same symbol. -/
def register (h : Host) (symbol : Symbol) (native : Native) : Host :=
  { h with natives := (symbol, native) :: h.natives }

def native? (h : Host) (symbol : Symbol) : Option Native :=
  h.natives.lookup symbol

def setField (h : Host) (owner name : String) (value : Value) : Host :=
  { h with fields := ((owner, name), value) :: h.fields }

def field? (h : Host) (owner name : String) : Option Value :=
  h.fields.lookup (owner, name)

end Host

/-! ## The core library -/

namespace Core

def system : String := "core.System"

def printStream : String := "core.PrintStream"

def boolean : String := "core.Boolean"

/-- `core.System.exit(I)V` -/
def exitSymbol : Symbol :=
  ⟨system, "exit", ⟨[.int], none⟩, .static⟩

/-- `core.PrintStream.println(T)V` -/
def printSymbol : Symbol :=
  ⟨printStream, "println", ⟨[.str], none⟩, .virtual⟩

/-- `core.Boolean.getBoolean(T)Z` -/
def getBooleanSymbol : Symbol :=
  ⟨boolean, "getBoolean", ⟨[.str], some .bool⟩, .static⟩

/-- Ends the process. -/
def exit : Native :=
  .ofArgs (Native.intArg "core.System.exit" · 0) fun code w => (.exit (clampExitCode code), w)

/-- The receiver and the line of a print. -/
def printArgs (args : List Value) : Except Failure (Object × String) :=
  match args with
  | .object receiver :: _ => do
    return (receiver, ← Native.strArg "core.PrintStream.println" args 1)
  | _ => .error (.native "core.PrintStream.println" "missing receiver")

/-- Prints a line, on the error stream if the receiver is tagged so. -/
def print : Native :=
  .ofArgs printArgs fun (receiver, line) w =>
    let stream := if receiver.tag = some "stderr" then .err else .out
    (.value .void, w.print stream line)

/-- Reads the property table. -/
def getBoolean : Native :=
  .ofArgs (Native.strArg "core.Boolean.getBoolean" · 0) fun key w =>
    (.value (.bool (w.booleanProperty key)), w)

/-- The system surface that programs are linked against. -/
def host : Host :=
  Host.empty
    |>.setField system "out" (.object ⟨World.outIdentity, printStream, some "stdout"⟩)
    |>.setField system "err" (.object ⟨World.errIdentity, printStream, some "stderr"⟩)
    |>.register exitSymbol exit
    |>.register printSymbol print
    |>.register getBooleanSymbol getBoolean

end Core

end Interposition
