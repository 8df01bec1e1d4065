import Interposition.Machine.Run
import Interposition.Sandbox.Entry

/-!
# Interposition.Settings.Basic — what a launch is told

Where to look for the artifact, what to start in it, which modules to redirect, and how much a
run may use.
-/

namespace Interposition

structure Settings where
  /-- The place to look for the artifact before the candidates. -/
  artifactPath : Option String
  candidates : List String
  entryModule : String
  entryMethod : String
  entryDescriptor : String
  /-- Modules whose names start with one of these have their calls redirected. -/
  transformPrefixes : List String
  /-- The tag of captured lines. -/
  label : String
  /-- Properties that always read as true. -/
  forcedProperties : List String
  fuel : Nat
  maxCallDepth : Nat
  /-- How many seconds to wait for a run; `none` waits for its end. -/
  timeoutSeconds : Option Nat
  /-- How many captured lines are kept. -/
  sinkCapacity : Nat
  /-- Whether log lines are written as JSON. -/
  jsonLogs : Bool
  logLevel : String
deriving DecidableEq, Repr

namespace Settings

def default : Settings where
  artifactPath := none
  candidates := ["./subsystem", "./subsystem.bundle"]
  entryModule := "subsystem.Main"
  entryMethod := "main"
  entryDescriptor := "()V"
  transformPrefixes := ["subsystem."]
  label := "subsystem"
  forcedProperties := ["patchonly"]
  fuel := Limits.default.fuel
  maxCallDepth := Limits.default.maxCallDepth
  timeoutSeconds := none
  sinkCapacity := 1024
  jsonLogs := false
  logLevel := "info"

def entryPoint (s : Settings) : EntryPoint :=
  ⟨s.entryModule, s.entryMethod, s.entryDescriptor⟩

def limits (s : Settings) : Limits :=
  ⟨s.fuel, s.maxCallDepth⟩

/-- The places to look for the artifact, in order. -/
def searchOrder (s : Settings) : List String :=
  s.artifactPath.toList ++ s.candidates

/-! ## Validation -/

/-- Why settings cannot be used. -/
inductive Fault where
  | emptyEntryModule
  | emptyPrefix
  | noFuel
  | noSinkCapacity
  /-- Settings files or variables that cannot be read as settings. -/
  | unreadable
  /-- A variable or a key for a place that a list cannot have. -/
  | noSuchPlace
deriving DecidableEq, Repr

def Fault.message : Fault → String
  | .emptyEntryModule => "subsystem.entry_module is empty"
  | .emptyPrefix => "subsystem.transform_prefixes contains an empty prefix"
  | .noFuel => "limits.fuel must be positive"
  | .noSinkCapacity => "limits.sink_capacity must be positive"
  | .unreadable => "settings cannot be read"
  | .noSuchPlace => "a list has no such place"

/-- The first fault there is. -/
def validate (s : Settings) : Except Fault Unit :=
  if s.entryModule.isEmpty then .error .emptyEntryModule
  else if s.transformPrefixes.any String.isEmpty then .error .emptyPrefix
  else if s.fuel = 0 then .error .noFuel
  else if s.sinkCapacity = 0 then .error .noSinkCapacity
  else .ok ()

end Settings

end Interposition
