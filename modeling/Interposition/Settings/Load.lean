import Interposition.Document.Overlay
import Interposition.Settings.Basic
import Interposition.Settings.File
import Interposition.Settings.Variables

/-!
# Interposition.Settings.Load — settings from files and the environment

Settings are read in layers, a later one winning: the defaults, a settings file, and variables
of the environment. What no layer mentions keeps its default, and keys that are no settings are
ignored.
-/

namespace Interposition.Settings

/-! ## Settings as documents -/

/-- Settings as a document of four tables. -/
def toDocument (s : Settings) : Document :=
  .table [
    ("artifact", .table [
      ("path", .ofOption .text s.artifactPath),
      ("candidates", .texts s.candidates)]),
    ("subsystem", .table [
      ("entry_module", .text s.entryModule),
      ("entry_method", .text s.entryMethod),
      ("entry_descriptor", .text s.entryDescriptor),
      ("transform_prefixes", .texts s.transformPrefixes),
      ("label", .text s.label),
      ("forced_properties", .texts s.forcedProperties)]),
    ("limits", .table [
      ("fuel", .integer s.fuel),
      ("max_call_depth", .integer s.maxCallDepth),
      ("timeout_secs", .ofOption (fun n => .integer n) s.timeoutSeconds),
      ("sink_capacity", .integer s.sinkCapacity)]),
    ("observability", .table [
      ("json_logs", .bool s.jsonLogs),
      ("log_level", .text s.logLevel)])]

/-- The part of a table under a key, or of a list at the key's place. -/
def part? (d : Document) (place : Nat) (key : String) : Option Document :=
  match d with
  | .table _ => d.field? key
  | .list items => items[place]?
  | _ => none

/-- A part that may be missing from a table, as if it were null. -/
def optionalPart? (d : Document) (place : Nat) (key : String) : Option Document :=
  match d with
  | .table _ => some ((d.field? key).getD .null)
  | _ => part? d place key

/-- The settings a document stands for, if every part is there and can be read. -/
def ofDocument? (d : Document) : Option Settings := do
  let artifact ← part? d 0 "artifact"
  let subsystem ← part? d 1 "subsystem"
  let limits ← part? d 2 "limits"
  let observability ← part? d 3 "observability"
  return {
    artifactPath := ← (Document.toOptional? Document.toText?) (← optionalPart? artifact 0 "path")
    candidates := ← (← part? artifact 1 "candidates").toTexts?
    entryModule := ← (← part? subsystem 0 "entry_module").toText?
    entryMethod := ← (← part? subsystem 1 "entry_method").toText?
    entryDescriptor := ← (← part? subsystem 2 "entry_descriptor").toText?
    transformPrefixes := ← (← part? subsystem 3 "transform_prefixes").toTexts?
    label := ← (← part? subsystem 4 "label").toText?
    forcedProperties := ← (← part? subsystem 5 "forced_properties").toTexts?
    fuel := ← (← part? limits 0 "fuel").toUnsigned?
    maxCallDepth := ← (← part? limits 1 "max_call_depth").toUnsigned?
    timeoutSeconds :=
      ← (Document.toOptional? Document.toUnsigned?) (← optionalPart? limits 2 "timeout_secs")
    sinkCapacity := ← (← part? limits 3 "sink_capacity").toUnsigned?
    jsonLogs := ← (← part? observability 0 "json_logs").toBool?
    logLevel := ← (← part? observability 1 "log_level").toText? }

/-! ## Loading -/

/-- The settings file used when none is named. -/
def defaultFile : String := "interpose.toml"

/-- Settings from a file and the environment. -/
def read (tree : FileTree) (vars : Variables) (name : String) (required : Bool) :
    Except Fault Settings := do
  let some fields := ofFile? tree name required | throw .unreadable
  let some d := default.toDocument.overlayAll? (fields ++ ofVariables vars) | throw .noSuchPlace
  let some settings := ofDocument? d | throw .unreadable
  return settings

/-- Settings from a file and the environment, valid ones only. -/
def loadFrom (tree : FileTree) (vars : Variables) (name : String) (required : Bool) :
    Except Fault Settings := do
  let settings ← read tree vars name required
  settings.validate
  return settings

/-- Settings from the file that the environment names, or else from the default file if it is
there, and from the environment. -/
def load (tree : FileTree) (vars : Variables) : Except Fault Settings :=
  match vars.value? fileVariable with
  | some name => loadFrom tree vars name true
  | none => loadFrom tree vars defaultFile false

end Interposition.Settings
