import Interposition.Artifact.Version
import Interposition.Sandbox.Outcome
import Interposition.Document.Json

/-!
# Interposition.Launch.Report — what a launch tells

A report says what was started, how it ended and what it printed.
-/

namespace Interposition

structure Report where
  /-- The text of the entry point. -/
  entry : String
  /-- The root of the artifact. -/
  artifact : String
  version : Option VersionStamp
  outcome : Summary
  exitCode : Int32
  /-- Captured lines, oldest first. -/
  console : List Line
  /-- Lines that found no room. -/
  consoleDropped : Nat
deriving DecidableEq, Repr

namespace Report

def isSuccess (r : Report) : Bool :=
  r.outcome.isSuccess

/-- Success, or the error that the run is to its caller. -/
def toResult (r : Report) : Except Error Unit :=
  r.outcome.toResult

/-! ## As a document -/

def ofVersion (v : VersionStamp) : Document :=
  .table [("hash", .text v.hash), ("version", .text v.version)]

def ofSummary : Summary → Document
  | .success value =>
    .table [("kind", .text "success"), ("value", .ofOption .text value)]
  | .controlledFailure code =>
    .table [("kind", .text "controlled_failure"), ("code", .integer code.toInt)]
  | .crash chain => .table [("kind", .text "crash"), ("chain", .texts chain)]

def ofLine (line : Line) : Document :=
  .table [("tag", .text line.tag), ("message", .text line.message)]

def toDocument (r : Report) : Document :=
  .table [
    ("entry", .text r.entry),
    ("artifact", .text r.artifact),
    ("version", .ofOption ofVersion r.version),
    ("outcome", ofSummary r.outcome),
    ("exit_code", .integer r.exitCode.toInt),
    ("console", .list (r.console.map ofLine)),
    ("console_dropped", .integer r.consoleDropped)]

end Report

end Interposition
