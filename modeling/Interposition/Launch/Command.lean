import Interposition.Launch.Launcher
import Interposition.Launch.LogFilter
import Interposition.Settings.Load

/-!
# Interposition.Launch.Command — the command that launches

The command loads its settings, launches, prints the report and ends with an exit status: the
code a program asked to exit with, 0 for success, 1 for an error, and a status of its own where
the command breaks off.
-/

namespace Interposition

/-- What a command leaves behind. -/
structure CommandResult where
  /-- The exit status, of which one byte is seen from outside. -/
  status : UInt8
  /-- Lines really printed by the program. -/
  printed : Printout
  /-- The report, if there is one to print. -/
  report : Option Report
  /-- The message of the error that ended the command, with those of its causes. -/
  errors : List String

namespace Command

/-- The byte of an exit code that is seen from outside. -/
def statusByte (code : Int32) : UInt8 :=
  code.toUInt32.toUInt8

/-! ## Log filters -/

/-- The variable whose log filter goes before that of the settings. -/
def filterVariable : String := "RUST_LOG"

/-- Checks the log filter of the environment, or that of the settings. One in the environment that
is malformed does not matter. -/
def checkLogFilter (vars : Settings.Variables) (settings : Settings) :
    Except LogFilter.Fault Unit :=
  match (vars.value? filterVariable).map LogFilter.check with
  | none | some (.error .malformed) => LogFilter.check settings.logLevel
  | some answer => answer

/-! ## Running -/

/-- The status of a command that ends with an error. -/
def errorStatus : UInt8 := 1

/-- The status of a command that breaks off: at a place that a list cannot have, or at a log filter
with a part that begins or ends inside a character. -/
def brokenStatus : UInt8 := 101

/-- A command that ends before there is a report. -/
def fail (status : UInt8) (e : Error) (printed : Printout) : CommandResult :=
  ⟨status, printed, none, e.message :: e.causes⟩

/-- The status of a command that has a report. -/
def status (report : Report) : UInt8 :=
  match report.toResult with
  | .ok () => 0
  | .error (.nonZeroExit code) => statusByte code
  | .error _ => errorStatus

def run (tree : FileTree) (vars : Settings.Variables) (addresses : Nat → Nat := World.blocks) :
    CommandResult :=
  match Settings.load tree vars with
  | .error fault =>
    fail (if fault = .noSuchPlace then brokenStatus else errorStatus) (.settings fault.message) #[]
  | .ok settings =>
    match checkLogFilter vars settings with
    | .error fault =>
      fail (if fault = .misplaced then brokenStatus else errorStatus)
        (.observability "invalid log filter") #[]
    | .ok () =>
      let result := (Launch.ofSettings settings tree addresses).run
      let printed := result.world.printed
      match result.answer with
      | .error (.exited code) => ⟨statusByte code, printed, none, []⟩
      | .error (.error e) => fail errorStatus e printed
      | .ok report =>
        let errors :=
          match report.toResult with
          | .ok () => []
          | .error e => e.message :: e.causes
        ⟨status report, printed, some report, errors⟩

end Command

end Interposition
